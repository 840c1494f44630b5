import FormCheck.Command.Run
import FormCheck.Proofs.ErrorDocuments
import FormCheck.Proofs.Validation

/-!
# Reports on a record

The text of a checked record goes through the compiled fields and looks each up in the error map;
the other format writes the map itself. Compiled names are distinct and every error has one of them,
so both show the same failures, the one in order of the fields and the other in order of the names.
The summary counts them, and the exit status says whether there is one.
-/
namespace FormCheck

namespace Report

/-- A verdict as a line without styles. -/
def Verdict.text (verdict : Verdict) : String :=
  match verdict.error with
  | some message => "✗ " ++ verdict.name ++ ": " ++ message
  | none => "✓ " ++ verdict.name

/-- The fields that failed, each with its message. -/
def failures (entries : List Verdict) : List (String × String) :=
  entries.filterMap fun entry => entry.error.map fun message => (entry.name, message)

/-- The last line of a report in which this many fields failed. -/
def summaryText (failed : Nat) : String :=
  if failed = 0 then "Record is valid" else Nat.repr failed ++ " field(s) failed validation"

theorem render_line (verdict : Verdict) : Line.render false verdict.line = verdict.text := by
  obtain ⟨name, error⟩ := verdict
  cases error with
  | none =>
    simp [Line.render, Verdict.line, Verdict.text, tick, Style.span, Span.plain, String.join]
  | some message =>
    simp [Line.render, Verdict.line, Verdict.text, cross, Style.span, Span.plain, String.join]

theorem render_summary (errors : ErrorMap) :
    Line.render false (summary errors) = summaryText errors.size := by
  by_cases h : errors.entries = []
  · simp [summary, summaryText, ErrorMap.isValid, FieldMap.isEmpty, FieldMap.size, h, Line.render,
      Style.span, String.join]
  · simp [summary, summaryText, ErrorMap.isValid, FieldMap.isEmpty, FieldMap.size, h, Line.render,
      Style.span, String.join]

/-- The report without colours: the verdicts, a blank line and the summary. -/
theorem ofRecord_text (validator : Validator) (errors : ErrorMap) :
    ofRecord .text false validator errors =
      String.join ((verdicts validator errors).map fun entry => entry.text ++ "\n") ++ "\n" ++
        summaryText errors.size ++ "\n" := by
  simp only [ofRecord, Line.renderAll, recordLines, List.map_append, List.map_map,
    String.join_append, Function.comp_def, render_line, List.map_cons, List.map_nil, render_summary]
  simp [Line.render, String.join, String.append_assoc]

@[simp] theorem names_verdicts (validator : Validator) (errors : ErrorMap) :
    (verdicts validator errors).map Verdict.name = Validator.names validator.fields := by
  rw [verdicts, List.map_map]
  rfl

/-- With distinct names no field fails twice. -/
theorem nodup_failures {entries : List Verdict} (h : (entries.map Verdict.name).Nodup) :
    (failures entries).Nodup := by
  rw [failures, List.Nodup, List.pairwise_filterMap]
  refine (List.pairwise_map.mp h).imp ?_
  intro a b hne failure ha failure' hb heq
  obtain ⟨_, -, rfl⟩ := Option.map_eq_some_iff.mp ha
  obtain ⟨_, -, rfl⟩ := Option.map_eq_some_iff.mp hb
  exact hne (congrArg Prod.fst heq)

section DistinctNames

variable {validator : Validator} (h : (Validator.names validator.fields).Nodup) (record : Record)
include h

/-- A field fails in the report if it has an error. -/
theorem mem_failures_iff {name message : String} :
    (name, message) ∈ failures (verdicts validator (validator.errors record)) ↔
      (validator.errors record).get? name = some message := by
  constructor
  · intro hmem
    obtain ⟨entry, hentry, hfailure⟩ := List.mem_filterMap.mp hmem
    obtain ⟨field, -, rfl⟩ := List.mem_map.mp hentry
    obtain ⟨_, herror, heq⟩ := Option.map_eq_some_iff.mp hfailure
    cases heq
    exact herror
  · intro herror
    have hname : name ∈ Validator.names validator.fields := by
      by_contra hunknown
      rw [Validator.get?_errors h, Validator.validateField, Validator.field?,
        Validator.find?_eq_none_of_notMem hunknown] at herror
      cases herror
    obtain ⟨field, hfield, rfl⟩ := List.mem_map.mp hname
    refine List.mem_filterMap.mpr ⟨_, List.mem_map.mpr ⟨field, hfield, rfl⟩, ?_⟩
    rw [herror, Option.map_some]

/-- The failures in the report are the entries of the error map in another order. -/
theorem failures_perm_entries :
    (failures (verdicts validator (validator.errors record))).Perm
      (validator.errors record).entries := by
  have hnodup : (failures (verdicts validator (validator.errors record))).Nodup :=
    nodup_failures (by rwa [names_verdicts])
  rw [List.perm_ext_iff_of_nodup hnodup (validator.errors record).nodup_entries]
  rintro ⟨name, message⟩
  rw [mem_failures_iff h, FieldMap.get?_eq_some_iff]

end DistinctNames

/-- Only the summary of a valid record ends in the word that it is valid. -/
theorem valid_suffix_iff (before : String) (failed : Nat) :
    "Record is valid\n".toList <:+ (before ++ summaryText failed ++ "\n").toList ↔ failed = 0 := by
  constructor
  · intro hvalid
    by_contra hfailed
    have hsummary : " field(s) failed validation\n".toList <:+
        (before ++ summaryText failed ++ "\n").toList := by
      rw [summaryText, if_neg hfailed]
      refine ⟨(before ++ Nat.repr failed).toList, ?_⟩
      simp
    -- Of two endings of one text one is an ending of the other.
    rcases List.suffix_or_suffix_of_suffix hvalid hsummary with h | h
    · exact absurd h (by decide +kernel)
    · exact absurd h (by decide +kernel)
  · rintro rfl
    refine ⟨before.toList, ?_⟩
    simp [summaryText]

end Report

namespace Command

/-- What can be loaded is loaded without a further effect. -/
theorem load_eq_pure {α : Type} {look : String → FileState}
    {read : String → FileState → Except LoadError α} {path : String} {a : α}
    (h : read path (look path) = .ok a) : load (m := Id) look read path = pure a :=
  congrArg (ExceptT.mk (m := Id)) h

end Command

/-- A check whose files can be loaded ends with the finding on the record. -/
theorem Invocation.run_check {look : String → FileState} {invocation : Invocation}
    {source : SchemaSource} {path : String} {format : Option OutputFormat}
    {pattern : Option EmailPattern} {config : Config} {schema : FormSchema} {record : Record}
    (hcommand : invocation.command = .check source path format pattern)
    (hconfig : Config.ofFile invocation.configPath (look invocation.configPath) = .ok config)
    (hschema : Command.loadSchema (m := Id) look config source = pure schema)
    (hrecord : Record.ofFile path (look path) = .ok record) (color : Bool) :
    invocation.run (m := Id) look color =
      .ofFinding (Command.checkRecord schema record (pattern.getD config.emailPattern)
        (format.getD config.format) (color && config.color)) := by
  rw [Invocation.run, hcommand, Command.load_eq_pure hconfig, pure_bind, Command.perform, hschema,
    pure_bind, Command.load_eq_pure hrecord, pure_bind]
  rfl

open Report in
/-- The two formats of a checked record and its exit status agree. The text has one entry for each
name of the form, in order of the compiled fields, and an entry fails if its field has an error.
The last line counts the failures, the object of the other format has them as members in order of
the names, and the exit status is 0 if there is none. A run of the program that checks the record
ends just so. -/
theorem check_formats_agree (schema : FormSchema) (record : Record) (pattern : EmailPattern) :
    let validator := (Validator.compile schema.fields pattern).value
    let errors := (validator.validate record).value
    let outcome (format : OutputFormat) : Outcome :=
      .ofFinding (Command.checkRecord schema record pattern format false)
    let entries := verdicts validator errors
    let failed := failures entries
    let sorted := failed.mergeSort fun a b => a.1 ≤ b.1
    (outcome .text).output = String.join (entries.map fun entry => entry.text ++ "\n") ++ "\n" ++
      summaryText failed.length ++ "\n" ∧
    (entries.map Verdict.name = Validator.names validator.fields ∧
      (entries.map Verdict.name).Nodup ∧
      ∀ name, name ∈ entries.map Verdict.name ↔ name ∈ schema.fields.map FieldDescriptor.name) ∧
    (∀ name message, (name, message) ∈ failed ↔ errors.get? name = some message) ∧
    (Json.parse? (outcome .json).output = some (.record (sorted.map fun m => (m.1, .text m.2))) ∧
      sorted.length = failed.length ∧ (sorted.map Prod.fst).Pairwise (· < ·)) ∧
    (∀ format, (outcome format).exit = if failed = [] then 0 else 1) ∧
    (failed = [] ↔ Json.parse? (outcome .json).output = some (.object [])) ∧
    (failed = [] ↔ "Record is valid\n".toList <:+ (outcome .text).output.toList) ∧
    ∀ (look : String → FileState) (invocation : Invocation) (source : SchemaSource) (path : String)
      (format : OutputFormat) (config : Config),
      invocation.command = .check source path (some format) (some pattern) →
      Config.ofFile invocation.configPath (look invocation.configPath) = .ok config →
      Command.loadSchema (m := Id) look config source = pure schema →
      Record.ofFile path (look path) = .ok record →
      invocation.run (m := Id) look false = outcome format := by
  intro validator errors outcome entries failed sorted
  have hnodup := Validator.nodup_names_compile schema.fields pattern
  have hperm : failed.Perm errors.entries := failures_perm_entries hnodup record
  have hsorted : sorted = errors.entries := FieldMap.mergeSort_eq_entries hperm
  have hlength : errors.size = failed.length := hperm.length_eq.symm
  have hjson : Json.parse? (outcome .json).output = some errors.toJson :=
    Json.parse?_prettyText_append errors.wellFormed_toJson (by simp [Json.IsGap, Json.isSpace])
  have htext : (outcome .text).output = _ := ofRecord_text validator errors
  rw [hlength] at htext
  have hempty : failed = [] ↔ errors.entries = [] := by
    rw [← List.length_eq_zero_iff, ← hlength, FieldMap.size, List.length_eq_zero_iff]
  refine ⟨htext, ⟨names_verdicts _ _, ?_, ?_⟩, ?_, ⟨?_, ?_, ?_⟩, ?_, ?_, ?_, ?_⟩
  · rw [names_verdicts]
    exact hnodup
  · intro name
    rw [names_verdicts]
    exact Validator.mem_names_compile schema.fields pattern name
  · exact fun name message => mem_failures_iff hnodup record
  · rw [hjson, hsorted]
    rfl
  · exact List.length_mergeSort failed
  · rw [hsorted]
    exact List.pairwise_map.mpr errors.ascending
  · intro format
    simp only [hempty, ← List.isEmpty_iff]
    rfl
  · rw [hjson, Option.some.injEq, ErrorMap.toJson_eq_empty_iff, hempty]
  · rw [htext, valid_suffix_iff, List.length_eq_zero_iff]
  · intro look invocation source path format config hcommand hconfig hschema hrecord
    exact Invocation.run_check hcommand hconfig hschema hrecord false

/-- A form with a name that occurs twice, and a record that lacks it. -/
def twoFiles (path : String) : FileState :=
  if path = "form.json" then
    .text ("\x7b\"fields\":[[\"b\",\"B\"],[\"a\",\"A\"]," ++
      "[\"b\",\"C\",\"text\",\"required\"]]\x7d")
  else if path = "record.json" then .text "\x7b\"a\":\"\"\x7d"
  else .missing

theorem check_formats_agree_twoFiles :
    let schema : FormSchema := ⟨[{ name := "b", label := "B" }, { name := "a", label := "A" },
      { name := "b", label := "C", rule := some "required" }]⟩
    let record : Record := .ofList [("a", .string "")]
    let invocation : Invocation :=
      { command := .check (.file "form.json") "record.json" (some .text) (some .html) }
    (Config.ofFile invocation.configPath (twoFiles invocation.configPath) = .ok {} ∧
      Command.loadSchema (m := Id) twoFiles {} (.file "form.json") = pure schema ∧
      Record.ofFile "record.json" (twoFiles "record.json") = .ok record) ∧
    invocation.run (m := Id) twoFiles false =
      .ofFinding (Command.checkRecord schema record .html .text false) ∧
    (Command.checkRecord schema record .html .text false).value =
      ⟨false, "✗ b: C is required\n✓ a\n\n1 field(s) failed validation\n"⟩ := by
  intro schema record invocation
  have hconfig : Config.ofFile invocation.configPath (twoFiles invocation.configPath) = .ok {} := by
    decide +kernel
  have hschema : Command.loadSchema (m := Id) twoFiles {} (.file "form.json") = pure schema :=
    Command.load_eq_pure (by decide +kernel)
  have hrecord : Record.ofFile "record.json" (twoFiles "record.json") = .ok record := by
    decide +kernel
  obtain ⟨-, -, -, -, -, -, -, hrun⟩ := check_formats_agree schema record .html
  exact ⟨⟨hconfig, hschema, hrecord⟩,
    hrun twoFiles invocation _ _ .text {} rfl hconfig hschema hrecord, by decide +kernel⟩

end FormCheck
