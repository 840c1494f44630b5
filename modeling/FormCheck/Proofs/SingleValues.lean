import FormCheck.Proofs.Reports
import FormCheck.Proofs.RuleStrings
import FormCheck.Proofs.Runs

/-!
# A value alone and in a form

A value can be checked against a rule string on its own, or as the only value of a record against a
form with a single field of these rules. The one evaluates the rules and prints the first that
rejects the value, the other compiles the form, looks the value up and gathers an error map. Both
come to the same verdict with the same message, and what is printed of the rules reads back as the
rules that were applied.
-/
namespace FormCheck

/-- The record of a value under a name; without a value it is empty. -/
def Record.single (name : String) : Option String → Record
  | some text => .ofList [(name, .string text)]
  | none => .empty

@[simp] theorem Record.get?_single (name : String) (value : Option String) :
    (Record.single name value).get? name = value.map Value.string := by
  cases value with
  | none => rfl
  | some text => exact FieldMap.get?_insert_self .empty name (Value.string text)

namespace Validator

/-- A form with one field compiles to that field. -/
theorem compile_singleton (field : FieldDescriptor) (pattern : EmailPattern) :
    (compile [field] pattern).value =
      ⟨[⟨field.name, field.label, field.rules.value⟩], pattern⟩ := by
  rw [value_compile]
  rfl

/-- A form with one field has an error if a rule of that field rejects the value. -/
theorem errors_compile_singleton (field : FieldDescriptor) (pattern : EmailPattern)
    (record : Record) :
    (compile [field] pattern).value.errors record =
      match field.rules.value.firstFailure pattern (record.get? field.name) with
      | some rule => .ofList [(field.name, rule.message field.label)]
      | none => .empty := by
  rw [compile_singleton, errors, List.filterMap_cons, List.filterMap_nil, CompiledField.check]
  cases field.rules.value.firstFailure pattern (record.get? field.name) with
  | none => rfl
  | some rule => rfl

end Validator

namespace Report

/-- A value that is rejected: the message, and the token of the rule in parentheses. -/
theorem render_valueLine_some (color : Bool) (label : String) (rules : RuleSet) (rule : Rule) :
    Line.renderAll color [valueLine label rules (some rule)] =
      cross.render color ++ " " ++ (Style.red.span (rule.message label)).render color ++
        " (" ++ rule.token ++ ")\n" := by
  simp [Line.renderAll, Line.render, valueLine, String.join, String.append_assoc]

theorem render_valueLine_none (color : Bool) (label : String) {rules : RuleSet}
    (h : rules.rules ≠ []) :
    Line.renderAll color [valueLine label rules none] =
      tick.render color ++ " " ++ label ++ " passes " ++ rules.text ++ "\n" := by
  simp [Line.renderAll, Line.render, valueLine, h, String.join, String.append_assoc]

/-- The report on a field that is alone in its form and has an error. -/
theorem render_single (color : Bool) (field : CompiledField) (pattern : EmailPattern)
    (message : String) :
    ofRecord .text color ⟨[field], pattern⟩ (.ofList [(field.name, message)]) =
      cross.render color ++ " " ++ (Style.bold.span field.name).render color ++ ": " ++
        (Style.red.span message).render color ++ "\n\n" ++
        (Style.boldRed.span "1 field(s) failed validation").render color ++ "\n" := by
  have hget : (FieldMap.ofList [(field.name, message)]).get? field.name = some message :=
    FieldMap.get?_insert_self .empty field.name message
  have hvalid : ErrorMap.isValid (.ofList [(field.name, message)]) = false := rfl
  have hcount : Nat.repr (FieldMap.ofList [(field.name, message)]).size = "1" := by
    change Nat.repr 1 = "1"
    decide
  simp [ofRecord, recordLines, verdicts, summary, hget, hvalid, hcount, Line.renderAll, Line.render,
    Verdict.line, String.join, String.append_assoc]

end Report

open Report in
/-- Checking a value alone and checking it in a form with one field come to the same verdict. If the
value is rejected, both print the same message, which is that of the first rule that rejects it, and
the token printed with it reads back as that rule. If it passes some rules, what is printed of them
reads back as all that were applied. Runs of the program that load these tasks end with the same
exit status. -/
theorem value_alone_and_in_form (name label rules : String) (kind : FieldKind)
    (options : List SelectOption) (value : Option String) (pattern : EmailPattern) :
    let schema : FormSchema := ⟨[{ name, label, kind, rule := some rules, options }]⟩
    let record := Record.single name value
    let set := (RuleSet.parse rules).value
    let errors := ((Validator.compile schema.fields pattern).value.validate record).value
    let alone (color : Bool) := (Command.checkValue rules label value pattern color).value
    let inForm (format : OutputFormat) (color : Bool) :=
      (Command.checkRecord schema record pattern format color).value
    (∀ format color color', (alone color).passed = (inForm format color').passed) ∧
    (∀ color, (alone color).passed = false → ∃ rule message,
      FirstRejecting pattern set.rules (value.map .string) (some rule) ∧
      (alone color).output = cross.render color ++ " " ++ (Style.red.span message).render color ++
        " (" ++ rule.token ++ ")\n" ∧
      Rule.parse rule.token = some rule ∧
      message = rule.message label ∧
      errors.get? name = some message ∧
      (inForm .text color).output =
        cross.render color ++ " " ++ (Style.bold.span name).render color ++ ": " ++
          (Style.red.span message).render color ++ "\n\n" ++
          (Style.boldRed.span "1 field(s) failed validation").render color ++ "\n" ∧
      (inForm .json color).output = (Json.record [(name, .text message)]).prettyText ++ "\n") ∧
    (∀ color, (alone color).passed = true → set.rules ≠ [] → ∃ text,
      (alone color).output = tick.render color ++ " " ++ label ++ " passes " ++ text ++ "\n" ∧
      RuleSet.parse text = ⟨set, []⟩) ∧
    ∀ (look : String → FileState) (color : Bool) (a b : Invocation) (format : OutputFormat)
      (config settings : Config),
      a.task look = .ok (config, .rule rules label value pattern) →
      b.task look = .ok (settings, .check schema record format pattern) →
      let first : Outcome := a.run (m := Id) look color
      let second : Outcome := b.run (m := Id) look color
      first.output = (alone (color && config.color)).output ∧
      second.output = (inForm format (color && settings.color)).output ∧
      first.exit = second.exit := by
  intro schema record set errors alone inForm
  have hinForm (format : OutputFormat) (color : Bool) : inForm format color =
      ⟨errors.isValid, ofRecord format color ⟨[⟨name, label, set⟩], pattern⟩ errors⟩ := by
    simp only [inForm, errors, Command.value_checkRecord, Validator.value_validate]
    rw [Validator.compile_singleton]
    rfl
  have herrors : errors = match set.firstFailure pattern (value.map .string) with
      | some rule => .ofList [(name, rule.message label)]
      | none => .empty := by
    have hget : record.get? name = value.map .string := Record.get?_single name value
    rw [← hget]
    exact Validator.errors_compile_singleton _ pattern record
  have hpassed (format : OutputFormat) (color color' : Bool) :
      (alone color).passed = (inForm format color').passed := by
    rw [hinForm, herrors]
    simp only [alone, Command.value_checkValue]
    cases set.firstFailure pattern (value.map .string) with
    | none => rfl
    | some rule => rfl
  refine ⟨hpassed, ?_, ?_, ?_⟩
  · intro color hfailed
    cases hfailure : set.firstFailure pattern (value.map .string) with
    | none => simp [alone, set, hfailure] at hfailed
    | some rule =>
      rw [hfailure] at herrors
      have hfirst := (RuleSet.firstFailure_eq_iff pattern set _ _).mp hfailure
      have halone : (alone color).output =
          Line.renderAll color [valueLine label set (some rule)] := by
        simp [alone, set, hfailure]
      refine ⟨rule, rule.message label, hfirst, ?_, rule.parse_token, rfl, ?_, ?_, ?_⟩
      · rw [halone, render_valueLine_some]
      · rw [herrors]
        exact FieldMap.get?_insert_self .empty name _
      · rw [hinForm, herrors]
        exact render_single color ⟨name, label, set⟩ pattern _
      · rw [hinForm, herrors]
        rfl
  · intro color hpassed hrules
    cases hfailure : set.firstFailure pattern (value.map .string) with
    | none =>
      have halone : (alone color).output = Line.renderAll color [valueLine label set none] := by
        simp [alone, set, hfailure]
      exact ⟨set.text, by rw [halone, render_valueLine_none color label hrules],
        set.parse_text⟩
    | some rule => simp [alone, set, hfailure] at hpassed
  · intro look color a b format config settings ha hb first second
    have hfirst : first = .ofFinding (Command.checkValue rules label value pattern
        (color && config.color)) := Invocation.run_of_task_ok ha color
    have hsecond : second = .ofFinding (Command.checkRecord schema record pattern format
        (color && settings.color)) := Invocation.run_of_task_ok hb color
    have hverdict := hpassed format (color && config.color) (color && settings.color)
    simp only [alone, inForm] at hverdict
    rw [hfirst, hsecond]
    refine ⟨rfl, rfl, ?_⟩
    rw [Outcome.ofFinding, Outcome.ofFinding, hverdict]

/-- A form of one field and a record for it. -/
def oneField (path : String) : FileState :=
  if path = "form.json" then
    .text ("\x7b\"fields\":[[\"p\",\"Password\",\"text\",\"required|bogus|min:+08\"]]\x7d")
  else if path = "record.json" then .text "\x7b\"p\":\"short\"\x7d"
  else .missing

/-- One value that is too short for its rules, in files as well, and one that is not. -/
theorem value_alone_and_in_form_oneField :
    let rules := "required|bogus|min:+08"
    let set : RuleSet := ⟨[.required, .min 8]⟩
    let schema : FormSchema := ⟨[{ name := "p", label := "Password", rule := some rules }]⟩
    let record := Record.single "p" (some "short")
    let alone (value : String) :=
      (Command.checkValue rules "Password" (some value) .html false).value
    let a : Invocation := { command := .rule rules "Password" (some "short") none }
    let b : Invocation := { command := .check (.file "form.json") "record.json" none none }
    ((alone "short").passed = false ∧
      ∃ rule, (alone "short").output =
          "✗ " ++ rule.message "Password" ++ " (" ++ rule.token ++ ")\n" ∧
        Rule.parse rule.token = some rule ∧
        ((Validator.compile schema.fields .html).value.validate record).value.get? "p" =
          some (rule.message "Password")) ∧
    ((alone "long enough").passed = true ∧ set.rules ≠ [] ∧
      ∃ text, (alone "long enough").output = "✓ Password passes " ++ text ++ "\n" ∧
        RuleSet.parse text = ⟨set, []⟩) ∧
    a.task oneField = .ok ({}, .rule rules "Password" (some "short") .html) ∧
    b.task oneField = .ok ({}, .check schema record .text .html) ∧
    (a.run (m := Id) oneField false : Outcome).exit =
      (b.run (m := Id) oneField false : Outcome).exit := by
  intro rules set schema record alone a b
  obtain ⟨-, hshort, -, hruns⟩ :=
    value_alone_and_in_form "p" "Password" rules .text [] (some "short") .html
  obtain ⟨-, -, hlong, -⟩ :=
    value_alone_and_in_form "p" "Password" rules .text [] (some "long enough") .html
  have hrejected : (alone "short").passed = false := by decide +kernel
  have hpassed : (alone "long enough").passed = true := by decide +kernel
  have hset : (RuleSet.parse rules).value = set := by decide +kernel
  have ha : a.task oneField = .ok ({}, .rule rules "Password" (some "short") .html) := by
    decide +kernel
  have hb : b.task oneField = .ok ({}, .check schema record .text .html) := by decide +kernel
  rw [hset] at hlong
  refine ⟨⟨hrejected, ?_⟩, ⟨hpassed, List.cons_ne_nil _ _, ?_⟩, ha, hb, ?_⟩
  · obtain ⟨rule, _, -, houtput, htoken, rfl, herror, -⟩ := hshort false hrejected
    exact ⟨rule, houtput, htoken, herror⟩
  · obtain ⟨text, houtput, htext⟩ := hlong false hpassed (List.cons_ne_nil _ _)
    exact ⟨text, houtput, htext⟩
  · exact (hruns oneField false a b .text {} {} ha hb).2.2

end FormCheck
