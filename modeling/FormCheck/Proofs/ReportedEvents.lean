import FormCheck.Proofs.Compilation
import FormCheck.Proofs.FieldMaps
import FormCheck.Proofs.TokenAccounts
import Mathlib.Data.List.Dedup

/-!
# Reported events

Compiling a form reports field by field: first the tokens of its rule string that are no rules, then
that its name occurred before, if it did. A last event counts the names. Every field either brings a
new name or is reported, so the fields that are not left are as many as the warnings. Checking a
record reports the number of fields and the number of those that fail, and nothing else: rule
strings are read when a form is compiled and never again.
-/
namespace FormCheck

/-- What is reported of fields in order, behind fields with the names `earlier`. -/
inductive ReportedFor : List String → List FieldDescriptor → List Event → Prop
  | nil {earlier} : ReportedFor earlier [] []
  | fresh {earlier field fields rules reports events} (hname : field.name ∉ earlier)
      (htokens : AccountedFor (RuleSet.tokens (field.rule.getD "")) rules reports)
      (hrest : ReportedFor (field.name :: earlier) fields events) :
      ReportedFor earlier (field :: fields) (reports ++ events)
  | repeated {earlier field fields rules reports events} (hname : field.name ∈ earlier)
      (htokens : AccountedFor (RuleSet.tokens (field.rule.getD "")) rules reports)
      (hrest : ReportedFor (field.name :: earlier) fields events) :
      ReportedFor earlier (field :: fields) (reports ++ .duplicateField field.name :: events)

namespace Validator

theorem mem_names_replace (entry : CompiledField) (l : List CompiledField) (name : String) :
    name ∈ names (replace entry l) ↔ name = entry.name ∨ name ∈ names l := by
  rw [names_replace]
  split_ifs with h
  · refine ⟨.inr, ?_⟩
    rintro (rfl | hname)
    · exact h
    · exact hname
  · rw [List.mem_append, List.mem_singleton, or_comm]

theorem length_replace (entry : CompiledField) (l : List CompiledField) :
    (replace entry l).length = if entry.name ∈ names l then l.length else l.length + 1 := by
  have h := congrArg List.length (names_replace entry l)
  rw [names, List.length_map] at h
  rw [h]
  split_ifs
  · exact List.length_map _
  · rw [List.length_append, List.length_singleton, names, List.length_map]

/-- What adding a field reports. -/
theorem events_add (compiled : List CompiledField) (field : FieldDescriptor) :
    (add compiled field).events = (RuleSet.parse (field.rule.getD "")).events ++
      if field.name ∈ names compiled then [.duplicateField field.name] else [] := by
  have hany : (compiled.any fun f => f.name = (CompiledField.ofDescriptor field).value.name) =
      true ↔ field.name ∈ names compiled := by
    rw [List.any_eq_true, names, List.mem_map]
    exact exists_congr fun f => and_congr_right fun _ => decide_eq_true_iff
  have hparse : (CompiledField.ofDescriptor field).events =
      (RuleSet.parse (field.rule.getD "")).events := by
    rw [← FieldDescriptor.rules_eq_parse]
    exact List.append_nil _
  simp only [add, Traced.events_bind, hparse]
  by_cases h : field.name ∈ names compiled
  · rw [if_pos (hany.mpr h), if_pos h]
    rfl
  · rw [if_neg (mt hany.mp h), if_neg h]
    rfl

/-- What adding fields reports, behind those compiled so far. -/
theorem reportedFor_iff {earlier : List String} {fields : List FieldDescriptor}
    {events : List Event} {compiled : List CompiledField}
    (h : ∀ name, name ∈ names compiled ↔ name ∈ earlier) :
    ReportedFor earlier fields events ↔ (fields.foldlM add compiled).events = events := by
  induction fields generalizing earlier events compiled with
  | nil =>
    constructor
    · rintro ⟨⟩
      rfl
    · rintro rfl
      exact .nil
  | cons field fields ih =>
    have hnames (name : String) :
        name ∈ names (add compiled field).value ↔ name ∈ field.name :: earlier := by
      rw [value_add, mem_names_replace, List.mem_cons, h]
      rfl
    have htokens : ∀ rules reports,
        AccountedFor (RuleSet.tokens (field.rule.getD "")) rules reports →
          (RuleSet.parse (field.rule.getD "")).events = reports := by
      intro rules reports haccount
      rw [RuleSet.parse_eq_iff.mpr haccount]
    rw [List.foldlM_cons, Traced.events_bind, events_add]
    simp only [h]
    constructor
    · intro hreported
      cases hreported with
      | fresh hname hcount hrest =>
        rw [if_neg hname, htokens _ _ hcount, (ih hnames).mp hrest, List.append_nil]
      | repeated hname hcount hrest =>
        rw [if_pos hname, htokens _ _ hcount, (ih hnames).mp hrest, List.append_assoc,
          List.singleton_append]
    · rintro rfl
      have hrest := (ih hnames).mpr rfl
      have hcount := (@RuleSet.parse_eq_iff (field.rule.getD "") _ _).mp rfl
      by_cases hname : field.name ∈ earlier
      · rw [if_pos hname, List.append_assoc, List.singleton_append]
        exact .repeated hname hcount hrest
      · rw [if_neg hname, List.append_nil]
        exact .fresh hname hcount hrest

/-- The warnings among events. -/
def warnings (events : List Event) : List Event := events.filter fun e => e.level = .warn

theorem warnings_append (events more : List Event) :
    warnings (events ++ more) = warnings events ++ warnings more :=
  List.filter_append ..

/-- Tokens are no reason to warn. -/
theorem warnings_parse (raw : String) : warnings (RuleSet.parse raw).events = [] := by
  rw [warnings, List.filter_eq_nil_iff]
  intro e he
  obtain ⟨token, -, rfl⟩ := List.mem_map.mp he
  exact of_decide_eq_false rfl

/-- A field that is added takes a new place or is warned of. -/
theorem length_warnings_add (compiled : List CompiledField) (field : FieldDescriptor) :
    (warnings (add compiled field).events).length + (add compiled field).value.length =
      compiled.length + 1 := by
  rw [events_add, warnings_append, warnings_parse, value_add, length_replace,
    CompiledField.value_ofDescriptor]
  split_ifs with h
  · exact Nat.add_comm _ _
  · exact Nat.zero_add _

/-- Every field that is added has a place of its own in the end or is warned of. -/
theorem length_warnings_foldlM (fields : List FieldDescriptor) (compiled : List CompiledField) :
    (warnings (fields.foldlM add compiled).events).length +
      (fields.foldlM add compiled).value.length = compiled.length + fields.length := by
  induction fields generalizing compiled with
  | nil => simp [warnings]
  | cons field fields ih =>
    have hfield := length_warnings_add compiled field
    have hrest := ih (add compiled field).value
    rw [List.foldlM_cons, Traced.events_bind, Traced.value_bind, warnings_append,
      List.length_append, List.length_cons]
    omega

/-- There are as many compiled fields as names. -/
theorem length_fields_compile (fields : List FieldDescriptor) (email : EmailPattern) :
    (compile fields email).value.fields.length =
      (fields.map FieldDescriptor.name).dedup.length := by
  rw [← length_eq_length_dedup (nodup_names_compile fields email) (mem_names_compile fields email),
    names, List.length_map]

/-- How many fields fail on a record. -/
def failing (validator : Validator) (record : Record) : Nat :=
  validator.fields.countP fun field =>
    (field.check validator.email (record.get? field.name)).isSome

/-- With distinct names there is one error for each field that fails. -/
theorem size_errors {validator : Validator} (h : (names validator.fields).Nodup) (record : Record) :
    (validator.errors record).size = validator.failing record := by
  have hnames : (validator.fields.filterMap fun field =>
      (field.check validator.email (record.get? field.name)).map fun message =>
        (field.name, message)).Pairwise fun a b => a.1 ≠ b.1 := by
    refine List.pairwise_filterMap.mpr ((List.pairwise_map.mp h).imp ?_)
    intro f g hne a ha b hb
    obtain ⟨_, -, rfl⟩ := Option.map_eq_some_iff.mp ha
    obtain ⟨_, -, rfl⟩ := Option.map_eq_some_iff.mp hb
    exact hne
  rw [errors, FieldMap.size, (FieldMap.entries_ofList_perm hnames).length_eq,
    List.length_filterMap_eq_countP, failing]
  simp only [Option.isSome_map]

/-- Compiling accounts for every token and reports a name when it comes again, field by field, and
counts the names at last. There are as many warnings as fields that are not left. Checking a record
reports the fields and the failures, and so does every record that is checked after the form was
compiled once. -/
theorem events_account_for_fields (fields : List FieldDescriptor) (email : EmailPattern) :
    let compiled := compile fields email
    let validator := compiled.value
    let count := (fields.map FieldDescriptor.name).dedup.length
    (∃ reports, compiled.events = reports ++ [.compiled count email] ∧
      ∀ events, ReportedFor [] fields events ↔ events = reports) ∧
    validator.fields.length = count ∧
    (warnings compiled.events).length + validator.fields.length = fields.length ∧
    (∀ record, (validator.validate record).events =
      [.validated count (validator.failing record)]) ∧
    ∀ records : List Record,
      (compiled >>= fun validator => records.mapM validator.validate).events =
        compiled.events ++
          records.map fun record => .validated count (validator.failing record) := by
  intro compiled validator count
  have hlength : validator.fields.length = count := length_fields_compile fields email
  have hevents : compiled.events = (fields.foldlM add []).events ++ [.compiled count email] := by
    rw [← hlength]
    rfl
  have hrecord (record : Record) : (validator.validate record).events =
      [.validated count (validator.failing record)] := by
    rw [← size_errors (nodup_names_compile fields email), ← hlength]
    rfl
  refine ⟨⟨_, hevents, fun events => ?_⟩, hlength, ?_, hrecord, fun records => ?_⟩
  · have hnone : ∀ name, name ∈ names [] ↔ name ∈ [] := fun _ => Iff.rfl
    rw [reportedFor_iff hnone, eq_comm]
  · have hcompiled : warnings [.compiled count email] = [] := rfl
    rw [hevents, warnings_append, hcompiled, List.append_nil]
    exact (length_warnings_foldlM fields []).trans (Nat.zero_add _)
  · rw [Traced.events_bind, Traced.events_mapM, List.flatMap_congr fun record _ => hrecord record]
    exact congrArg _ (List.flatMap_pure_eq_map _ records)

/-- Of three fields with one name the later two are warned of, each behind its own tokens. -/
example :
    let field (rule : String) : FieldDescriptor := { name := "a", label := "A", rule := some rule }
    (compile [field "x|required", field "y|z", field ""] .html).events =
      [.unrecognizedRule "x", .unrecognizedRule "y", .unrecognizedRule "z", .duplicateField "a",
        .duplicateField "a", .compiled 1 .html] := by
  decide +kernel

end Validator
end FormCheck
