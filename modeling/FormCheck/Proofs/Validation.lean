import FormCheck.Proofs.Compilation
import FormCheck.Proofs.Evaluation

/-!
# Validating records

Checking a whole record gathers the failures of the compiled fields in a map, checking a single
field looks its name up, and a caller without a form has only a label and a rule string. All three
give the message of the first rule of the last field of a name that rejects the value. Nothing of a
record but the texts under the names of the form has a part in that.
-/
namespace FormCheck

namespace Record

/-- The text under a name; a name that the record lacks has the empty text. -/
def textAt (record : Record) (name : String) : String := submittedText (record.get? name)

@[simp] theorem textAt_insert_self (record : Record) (name : String) (value : Value) :
    textAt (record.insert name value) name = value.text := by
  rw [textAt, FieldMap.get?_insert_self, submittedText_some]

theorem textAt_insert_of_ne (record : Record) {name other : String} (value : Value)
    (h : other ≠ name) : textAt (record.insert name value) other = textAt record other := by
  rw [textAt, FieldMap.get?_insert_of_ne record value h, textAt]

@[simp] theorem textAt_erase_self (record : Record) (name : String) :
    textAt (record.erase name) name = "" := by
  rw [textAt, FieldMap.get?_erase_self, submittedText_none]

theorem textAt_erase_of_ne (record : Record) {name other : String} (h : other ≠ name) :
    textAt (record.erase name) other = textAt record other := by
  rw [textAt, FieldMap.get?_erase_of_ne record h, textAt]

end Record

namespace Validator

/-- With distinct names the failure gathered under a name is that of the field found under it. -/
theorem find?_failures {l : List CompiledField} (hl : (names l).Nodup)
    (failure : CompiledField → Option String) (name : String) :
    ((l.filterMap fun field => (failure field).map fun message =>
        (field.name, message)).reverse.find? fun e => e.1 = name).map Prod.snd =
      (l.find? fun field => field.name = name).bind failure := by
  induction l with
  | nil => rfl
  | cons field rest ih =>
    rw [names_cons, List.nodup_cons] at hl
    have hrest := ih hl.2
    by_cases h : field.name = name
    · -- The name is not in the rest, so all that is found under it is the head's.
      have hfind := find?_eq_none_of_notMem (h ▸ hl.1)
      rw [hfind, Option.bind_none, Option.map_eq_none_iff] at hrest
      cases hm : failure field with
      | none => simp [hm, h, hrest]
      | some message => simp [hm, h, hrest]
    · rw [List.find?_cons_of_neg (by simpa using h), ← hrest]
      cases hm : failure field with
      | none => simp [hm]
      | some message => simp [hm, h]

/-- With distinct names the whole record and the single field give the same message. -/
theorem get?_errors {validator : Validator} (h : (names validator.fields).Nodup) (record : Record)
    (name : String) :
    (validator.errors record).get? name = validator.validateField name (record.get? name) := by
  rw [errors, FieldMap.get?_ofList, find?_failures h, validateField, field?]
  cases hf : validator.fields.find? fun field => field.name = name with
  | none => rfl
  | some field =>
    have hname : field.name = name := by simpa using List.find?_some hf
    rw [Option.bind_some, Option.bind_some, hname]

/-- A field of a compiled form is judged by the last field of the form with its name. -/
theorem validateField_compile (fields : List FieldDescriptor) (pattern : EmailPattern)
    (name : String) (value : Option Value) :
    (compile fields pattern).value.validateField name value =
      (FormSchema.field? ⟨fields⟩ name).bind fun field =>
        ((RuleSet.parse (field.rule.getD "")).value.firstFailure pattern value).map
          (Rule.message field.label) := by
  have hemail : (compile fields pattern).value.email = pattern := by rw [value_compile]
  rw [validateField, field?_compile, hemail, Option.bind_map]
  simp only [Function.comp_def, CompiledField.check, FieldDescriptor.rules_eq_parse]

/-- The whole record, the single field and the bare rule string agree. A name that no field has
gives no message. Otherwise the last field of the name decides: the message is that of the first
of its rules that rejects the value, with its label, and there is none if all accept it. -/
theorem validate_message_of_last_field (fields : List FieldDescriptor) (pattern : EmailPattern)
    (record : Record) (name : String) :
    let validator := (compile fields pattern).value
    let value := record.get? name
    let message := validator.validateField name value
    (validator.validate record).value.get? name = message ∧
    ((∀ field ∈ fields, field.name ≠ name) → message = none) ∧
    ∀ field, IsLast fields field → field.name = name →
      (∃ failure, FirstRejecting pattern (RuleSet.parse (field.rule.getD "")).value.rules value
          failure ∧ message = failure.map (Rule.message field.label)) ∧
      (pattern = .simple →
        (checkField field.label (field.rule.getD "") value).value = message) := by
  intro validator value message
  have hmessage : message = _ := validateField_compile fields pattern name value
  refine ⟨get?_errors (nodup_names_compile fields pattern) record name, ?_, ?_⟩
  · intro hunknown
    rw [hmessage, (FormSchema.field?_eq_none_iff ⟨fields⟩ name).mpr hunknown, Option.bind_none]
  · intro field hlast hname
    have hfield : FormSchema.field? ⟨fields⟩ name = some field :=
      (FormSchema.field?_eq_some_iff _ _ _).mpr ⟨hname, hlast⟩
    rw [hfield, Option.bind_some] at hmessage
    constructor
    · exact ⟨_, (RuleSet.firstFailure_eq_iff _ _ _ _).mp rfl, hmessage⟩
    · rintro rfl
      rw [hmessage, value_checkField]

/-- A number that is too short for the last field of its name. -/
def answered : Record := .ofList [("a", .number (.ofInt 42)), ("b", .null)]

theorem validate_message_nameTwice :
    let validator := (compile nameTwice .simple).value
    let second : FieldDescriptor :=
      { name := "a", label := "Second", rule := some "min:5|required" }
    (IsLast nameTwice second ∧ second.name = "a" ∧ ∀ field ∈ nameTwice, field.name ≠ "c") ∧
    (validator.validate answered).value.get? "a" =
      validator.validateField "a" (answered.get? "a") ∧
    validator.validateField "c" (answered.get? "c") = none ∧
    (∃ failure, FirstRejecting .simple (RuleSet.parse "min:5|required").value.rules
        (answered.get? "a") failure ∧
      validator.validateField "a" (answered.get? "a") = failure.map (Rule.message "Second")) ∧
    (checkField "Second" "min:5|required" (answered.get? "a")).value =
      validator.validateField "a" (answered.get? "a") := by
  intro validator second
  have hlast : IsLast nameTwice second := ⟨nameTwice.take 2, [], rfl, by simp⟩
  have hunknown : ∀ field ∈ nameTwice, field.name ≠ "c" := by decide
  obtain ⟨hwhole, -, hknown⟩ := validate_message_of_last_field nameTwice .simple answered "a"
  obtain ⟨hfirst, hbare⟩ := hknown second hlast rfl
  obtain ⟨-, hnone, -⟩ := validate_message_of_last_field nameTwice .simple answered "c"
  exact ⟨⟨hlast, rfl, hunknown⟩, hwhole, hnone hunknown, hfirst, hbare rfl⟩

/-- The rule that comes first in the rule string decides, though the number has content. -/
example : ((compile nameTwice .simple).value.validate answered).value.get? "a" =
    some "Second must be at least 5 characters" := by
  decide +kernel

/-- Two records have the same text under every name of the validator. -/
def SameTexts (validator : Validator) (r s : Record) : Prop :=
  ∀ name ∈ names validator.fields, r.textAt name = s.textAt name

/-- Two records are told apart neither as a whole nor under a single name. -/
def SameOutcome (validator : Validator) (r s : Record) : Prop :=
  validator.validate r = validator.validate s ∧
  ∀ name, validator.validateField name (r.get? name) = validator.validateField name (s.get? name)

theorem check_congr (pattern : EmailPattern) (field : CompiledField) {v w : Option Value}
    (h : submittedText v = submittedText w) : field.check pattern v = field.check pattern w := by
  rw [CompiledField.check, CompiledField.check, RuleSet.firstFailure_congr _ _ h]

theorem validateField_congr (validator : Validator) (name : String) {v w : Option Value}
    (h : submittedText v = submittedText w) :
    validator.validateField name v = validator.validateField name w := by
  simp only [validateField, check_congr _ _ h]

theorem errors_congr {validator : Validator} {r s : Record} (h : validator.SameTexts r s) :
    validator.errors r = validator.errors s := by
  rw [errors, errors]
  congr 1
  refine List.filterMap_congr ?_
  intro field hfield
  rw [check_congr validator.email field (h field.name (name_mem_names hfield))]

theorem SameTexts.sameOutcome {validator : Validator} {r s : Record}
    (h : validator.SameTexts r s) : validator.SameOutcome r s := by
  constructor
  · simp only [validate, errors_congr h]
  · intro name
    by_cases hname : name ∈ names validator.fields
    · exact validateField_congr validator name (h name hname)
    · -- A name that the validator lacks gives no message for any value.
      have hfind : validator.field? name = none := find?_eq_none_of_notMem hname
      rw [validateField, validateField, hfind, Option.bind_none, Option.bind_none]

/-- A value may be put under a name that has the same text already or that the validator lacks. -/
theorem sameOutcome_insert (validator : Validator) {record : Record} {name : String} {value : Value}
    (h : name ∈ names validator.fields → record.textAt name = value.text) :
    validator.SameOutcome (record.insert name value) record := by
  apply SameTexts.sameOutcome
  intro other hother
  by_cases heq : other = name
  · subst heq
    rw [Record.textAt_insert_self, h hother]
  · exact Record.textAt_insert_of_ne record value heq

theorem sameOutcome_erase (validator : Validator) {record : Record} {name : String}
    (h : name ∈ names validator.fields → record.textAt name = "") :
    validator.SameOutcome (record.erase name) record := by
  apply SameTexts.sameOutcome
  intro other hother
  by_cases heq : other = name
  · subst heq
    rw [Record.textAt_erase_self, h hother]
  · exact Record.textAt_erase_of_ne record heq

/-- Only the texts under the names of the form count. So a record may lose or gain a null, have
the empty text in place of a null or of nothing, have the text of a value in place of the value,
and hold anything under names that the form lacks. -/
theorem outcome_depends_on_texts (fields : List FieldDescriptor) (pattern : EmailPattern) :
    let validator := (compile fields pattern).value
    (∀ r s, validator.SameTexts r s → validator.SameOutcome r s) ∧
    (∀ name v w, submittedText v = submittedText w →
      validator.validateField name v = validator.validateField name w) ∧
    ∀ (record : Record) (name : String),
      (record.get? name = some .null → validator.SameOutcome (record.erase name) record) ∧
      (record.get? name = none → validator.SameOutcome (record.insert name .null) record) ∧
      (record.get? name = some .null ∨ record.get? name = none →
        validator.SameOutcome (record.insert name (.string "")) record) ∧
      (∀ value, record.get? name = some value →
        validator.SameOutcome (record.insert name (.string value.text)) record) ∧
      (name ∉ names validator.fields →
        validator.SameOutcome (record.erase name) record ∧
        ∀ value, validator.SameOutcome (record.insert name value) record) := by
  intro validator
  refine ⟨fun r s h => h.sameOutcome, fun name v w h => validateField_congr validator name h, ?_⟩
  intro record name
  refine ⟨?_, ?_, ?_, ?_, ?_⟩
  · intro hnull
    apply sameOutcome_erase
    intro _
    rw [Record.textAt, hnull, submittedText_some, Value.text_null]
  · intro hnone
    apply sameOutcome_insert
    intro _
    rw [Record.textAt, hnone, submittedText_none, Value.text_null]
  · intro hempty
    apply sameOutcome_insert
    intro _
    rcases hempty with hnull | hnone
    · rw [Record.textAt, hnull, submittedText_some, Value.text_null, Value.text_string]
    · rw [Record.textAt, hnone, submittedText_none, Value.text_string]
  · intro value hvalue
    apply sameOutcome_insert
    intro _
    rw [Record.textAt, hvalue, submittedText_some, Value.text_string]
  · intro hunknown
    constructor
    · exact sameOutcome_erase validator fun hname => absurd hname hunknown
    · intro value
      exact sameOutcome_insert validator fun hname => absurd hname hunknown

/-- The texts of `answered` with other values, and one more name. -/
def retyped : Record := .ofList [("a", .string "42"), ("c", .bool true)]

theorem outcome_depends_on_texts_nameTwice :
    let validator := (compile nameTwice .html).value
    (validator.SameTexts answered retyped ∧ validator.SameOutcome answered retyped) ∧
    (submittedText (some (.bool true)) = submittedText (some (.string "true")) ∧
      validator.validateField "a" (some (.bool true)) =
        validator.validateField "a" (some (.string "true"))) ∧
    (answered.get? "b" = some .null ∧ validator.SameOutcome (answered.erase "b") answered ∧
      validator.SameOutcome (answered.insert "b" (.string "")) answered) ∧
    (retyped.get? "b" = none ∧ validator.SameOutcome (retyped.insert "b" .null) retyped) ∧
    (answered.get? "a" = some (.number (.ofInt 42)) ∧
      validator.SameOutcome (answered.insert "a" (.string (Value.number (.ofInt 42)).text))
        answered) ∧
    ("c" ∉ names validator.fields ∧ validator.SameOutcome (retyped.erase "c") retyped ∧
      validator.SameOutcome (retyped.insert "c" .null) retyped) := by
  intro validator
  obtain ⟨hrecords, hvalues, hedits⟩ := outcome_depends_on_texts nameTwice .html
  have htexts : validator.SameTexts answered retyped := by
    unfold SameTexts
    decide +kernel
  have hnull : answered.get? "b" = some .null := by decide +kernel
  have hnone : retyped.get? "b" = none := by decide +kernel
  have hnumber : answered.get? "a" = some (.number (.ofInt 42)) := by decide +kernel
  have hunknown : "c" ∉ names validator.fields := by decide +kernel
  obtain ⟨hdrop, -, hempty, -⟩ := hedits answered "b"
  obtain ⟨-, hadd, -⟩ := hedits retyped "b"
  obtain ⟨-, -, -, hretype, -⟩ := hedits answered "a"
  obtain ⟨-, -, -, -, hother⟩ := hedits retyped "c"
  exact ⟨⟨htexts, hrecords _ _ htexts⟩, ⟨rfl, hvalues _ _ _ rfl⟩,
    ⟨hnull, hdrop hnull, hempty (.inl hnull)⟩, ⟨hnone, hadd hnone⟩,
    ⟨hnumber, hretype _ hnumber⟩, hunknown, (hother hunknown).1, (hother hunknown).2 .null⟩

end Validator
end FormCheck
