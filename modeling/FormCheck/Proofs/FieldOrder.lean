import FormCheck.Proofs.ErrorDocuments
import FormCheck.Proofs.Validation

/-!
# The order of fields

Compiling a form depends on the order of its fields, since a field takes the place of an earlier one
of its name. The result of checking a record does not: only the order among fields of one name has
a part in it. Nor does the order show in which errors are gathered, as a map keeps them in order of
the names.
-/
namespace FormCheck

/-- The same fields in another order, in which fields of one name follow each other as before. -/
structure IsRearrangement (fields other : List FieldDescriptor) : Prop where
  perm : fields.Perm other
  sameName : ∀ name, (fields.filter fun field => field.name = name) =
    other.filter fun field => field.name = name

namespace IsRearrangement

variable {fields other : List FieldDescriptor}

/-- The last field of a name is the same. -/
theorem field?_eq (h : IsRearrangement fields other) (name : String) :
    FormSchema.field? ⟨fields⟩ name = FormSchema.field? ⟨other⟩ name := by
  rw [FormSchema.field?, FormSchema.field?, ← List.head?_filter, ← List.head?_filter,
    List.filter_reverse, List.filter_reverse, h.sameName]

theorem errors_eq (h : IsRearrangement fields other) (pattern : EmailPattern) (record : Record) :
    (Validator.compile fields pattern).value.errors record =
      (Validator.compile other pattern).value.errors record := by
  refine FieldMap.ext_get? fun name => ?_
  rw [Validator.get?_errors (Validator.nodup_names_compile fields pattern),
    Validator.get?_errors (Validator.nodup_names_compile other pattern),
    Validator.validateField_compile, Validator.validateField_compile, h.field?_eq]

/-- The same names are compiled, be it in another order. -/
theorem names_perm (h : IsRearrangement fields other) (pattern : EmailPattern) :
    (Validator.names (Validator.compile fields pattern).value.fields).Perm
      (Validator.names (Validator.compile other pattern).value.fields) := by
  rw [List.perm_ext_iff_of_nodup (Validator.nodup_names_compile fields pattern)
    (Validator.nodup_names_compile other pattern)]
  intro name
  rw [Validator.mem_names_compile, Validator.mem_names_compile]
  exact (h.perm.map FieldDescriptor.name).mem_iff

/-- The same number of fields is compiled, and the same errors are found in every record. -/
theorem validate_eq (h : IsRearrangement fields other) (pattern : EmailPattern) (record : Record) :
    (Validator.compile fields pattern).value.validate record =
      (Validator.compile other pattern).value.validate record := by
  have hlength := (h.names_perm pattern).length_eq
  rw [Validator.names, Validator.names, List.length_map, List.length_map] at hlength
  simp only [Validator.validate, h.errors_eq pattern record, hlength]

end IsRearrangement

namespace Validator

/-- The result of checking a record does not depend on the order of the fields, except that of
fields with one name. Neither does its text, whose members are in order of the names. -/
theorem validate_rearrangement {fields other : List FieldDescriptor}
    (h : IsRearrangement fields other) (pattern : EmailPattern) (record : Record) :
    let result := (compile fields pattern).value.validate record
    let rearranged := (compile other pattern).value.validate record
    rearranged = result ∧
    rearranged.value.toJson.compactText = result.value.toJson.compactText ∧
    rearranged.value.toJson.prettyText = result.value.toJson.prettyText ∧
    ∃ members : List (String × String), (members.map Prod.fst).Pairwise (· < ·) ∧
      let document := Json.record (members.map fun m => (m.1, .text m.2))
      Json.parse? result.value.toJson.compactText = some document ∧
      Json.parse? result.value.toJson.prettyText = some document := by
  intro result rearranged
  have heq : rearranged = result := (h.validate_eq pattern record).symm
  refine ⟨heq, by rw [heq], by rw [heq], result.value.entries, ?_, ?_, ?_⟩
  · exact List.pairwise_map.mpr result.value.ascending
  · exact result.value.parse?_compactText
  · exact result.value.parse?_prettyText

/-- The fields of `nameTwice` with the other name in front. -/
def nameTwiceMoved : List FieldDescriptor := [
  { name := "b", label := "B", rule := some "email" },
  { name := "a", label := "First", rule := some "required" },
  { name := "a", label := "Second", rule := some "min:5|required" }]

theorem validate_rearrangement_nameTwice :
    IsRearrangement nameTwice nameTwiceMoved ∧
    names (compile nameTwice .simple).value.fields ≠
      names (compile nameTwiceMoved .simple).value.fields ∧
    (compile nameTwiceMoved .simple).value.validate answered =
      (compile nameTwice .simple).value.validate answered := by
  have h : IsRearrangement nameTwice nameTwiceMoved := by
    refine ⟨.swap _ _ _, ?_⟩
    intro name
    by_cases ha : "a" = name
    · subst ha
      decide
    · simp [nameTwice, nameTwiceMoved, List.filter_cons, ha]
  exact ⟨h, by decide +kernel, (validate_rearrangement h .simple answered).1⟩

end Validator
end FormCheck
