import FormCheck.Proofs.JsonLayouts
import FormCheck.Schema.Decode

/-!
# Schemas written as documents

The encoder leaves out a rule string that is absent and an empty list of choices, and names a kind
that is not on the list by a word of its own. The decoder supplies just these where they are
missing, so a schema is read back from its text as it was, with any names, labels and rule strings,
and with names that occur more than once. A text that was written by hand may use a shorter form; it
stands for the same schema as the text in which that schema is written again.
-/
namespace FormCheck

namespace Json

/-- A record shows its members under their names. -/
theorem fields?_record (count : Nat) (members : List (String × Json)) :
    format.fields? count (record members) = some (.named members) :=
  Format.fields?_of_view rfl count

/-- A list of encoded items is decoded item by item. -/
theorem list?_array_map {α : Type} {encode : α → Json} {decode : Json → Option α}
    (h : ∀ a, decode (encode a) = some a) (l : List α) :
    format.list? decode (array (l.map encode)) = some l := by
  have hitems := mapM_map_eq_some fun a (_ : a ∈ l) => h a
  rwa [List.map_id'] at hitems

@[simp] theorem text?_text (s : String) : format.text? (text s) = some s := rfl

@[simp] theorem nullableText?_text (s : String) :
    format.nullableText? (text s) = some (some s) := rfl

end Json

namespace SelectOption

theorem wellFormed_toJson (option : SelectOption) : option.toJson.WellFormed := by
  refine Json.wellFormed_record fun m hm => ?_
  simp only [List.mem_cons, List.not_mem_nil, or_false] at hm
  rcases hm with rfl | rfl
  · exact Json.wellFormed_text _
  · exact Json.wellFormed_text _

theorem decode_toJson (option : SelectOption) : decode Json.format option.toJson = some option := by
  rw [decode, toJson, Json.fields?_record]
  simp [Fields.required, Fields.get?]

end SelectOption

@[simp] theorem FieldKind.decode_text_name (kind : FieldKind) :
    decode Json.format (.text kind.name) = some kind := by
  simp [decode, Json.format, Json.choice?, Json.text]

namespace FieldDescriptor

theorem wellFormed_toJson (field : FieldDescriptor) : field.toJson.WellFormed := by
  refine Json.wellFormed_record fun m hm => ?_
  obtain ⟨name, label, kind, rule, options⟩ := field
  simp only [List.append_assoc, List.mem_append, List.mem_cons, List.not_mem_nil, or_false] at hm
  rcases hm with (rfl | rfl | rfl) | hm | hm
  · exact Json.wellFormed_text _
  · exact Json.wellFormed_text _
  · exact Json.wellFormed_text _
  · cases rule with
    | none => exact absurd hm List.not_mem_nil
    | some raw =>
      rw [List.mem_singleton.mp hm]
      exact Json.wellFormed_text raw
  · split at hm
    · exact absurd hm List.not_mem_nil
    · rw [List.mem_singleton.mp hm]
      exact Json.wellFormed_array_map SelectOption.wellFormed_toJson options

/-- What the encoder leaves out is what the decoder takes for granted. -/
theorem decode_toJson (field : FieldDescriptor) : decode Json.format field.toJson = some field := by
  have hoptions := Json.list?_array_map SelectOption.decode_toJson field.options
  rw [decode, toJson, Json.fields?_record]
  generalize Json.array (field.options.map SelectOption.toJson) = node at hoptions ⊢
  obtain ⟨name, label, kind, rule, options⟩ := field
  -- The rule string and the choices may each be left out.
  by_cases hempty : options = []
  · cases rule with
    | none => simp [Fields.required, Fields.withDefault, Fields.get?, hempty]
    | some raw => simp [Fields.required, Fields.withDefault, Fields.get?, hempty]
  · cases rule with
    | none => simp [Fields.required, Fields.withDefault, Fields.get?, hempty, hoptions]
    | some raw => simp [Fields.required, Fields.withDefault, Fields.get?, hempty, hoptions]

end FieldDescriptor

namespace FormSchema

theorem wellFormed_toJson (schema : FormSchema) : schema.toJson.WellFormed := by
  refine Json.wellFormed_record fun m hm => ?_
  rw [List.mem_singleton.mp hm]
  exact Json.wellFormed_array_map FieldDescriptor.wellFormed_toJson schema.fields

theorem decode_toJson (schema : FormSchema) : decode Json.format schema.toJson = some schema := by
  have hfields := Json.list?_array_map FieldDescriptor.decode_toJson schema.fields
  rw [decode, toJson, Json.fields?_record]
  generalize Json.array (schema.fields.map FieldDescriptor.toJson) = node at hfields ⊢
  simp [Fields.withDefault, Fields.get?, hfields]

/-- A schema is read back from its text. So every text that stands for a schema has a normal form,
which stands for the same schema and is its own normal form. -/
theorem schema_survives_text :
    (∀ schema : FormSchema, parseJson schema.toJson.compactText = .ok schema) ∧
    ∀ (content : String) (schema : FormSchema), parseJson content = .ok schema →
      let normal := schema.toJson.compactText
      ∃ again, parseJson normal = .ok again ∧ again = schema ∧
        again.toJson.compactText = normal := by
  have hback (schema : FormSchema) : parseJson schema.toJson.compactText = .ok schema := by
    rw [parseJson, Json.parse?_compactText schema.wellFormed_toJson, Option.bind_some,
      decode_toJson]
  refine ⟨hback, ?_⟩
  intro content schema _ normal
  exact ⟨schema, hback schema, rfl, rfl⟩

/-- A field given by position, then one with a second name for its rule string, a kind that is not
on the list and a member that means nothing. -/
def shorthand : String :=
  "\x7b\"fields\": [[\"\\u0001\", \"A\"],\n" ++
  "\x7b\"label\": \"B\", \"rule\": \"\", \"type\": \"x\", \"y\": [], \"name\": \"b\"\x7d]\x7d"

theorem schema_survives_text_shorthand :
    let schema : FormSchema := ⟨[
      { name := "\x01", label := "A" },
      { name := "b", label := "B", kind := .other, rule := some "" }]⟩
    parseJson shorthand = .ok schema ∧
    ∃ again, parseJson schema.toJson.compactText = .ok again ∧ again = schema ∧
      again.toJson.compactText = schema.toJson.compactText := by
  intro schema
  have hread : parseJson shorthand = .ok schema := by decide +kernel
  exact ⟨hread, schema_survives_text.2 shorthand schema hread⟩

end FormSchema
end FormCheck
