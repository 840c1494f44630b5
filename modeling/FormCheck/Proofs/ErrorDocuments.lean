import FormCheck.Proofs.FieldMaps
import FormCheck.Proofs.JsonLayouts
import FormCheck.ErrorMap
import FormCheck.Record

/-!
# Error maps written as documents

The document of an error map has a member for each field that failed, in order of the names. Read
as a record, in either layout, it gives each of these fields its message and nothing else, so that
different error maps have different texts.
-/
namespace FormCheck

namespace ErrorMap

theorem wellFormed_toJson (errors : ErrorMap) : errors.toJson.WellFormed := by
  refine Json.wellFormed_record fun m hm => ?_
  obtain ⟨e, -, rfl⟩ := List.mem_map.mp hm
  exact Json.wellFormed_text e.2

theorem toJson_eq_empty_iff (errors : ErrorMap) :
    errors.toJson = .object [] ↔ errors.entries = [] := by
  simp [toJson, Json.record]

/-- The document of an error map is a record of its messages. -/
theorem ofJson?_toJson (errors : ErrorMap) :
    Record.ofJson? errors.toJson = some (errors.map Value.string) := by
  have hmembers : ((errors.entries.map fun e => (e.1, Json.text e.2)).map fun m =>
      ((some m.1 : JsonText), m.2)).mapM Record.entryOfMember? =
        some (errors.map Value.string).entries := by
    rw [List.map_map]
    exact Json.mapM_map_eq_some fun e _ => rfl
  rw [toJson, Json.record, Record.ofJson?, hmembers, Option.map_some, FieldMap.ofList_entries]

theorem parse?_compactText (errors : ErrorMap) :
    Json.parse? errors.toJson.compactText = some errors.toJson :=
  Json.parse?_compactText errors.wellFormed_toJson

theorem parse?_prettyText (errors : ErrorMap) :
    Json.parse? errors.toJson.prettyText = some errors.toJson :=
  Json.parse?_prettyText errors.wellFormed_toJson

/-- A text of an error map is read as the record of its messages. -/
theorem parse_record_of_text {errors : ErrorMap} {text : String}
    (h : Json.parse? text = some errors.toJson) :
    Record.parse text = .ok (errors.map Value.string) := by
  rw [Record.parse, h, Option.bind_some, ofJson?_toJson]

/-- Error maps with the same document are equal. -/
theorem toJson_injective {a b : ErrorMap} (h : a.toJson = b.toJson) : a = b := by
  have hrecords : a.map Value.string = b.map Value.string :=
    Option.some.inj (by rw [← ofJson?_toJson, ← ofJson?_toJson, h])
  refine FieldMap.ext_get? fun name => ?_
  have hname := congrArg (fun record : Record => record.get? name) hrecords
  simp only [FieldMap.get?_map] at hname
  exact Option.map_injective (fun _ _ => Value.string.inj) hname

/-- Both texts of an error map are read as the record that gives each failed field its message and
nothing else. So a text belongs to one error map only. -/
theorem errors_survive_text :
    (∀ errors : ErrorMap, ∃ record : Record,
      Record.parse errors.toJson.compactText = .ok record ∧
      Record.parse errors.toJson.prettyText = .ok record ∧
      ∀ name, record.get? name = (errors.get? name).map Value.string) ∧
    ∀ (a b : ErrorMap) (text : String),
      text = a.toJson.compactText ∨ text = a.toJson.prettyText →
      text = b.toJson.compactText ∨ text = b.toJson.prettyText → a = b := by
  constructor
  · intro errors
    exact ⟨errors.map Value.string, parse_record_of_text errors.parse?_compactText,
      parse_record_of_text errors.parse?_prettyText, FieldMap.get?_map Value.string errors⟩
  · intro a b text ha hb
    have hread : ∀ errors : ErrorMap,
        text = errors.toJson.compactText ∨ text = errors.toJson.prettyText →
        Json.parse? text = some errors.toJson := by
      rintro errors (rfl | rfl)
      · exact errors.parse?_compactText
      · exact errors.parse?_prettyText
    exact toJson_injective (Option.some.inj ((hread a ha).symm.trans (hread b hb)))

/-- Names and messages with characters that are escaped, and some that are not. -/
def unusual : List (String × String) :=
  [("a\"b", "back\\slash"), ("", "bell\x07 and tab\t"), ("é", "😀/\u2028")]

/-- The order in which errors are gathered is lost in their text. -/
theorem errors_survive_text_unusual :
    let forwards : ErrorMap := .ofList unusual
    let backwards : ErrorMap := .ofList unusual.reverse
    forwards.toJson.compactText = backwards.toJson.compactText ∧ forwards = backwards := by
  intro forwards backwards
  have htext : forwards.toJson.compactText = backwards.toJson.compactText := by decide +kernel
  exact ⟨htext, errors_survive_text.2 forwards backwards _ (.inl rfl) (.inl htext)⟩

/-- Quotes, backslashes and control characters are escaped and all else is not. -/
example : (ErrorMap.toJson (.ofList unusual)).compactText =
    "\x7b\"\":\"bell\\u0007 and tab\\t\",\"a\\\"b\":\"back\\\\slash\",\"é\":\"😀/\u2028\"\x7d" := by
  decide +kernel

end ErrorMap
end FormCheck
