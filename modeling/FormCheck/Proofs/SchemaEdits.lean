import FormCheck.Proofs.JsonLayouts
import FormCheck.Proofs.ObjectSchemas
import Mathlib.Logic.Relation

/-!
# Edits of schemas

Members of the objects of a schema may change places, members of other names may come and go and
hold anything, and a rule string may go by either of its names. No such edit changes what a document
stands for, so texts that are edits of each other are read as the same schema.
-/
namespace FormCheck

open Json (valuesOf AllNamed Edit ItemEdit Kept)

variable {α : Type}

/-! ## What is written has the form of objects -/

theorem WrittenKind.exists_string {values : List Json} {kind : FieldKind}
    (h : WrittenKind values kind) : ∀ value ∈ values, ∃ s, value = .string s := by
  intro value hvalue
  cases h with
  | missing => cases hvalue
  | listed => exact ⟨_, List.mem_singleton.mp hvalue⟩
  | unlisted => exact ⟨_, List.mem_singleton.mp hvalue⟩

theorem WrittenList.exists_written {written : Json → α → Prop} {values : List Json} {l : List α}
    (h : WrittenList written values l) {items : List Json} (hitems : .array items ∈ values) :
    ∀ item ∈ items, ∃ a, written item a := by
  cases h with
  | missing => cases hitems
  | stated h =>
    obtain rfl := Json.array.inj (List.mem_singleton.mp hitems)
    exact exists_forall₂_iff.mp ⟨l, h⟩

theorem FieldDescriptor.Written.objectForm {j : Json} {field : FieldDescriptor}
    (h : Written j field) : ObjectForm j := by
  obtain ⟨-, -, -, hkind, -, hoptions⟩ := h
  refine ⟨_, rfl, hkind.exists_string, fun items hitems item hitem => ?_⟩
  obtain ⟨option, ⟨-, -, -⟩⟩ := hoptions.exists_written hitems item hitem
  exact ⟨_, rfl⟩

theorem FormSchema.Written.objectForm {j : Json} {schema : FormSchema} (h : Written j schema) :
    ObjectForm j := by
  obtain ⟨-, hfields⟩ := h
  refine ⟨_, rfl, fun items hitems item hitem => ?_⟩
  obtain ⟨field, hfield⟩ := hfields.exists_written hitems item hitem
  exact hfield.objectForm

/-! ## Edits keep what is written -/

section Kept

variable {edit : Json → Json → Prop} {values values' : List Json}

/-- Only lists are changed inside. -/
theorem eq_of_kept (h : Kept (ItemEdit edit) values values') (hlength : values.length ≤ 1)
    (harray : ∀ items, .array items ∉ values) : values' = values := by
  cases h with
  | same => rfl
  | change h =>
    cases h with
    | change => exact absurd (List.mem_singleton_self _) (harray _)
  | several h => omega

theorem kept_text {s : String} (h : Kept (ItemEdit edit) [.text s] values') :
    values' = [.text s] :=
  eq_of_kept h (Nat.le_refl 1) fun _ hmem => nomatch List.mem_singleton.mp hmem

theorem WrittenKind.of_kept {kind : FieldKind} (hkind : WrittenKind values kind)
    (h : Kept (ItemEdit edit) values values') : WrittenKind values' kind := by
  have harray : ∀ items, .array items ∉ values := by
    intro items hmem
    obtain ⟨s, hs⟩ := hkind.exists_string _ hmem
    cases hs
  have hlength : values.length ≤ 1 := by
    cases hkind <;> simp
  rwa [eq_of_kept h hlength harray]

theorem WrittenRule.of_kept {raw : Option String} (hrule : WrittenRule values raw)
    (h : Kept (ItemEdit edit) values values') : WrittenRule values' raw := by
  cases hrule with
  | missing =>
    rw [h.nil]
    exact .missing
  | null =>
    rw [eq_of_kept h (Nat.le_refl 1) fun _ hmem => nomatch List.mem_singleton.mp hmem]
    exact .null
  | stated raw =>
    rw [kept_text h]
    exact .stated raw

/-- One item gives way to another that stands for the same. -/
theorem forall₂_change {written : Json → α → Prop} {before after : List Json} {item item' : Json}
    {l : List α} (hitem : ∀ a, written item a → written item' a)
    (h : List.Forall₂ written (before ++ item :: after) l) :
    List.Forall₂ written (before ++ item' :: after) l := by
  induction before generalizing l with
  | nil =>
    cases h with
    | cons ha hafter => exact .cons (hitem _ ha) hafter
  | cons first before ih =>
    cases h with
    | cons ha hrest => exact .cons ha (ih hrest)

theorem WrittenList.of_kept {written : Json → α → Prop} {l : List α}
    (hedit : ∀ a b x, edit a b → written a x → written b x) (hlist : WrittenList written values l)
    (h : Kept (ItemEdit edit) values values') : WrittenList written values' l := by
  cases hlist with
  | missing =>
    rw [h.nil]
    exact .missing
  | stated hitems =>
    rcases h.singleton with rfl | ⟨value', rfl, hchange⟩
    · exact .stated hitems
    · cases hchange with
      | change hitem before after =>
        exact .stated (forall₂_change (fun a => hedit _ _ a hitem) hitems)

end Kept

/-- The edits of the object of a choice. -/
def SelectOption.Edit : Json → Json → Prop := Json.Edit [["value"], ["label"]] fun _ _ => False

/-- The edits of the object of a field. -/
def FieldDescriptor.Edit : Json → Json → Prop :=
  Json.Edit [["name"], ["label"], ["type"], ["validation", "rule"], ["options"]]
    (ItemEdit SelectOption.Edit)

/-- The edits of the object of a schema. -/
def FormSchema.Edit : Json → Json → Prop :=
  Json.Edit [["fields"]] (ItemEdit FieldDescriptor.Edit)

theorem SelectOption.Edit.written {a b : Json} (h : Edit a b) {option : SelectOption}
    (ha : Written a option) : Written b option := by
  obtain ⟨members, members', rfl, rfl, hnamed, hkept⟩ := h.kept
  have hsame {names : List String} {s : String} (hmem : names ∈ [["value"], ["label"]])
      (hs : valuesOf names members = [.text s]) : valuesOf names members' = [.text s] := by
    have hnames := hkept names hmem
    rw [hs] at hnames
    rcases hnames.singleton with hsame | ⟨_, _, hfalse⟩
    · exact hsame
    · exact hfalse.elim
  obtain ⟨hmembers, hvalue, hlabel⟩ := ha
  exact .object (hnamed hmembers) (hsame (by simp) hvalue) (hsame (by simp) hlabel)

theorem FieldDescriptor.Edit.written {a b : Json} (h : Edit a b) {field : FieldDescriptor}
    (ha : Written a field) : Written b field := by
  obtain ⟨members, members', rfl, rfl, hnamed, hkept⟩ := h.kept
  obtain ⟨hmembers, hname, hlabel, hkind, hrule, hoptions⟩ := ha
  refine .object (hnamed hmembers) ?_ ?_ (hkind.of_kept (hkept _ (by simp)))
    (hrule.of_kept (hkept _ (by simp)))
    (hoptions.of_kept (fun _ _ _ hedit => hedit.written) (hkept _ (by simp)))
  · exact kept_text (hname ▸ hkept ["name"] (by simp))
  · exact kept_text (hlabel ▸ hkept ["label"] (by simp))

theorem FormSchema.Edit.written {a b : Json} (h : Edit a b) {schema : FormSchema}
    (ha : Written a schema) : Written b schema := by
  obtain ⟨members, members', rfl, rfl, hnamed, hkept⟩ := h.kept
  obtain ⟨hmembers, hfields⟩ := ha
  exact .object (hnamed hmembers)
    (hfields.of_kept (fun _ _ _ hedit => hedit.written) (hkept _ (by simp)))

theorem FormSchema.written_of_edits {a b : Json} (h : Relation.ReflTransGen Edit a b)
    {schema : FormSchema} (ha : Written a schema) : Written b schema := by
  induction h with
  | refl => exact ha
  | tail _ hstep ih => exact hstep.written ih

/-! ## Texts of schemas -/

namespace FormSchema

theorem parseJson_eq_ok_iff {content : String} {j : Json} (hread : Json.parse? content = some j)
    (hform : ObjectForm j) {schema : FormSchema} :
    parseJson content = .ok schema ↔ Written j schema := by
  rw [← decode_eq_some_iff hform, parseJson, hread, Option.bind_some]
  cases decode Json.format j with
  | none => simp
  | some found => simp

/-- A text that holds a schema in objects is accepted exactly if it has the shape of a schema, and
stands for the schema that is written in it. Members of the objects may change places, those of
other names may come, go and hold anything, and a rule string may go by either name: what an edited
text stands for is the same. -/
theorem parse_object_schema {content : String} {j : Json} (hread : Json.parse? content = some j)
    (hform : ObjectForm j) :
    ((∃ schema, parseJson content = .ok schema) ↔ ∃ members, j = .object members ∧ Shape members) ∧
    (∀ schema, parseJson content = .ok schema ↔ Written j schema) ∧
    ∀ (content' : String) (j' : Json), Json.parse? content' = some j' →
      Relation.ReflTransGen Edit j j' →
        ∀ schema, parseJson content = .ok schema → parseJson content' = .ok schema := by
  have hwritten (schema : FormSchema) : parseJson content = .ok schema ↔ Written j schema :=
    parseJson_eq_ok_iff hread hform
  refine ⟨?_, hwritten, ?_⟩
  · rw [← exists_written_iff]
    exact exists_congr hwritten
  · intro content' j' hread' hedits schema hschema
    have hj' := written_of_edits hedits ((hwritten schema).mp hschema)
    exact (parseJson_eq_ok_iff hread' hj'.objectForm).mpr hj'

/-- The document of a schema with one field. -/
def oneField (members : List (String × Json)) : Json :=
  .record [("fields", .array [.record members])]

/-- The object of a field in another order, with one member more and the other name of the rule
string. -/
theorem parse_object_schema_oneField :
    let j := oneField [("name", .text "a"), ("label", .text "A"), ("rule", .text "min:3")]
    let j' := oneField [("note", .null), ("validation", .text "min:3"), ("label", .text "A"),
      ("name", .text "a")]
    let schema : FormSchema := ⟨[{ name := "a", label := "A", rule := some "min:3" }]⟩
    Json.parse? j.compactText = some j ∧ ObjectForm j ∧
    (∃ members, j = .object members ∧ Shape members) ∧ Written j schema ∧
    Json.parse? j'.compactText = some j' ∧ Relation.ReflTransGen Edit j j' ∧
    parseJson j.compactText = .ok schema ∧ parseJson j'.compactText = .ok schema := by
  intro j j' schema
  have hread (members : List (String × Json)) (h : ∀ m ∈ members, m.2.WellFormed) :
      Json.parse? (oneField members).compactText = some (oneField members) := by
    refine Json.parse?_compactText (Json.wellFormed_record fun m hm => ?_)
    obtain rfl := List.mem_singleton.mp hm
    refine .array fun item hitem => ?_
    obtain rfl := List.mem_singleton.mp hitem
    exact Json.wellFormed_record h
  have hj : Json.parse? j.compactText = some j := by
    refine hread _ fun m hm => ?_
    simp only [List.mem_cons, List.not_mem_nil, or_false] at hm
    rcases hm with rfl | rfl | rfl <;> exact Json.wellFormed_text _
  have hj' : Json.parse? j'.compactText = some j' := by
    refine hread _ fun m hm => ?_
    simp only [List.mem_cons, List.not_mem_nil, or_false] at hm
    rcases hm with rfl | rfl | rfl | rfl
    · exact .null
    all_goals exact Json.wellFormed_text _
  have hform : ObjectForm j := by
    refine ⟨_, rfl, fun items hitems field hfield => ?_⟩
    obtain rfl := Json.array.inj (List.mem_singleton.mp hitems)
    obtain rfl := List.mem_singleton.mp hfield
    refine ⟨_, rfl, fun value hvalue => ?_, fun items hitems => ?_⟩
    · exact absurd hvalue List.not_mem_nil
    · exact absurd hitems List.not_mem_nil
  have hedits : Relation.ReflTransGen Edit j j' := by
    have hfield {a b : Json} (h : FieldDescriptor.Edit a b) :
        Edit (.record [("fields", .array [a])]) (.record [("fields", .array [b])]) :=
      .change (.change h [] []) (some "fields") []
    refine .head (hfield (.reorder (List.reverse_perm _).symm)) ?_
    refine .head (hfield (@Edit.rename _ _ "rule" "validation" (by decide) _ _)) ?_
    exact .single (hfield (@Edit.add _ _ "note" (by decide) .null _))
  have hschema : parseJson j.compactText = .ok schema := by decide +kernel
  obtain ⟨hshape, hwritten, hedited⟩ := parse_object_schema hj hform
  exact ⟨hj, hform, hshape.mp ⟨schema, hschema⟩, (hwritten schema).mp hschema, hj', hedits, hschema,
    hedited _ _ hj' hedits schema hschema⟩

/-- A member may have a name that stands for no characters, and then nothing else of the object
counts. -/
theorem unpaired_name_is_refused :
    let j : Json := .object [(none, .null)]
    j.compactText = "\x7b\"\\ud800\":null\x7d" ∧ Json.parse? j.compactText = some j ∧
      ObjectForm j ∧ valuesOf ["fields"] [(none, .null)] = [] ∧
      ∀ schema, parseJson j.compactText ≠ .ok schema := by
  intro j
  have hread : Json.parse? j.compactText = some j :=
    Json.parse?_compactText (.object fun m hm => by rw [List.mem_singleton.mp hm]; exact .null)
  refine ⟨by decide +kernel, hread, ⟨_, rfl, fun items hitems => nomatch hitems⟩, rfl, ?_⟩
  intro schema h
  rw [parseJson, hread] at h
  cases h

end FormSchema
end FormCheck
