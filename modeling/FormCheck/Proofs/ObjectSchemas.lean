import FormCheck.Proofs.ObjectMembers
import FormCheck.Schema.Decode

/-!
# Schemas written as objects

A document in which a schema, its fields and its choices are objects stands for a schema exactly if
it has the intended shape, and what it stands for can be read off the values under the known names.
The texts that are read must stand for characters, and so must the names of all members of these
objects, also of those that are ignored.
-/
namespace FormCheck

open Json (valuesOf AllNamed ofNamed)

variable {α : Type}

/-! ## The shape of a document -/

namespace Json

/-- A text that stands for characters. -/
def IsText (value : Json) : Prop := ∃ s, value = text s

/-- There is one value, and it has a property. -/
def ExactlyOne (p : Json → Prop) (values : List Json) : Prop := ∃ value, values = [value] ∧ p value

/-- There is no value, or one that has a property. -/
def AtMostOne (p : Json → Prop) (values : List Json) : Prop := values = [] ∨ ExactlyOne p values

/-- An array of objects of some shape. -/
def IsArrayOf (shape : List (JsonText × Json) → Prop) (value : Json) : Prop :=
  ∃ items, value = array items ∧ ∀ item ∈ items, ∃ members, item = object members ∧ shape members

end Json

/-- The shape of the object of a choice. -/
structure SelectOption.Shape (members : List (JsonText × Json)) : Prop where
  named : AllNamed members
  value : Json.ExactlyOne Json.IsText (valuesOf ["value"] members)
  label : Json.ExactlyOne Json.IsText (valuesOf ["label"] members)

/-- The shape of the object of a field. -/
structure FieldDescriptor.Shape (members : List (JsonText × Json)) : Prop where
  named : AllNamed members
  name : Json.ExactlyOne Json.IsText (valuesOf ["name"] members)
  label : Json.ExactlyOne Json.IsText (valuesOf ["label"] members)
  kind : Json.AtMostOne Json.IsText (valuesOf ["type"] members)
  rule : Json.AtMostOne (fun value => value = .null ∨ value.IsText)
    (valuesOf ["validation", "rule"] members)
  options : Json.AtMostOne (Json.IsArrayOf SelectOption.Shape) (valuesOf ["options"] members)

/-- The shape of the object of a schema. -/
structure FormSchema.Shape (members : List (JsonText × Json)) : Prop where
  named : AllNamed members
  fields : Json.AtMostOne (Json.IsArrayOf FieldDescriptor.Shape) (valuesOf ["fields"] members)

/-! ## What a document stands for -/

/-- What the values under the name of a kind stand for. -/
inductive WrittenKind : List Json → FieldKind → Prop
  | missing : WrittenKind [] .text
  | listed {kind : FieldKind} (h : kind ∈ FieldKind.listed) : WrittenKind [.text kind.name] kind
  | unlisted {s : String} (h : ∀ kind ∈ FieldKind.listed, kind.name ≠ s) :
      WrittenKind [.text s] .other

/-- What the values under the names of a rule string stand for. -/
inductive WrittenRule : List Json → Option String → Prop
  | missing : WrittenRule [] none
  | null : WrittenRule [.null] none
  | stated (raw : String) : WrittenRule [.text raw] (some raw)

/-- What the values under the name of a list stand for, item by item. -/
inductive WrittenList (written : Json → α → Prop) : List Json → List α → Prop
  | missing : WrittenList written [] []
  | stated {items : List Json} {l : List α} (h : List.Forall₂ written items l) :
      WrittenList written [.array items] l

inductive SelectOption.Written : Json → SelectOption → Prop
  | object {members : List (JsonText × Json)} {option : SelectOption} (named : AllNamed members)
      (value : valuesOf ["value"] members = [.text option.value])
      (label : valuesOf ["label"] members = [.text option.label]) :
      Written (.object members) option

inductive FieldDescriptor.Written : Json → FieldDescriptor → Prop
  | object {members : List (JsonText × Json)} {field : FieldDescriptor} (named : AllNamed members)
      (name : valuesOf ["name"] members = [.text field.name])
      (label : valuesOf ["label"] members = [.text field.label])
      (kind : WrittenKind (valuesOf ["type"] members) field.kind)
      (rule : WrittenRule (valuesOf ["validation", "rule"] members) field.rule)
      (options : WrittenList SelectOption.Written (valuesOf ["options"] members) field.options) :
      Written (.object members) field

inductive FormSchema.Written : Json → FormSchema → Prop
  | object {members : List (JsonText × Json)} {schema : FormSchema} (named : AllNamed members)
      (fields : WrittenList FieldDescriptor.Written (valuesOf ["fields"] members) schema.fields) :
      Written (.object members) schema

/-! ## Written schemas are decoded -/

theorem writtenKind_text_iff {s : String} {kind : FieldKind} :
    WrittenKind [.text s] kind ↔ FieldKind.ofName s = kind := by
  constructor
  · intro h
    cases h with
    | listed _ => exact FieldKind.ofName_name kind
    | unlisted h =>
      have hnone : FieldKind.listed.find? (fun kind => kind.name = s) = none := by
        simpa using h
      rw [FieldKind.ofName, hnone, Option.getD_none]
  · rintro rfl
    rw [FieldKind.ofName]
    cases hfind : FieldKind.listed.find? fun kind => kind.name = s with
    | none => exact .unlisted (by simpa using hfind)
    | some kind =>
      obtain rfl : kind.name = s := by simpa using List.find?_some hfind
      exact .listed (List.mem_of_find?_eq_some hfind)

theorem writtenRule_singleton_iff {value : Json} {raw : Option String} :
    WrittenRule [value] raw ↔ Json.format.nullableText? value = some raw := by
  rw [Json.nullableText?_eq_some_iff]
  constructor
  · intro h
    cases h with
    | null => exact .inl ⟨rfl, rfl⟩
    | stated raw => exact .inr ⟨raw, rfl, rfl⟩
  · rintro (⟨rfl, rfl⟩ | ⟨s, rfl, rfl⟩)
    · exact .null
    · exact .stated s

/-- A field with a default, decoded as it is written. -/
theorem withDefault_eq_some_iff_written {written : List Json → α → Prop} {default : α}
    {decode : Json → Option α} {names : List String} {named : List (String × Json)} {a : α}
    (position : ℕ) (hmissing : ∀ a, written [] a ↔ default = a)
    (hvalue : ∀ value ∈ valuesOf names (ofNamed named), ∀ a,
      written [value] a ↔ decode value = some a)
    (hseveral : ∀ values a, written values a → values.length ≤ 1) :
    (Fields.named named).withDefault default decode names position = some a ↔
      written (valuesOf names (ofNamed named)) a := by
  rw [Json.withDefault_named_eq_some_iff]
  match hvalues : valuesOf names (ofNamed named) with
  | [] => simp [hmissing]
  | [value] => simp [hvalue value (by simp [hvalues])]
  | first :: second :: rest =>
    have hnot : ¬ written (first :: second :: rest) a := fun h => by
      simpa using hseveral _ _ h
    simp [hnot]

theorem writtenList_singleton_iff {written : Json → α → Prop} {decode : Json → Option α}
    {value : Json} {l : List α}
    (h : ∀ items, value = .array items →
      ∀ item ∈ items, ∀ a, written item a ↔ decode item = some a) :
    WrittenList written [value] l ↔ Json.format.list? decode value = some l := by
  rw [Json.list?_eq_some_iff]
  constructor
  · intro hwritten
    cases hwritten with
    | stated hitems =>
      refine ⟨_, rfl, ?_⟩
      have hboth := (List.forall₂_and_left _ _).mpr ⟨h _ rfl, hitems⟩
      exact hboth.imp fun item a hitem => (hitem.1 a).mp hitem.2
  · rintro ⟨items, rfl, hitems⟩
    have hboth := (List.forall₂_and_left _ _).mpr ⟨h _ rfl, hitems⟩
    exact .stated (hboth.imp fun item a hitem => (hitem.1 a).mpr hitem.2)

theorem length_le_of_writtenList {written : Json → α → Prop} (values : List Json) (l : List α)
    (h : WrittenList written values l) : values.length ≤ 1 := by
  cases h with
  | missing => exact Nat.zero_le 1
  | stated => exact Nat.le_refl 1

theorem withDefault_list_eq_some_iff {written : Json → α → Prop} {decode : Json → Option α}
    {names : List String} {named : List (String × Json)} {l : List α} (position : ℕ)
    (h : ∀ items, .array items ∈ valuesOf names (ofNamed named) →
      ∀ item ∈ items, ∀ a, written item a ↔ decode item = some a) :
    (Fields.named named).withDefault [] (Json.format.list? decode) names position = some l ↔
      WrittenList written (valuesOf names (ofNamed named)) l := by
  refine withDefault_eq_some_iff_written position (fun l => ?_) (fun value hvalue l => ?_)
    length_le_of_writtenList
  · constructor
    · rintro ⟨⟩
      rfl
    · rintro rfl
      exact .missing
  · refine writtenList_singleton_iff fun items hitems => h items ?_
    rwa [← hitems]

namespace SelectOption

theorem decode_object_eq_some_iff {members : List (JsonText × Json)} {option : SelectOption} :
    decode Json.format (.object members) = some option ↔ Written (.object members) option := by
  refine Json.bind_fields?_object_eq_some_iff.trans ?_
  simp only [Option.pure_def, Option.bind_eq_bind, Option.bind_eq_some_iff, Option.some_inj,
    Json.required_named_eq_some_iff, Json.text?_eq_some_iff]
  constructor
  · rintro ⟨named, rfl, value, ⟨_, hvalue, rfl⟩, label, ⟨_, hlabel, rfl⟩, rfl⟩
    exact .object (Json.allNamed_ofNamed named) hvalue hlabel
  · rintro ⟨hnamed, hvalue, hlabel⟩
    obtain ⟨named, rfl⟩ := Json.exists_ofNamed hnamed
    exact ⟨named, rfl, option.value, ⟨_, hvalue, rfl⟩, option.label, ⟨_, hlabel, rfl⟩, rfl⟩

end SelectOption

/-- The objects in which fields are written: choices are objects, and a kind is given by a text. -/
def FieldDescriptor.ObjectForm (field : Json) : Prop :=
  ∃ members, field = .object members ∧
    (∀ value ∈ valuesOf ["type"] members, ∃ s, value = .string s) ∧
    ∀ items, .array items ∈ valuesOf ["options"] members →
      ∀ option ∈ items, ∃ members, option = .object members

/-- The objects in which schemas are written: fields are objects of this kind. -/
def FormSchema.ObjectForm (j : Json) : Prop :=
  ∃ members, j = .object members ∧ ∀ items, .array items ∈ valuesOf ["fields"] members →
    ∀ field ∈ items, FieldDescriptor.ObjectForm field

namespace FieldDescriptor

theorem writtenKind_singleton_iff {value : Json} (h : ∃ s, value = .string s) {kind : FieldKind} :
    WrittenKind [value] kind ↔ FieldKind.decode Json.format value = some kind := by
  obtain ⟨s, rfl⟩ := h
  cases s with
  | none =>
    constructor
    · rintro ⟨⟩
    · rintro ⟨⟩
  | some s => exact writtenKind_text_iff.trans Option.some_inj.symm

section Defaults

variable {named : List (String × Json)} (position : ℕ)

theorem withDefault_kind_eq_some_iff {kind : FieldKind}
    (h : ∀ value ∈ valuesOf ["type"] (ofNamed named), ∃ s, value = .string s) :
    (Fields.named named).withDefault .text (FieldKind.decode Json.format) ["type"] position =
        some kind ↔
      WrittenKind (valuesOf ["type"] (ofNamed named)) kind := by
  refine withDefault_eq_some_iff_written position (fun kind => ?_)
    (fun value hvalue kind => writtenKind_singleton_iff (h value hvalue)) (fun values kind h => ?_)
  · constructor
    · rintro ⟨⟩
      rfl
    · rintro rfl
      exact .missing
  · cases h with
    | missing => exact Nat.zero_le 1
    | listed => exact Nat.le_refl 1
    | unlisted => exact Nat.le_refl 1

theorem withDefault_rule_eq_some_iff {raw : Option String} :
    (Fields.named named).withDefault none Json.format.nullableText? ["validation", "rule"]
        position = some raw ↔
      WrittenRule (valuesOf ["validation", "rule"] (ofNamed named)) raw := by
  refine withDefault_eq_some_iff_written position (fun raw => ?_)
    (fun value _ raw => writtenRule_singleton_iff) (fun values raw h => ?_)
  · constructor
    · rintro ⟨⟩
      rfl
    · rintro rfl
      exact .missing
  · cases h with
    | missing => exact Nat.zero_le 1
    | null => exact Nat.le_refl 1
    | stated => exact Nat.le_refl 1

end Defaults

theorem decode_eq_some_iff {j : Json} (h : ObjectForm j) {field : FieldDescriptor} :
    decode Json.format j = some field ↔ Written j field := by
  obtain ⟨members, rfl, htype, hoptions⟩ := h
  have hchoice : ∀ items, .array items ∈ valuesOf ["options"] members →
      ∀ item ∈ items, ∀ option, SelectOption.Written item option ↔
        SelectOption.decode Json.format item = some option := by
    intro items hitems item hitem option
    obtain ⟨members, rfl⟩ := hoptions items hitems item hitem
    exact SelectOption.decode_object_eq_some_iff.symm
  refine Json.bind_fields?_object_eq_some_iff.trans ?_
  simp only [Option.pure_def, Option.bind_eq_bind, Option.bind_eq_some_iff, Option.some_inj,
    Json.required_named_eq_some_iff, Json.text?_eq_some_iff, withDefault_rule_eq_some_iff]
  constructor
  · rintro ⟨named, rfl, name, ⟨_, hname, rfl⟩, label, ⟨_, hlabel, rfl⟩, kind, hkind, rule, hrule,
      options, hlist, rfl⟩
    exact .object (Json.allNamed_ofNamed named) hname hlabel
      ((withDefault_kind_eq_some_iff 2 htype).mp hkind) hrule
      ((withDefault_list_eq_some_iff 4 hchoice).mp hlist)
  · rintro ⟨hnamed, hname, hlabel, hkind, hrule, hlist⟩
    obtain ⟨named, rfl⟩ := Json.exists_ofNamed hnamed
    exact ⟨named, rfl, field.name, ⟨_, hname, rfl⟩, field.label, ⟨_, hlabel, rfl⟩, field.kind,
      (withDefault_kind_eq_some_iff 2 htype).mpr hkind, field.rule, hrule, field.options,
      (withDefault_list_eq_some_iff 4 hchoice).mpr hlist, rfl⟩

end FieldDescriptor

namespace FormSchema

theorem decode_eq_some_iff {j : Json} (h : ObjectForm j) {schema : FormSchema} :
    decode Json.format j = some schema ↔ Written j schema := by
  obtain ⟨members, rfl, hfields⟩ := h
  have hfield : ∀ items, .array items ∈ valuesOf ["fields"] members →
      ∀ item ∈ items, ∀ field, FieldDescriptor.Written item field ↔
        FieldDescriptor.decode Json.format item = some field :=
    fun items hitems item hitem field =>
      (FieldDescriptor.decode_eq_some_iff (hfields items hitems item hitem)).symm
  refine Json.bind_fields?_object_eq_some_iff.trans ?_
  simp only [Option.pure_def, Option.bind_eq_bind, Option.bind_eq_some_iff, Option.some_inj]
  constructor
  · rintro ⟨named, rfl, fields, hlist, rfl⟩
    exact .object (Json.allNamed_ofNamed named) ((withDefault_list_eq_some_iff 0 hfield).mp hlist)
  · rintro ⟨hnamed, hlist⟩
    obtain ⟨named, rfl⟩ := Json.exists_ofNamed hnamed
    exact ⟨named, rfl, schema.fields, (withDefault_list_eq_some_iff 0 hfield).mpr hlist, rfl⟩

end FormSchema

/-! ## What has the shape stands for something -/

theorem exists_writtenKind_iff {values : List Json} :
    (∃ kind, WrittenKind values kind) ↔ Json.AtMostOne Json.IsText values := by
  constructor
  · rintro ⟨kind, h⟩
    cases h with
    | missing => exact .inl rfl
    | listed => exact .inr ⟨_, rfl, _, rfl⟩
    | unlisted => exact .inr ⟨_, rfl, _, rfl⟩
  · rintro (rfl | ⟨_, rfl, s, rfl⟩)
    · exact ⟨.text, .missing⟩
    · exact ⟨.ofName s, writtenKind_text_iff.mpr rfl⟩

theorem exists_writtenRule_iff {values : List Json} :
    (∃ raw, WrittenRule values raw) ↔
      Json.AtMostOne (fun value => value = .null ∨ value.IsText) values := by
  constructor
  · rintro ⟨raw, h⟩
    cases h with
    | missing => exact .inl rfl
    | null => exact .inr ⟨_, rfl, .inl rfl⟩
    | stated raw => exact .inr ⟨_, rfl, .inr ⟨raw, rfl⟩⟩
  · rintro (rfl | ⟨_, rfl, rfl | ⟨raw, rfl⟩⟩)
    · exact ⟨none, .missing⟩
    · exact ⟨none, .null⟩
    · exact ⟨some raw, .stated raw⟩

theorem exists_writtenList_iff {written : Json → α → Prop}
    {shape : List (JsonText × Json) → Prop}
    (h : ∀ item, (∃ a, written item a) ↔ ∃ members, item = .object members ∧ shape members)
    {values : List Json} :
    (∃ l, WrittenList written values l) ↔ Json.AtMostOne (Json.IsArrayOf shape) values := by
  constructor
  · rintro ⟨l, hl⟩
    cases hl with
    | missing => exact .inl rfl
    | stated hitems =>
      refine .inr ⟨_, rfl, _, rfl, fun item hitem => ?_⟩
      exact (h item).mp (exists_forall₂_iff.mp ⟨l, hitems⟩ item hitem)
  · rintro (rfl | ⟨_, rfl, items, rfl, hitems⟩)
    · exact ⟨[], .missing⟩
    · obtain ⟨l, hl⟩ := exists_forall₂_iff.mpr fun item hitem => (h item).mpr (hitems item hitem)
      exact ⟨l, .stated hl⟩

theorem SelectOption.exists_written_iff {j : Json} :
    (∃ option, Written j option) ↔ ∃ members, j = .object members ∧ Shape members := by
  constructor
  · rintro ⟨option, hnamed, hvalue, hlabel⟩
    exact ⟨_, rfl, hnamed, ⟨_, hvalue, _, rfl⟩, ⟨_, hlabel, _, rfl⟩⟩
  · rintro ⟨members, rfl, hnamed, ⟨_, hvalue, value, rfl⟩, ⟨_, hlabel, label, rfl⟩⟩
    exact ⟨⟨value, label⟩, hnamed, hvalue, hlabel⟩

theorem FieldDescriptor.exists_written_iff {j : Json} :
    (∃ field, Written j field) ↔ ∃ members, j = .object members ∧ Shape members := by
  constructor
  · rintro ⟨field, hnamed, hname, hlabel, hkind, hrule, hoptions⟩
    exact ⟨_, rfl, hnamed, ⟨_, hname, _, rfl⟩, ⟨_, hlabel, _, rfl⟩,
      exists_writtenKind_iff.mp ⟨_, hkind⟩, exists_writtenRule_iff.mp ⟨_, hrule⟩,
      (exists_writtenList_iff fun _ => SelectOption.exists_written_iff).mp ⟨_, hoptions⟩⟩
  · rintro ⟨members, rfl, hnamed, ⟨_, hname, name, rfl⟩, ⟨_, hlabel, label, rfl⟩, hkind, hrule,
      hoptions⟩
    obtain ⟨kind, hkind⟩ := exists_writtenKind_iff.mpr hkind
    obtain ⟨rule, hrule⟩ := exists_writtenRule_iff.mpr hrule
    obtain ⟨options, hoptions⟩ :=
      (exists_writtenList_iff fun _ => SelectOption.exists_written_iff).mpr hoptions
    exact ⟨⟨name, label, kind, rule, options⟩, hnamed, hname, hlabel, hkind, hrule, hoptions⟩

theorem FormSchema.exists_written_iff {j : Json} :
    (∃ schema, Written j schema) ↔ ∃ members, j = .object members ∧ Shape members := by
  constructor
  · rintro ⟨schema, hnamed, hfields⟩
    exact ⟨_, rfl, hnamed,
      (exists_writtenList_iff fun _ => FieldDescriptor.exists_written_iff).mp ⟨_, hfields⟩⟩
  · rintro ⟨members, rfl, hnamed, hfields⟩
    obtain ⟨fields, hfields⟩ :=
      (exists_writtenList_iff fun _ => FieldDescriptor.exists_written_iff).mpr hfields
    exact ⟨⟨fields⟩, hnamed, hfields⟩

end FormCheck
