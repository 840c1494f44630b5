import FormCheck.Json.Format
import Mathlib.Data.List.Forall2

/-!
# Objects and their members

What a decoder takes from an object are the values under the names of its fields. A field may have
several names, and what counts is whether no value, one value or more than one stands under them.
So the order of members has no part in what is decoded, nor have members of other names, nor which
of the names of a field is used. Changes of this kind are edits.
-/
namespace FormCheck

/-- A list is decoded item by item. -/
theorem mapM_eq_some_iff_forall₂ {α β : Type} {f : α → Option β} {l : List α} {l' : List β} :
    l.mapM f = some l' ↔ List.Forall₂ (fun a b => f a = some b) l l' := by
  induction l generalizing l' with
  | nil => simp [eq_comm]
  | cons a l ih =>
    rw [List.mapM_cons, List.forall₂_cons_left_iff]
    simp only [Option.bind_eq_bind, Option.bind_eq_some_iff, Option.pure_def, Option.some_inj, ih]
    constructor
    · rintro ⟨b, hb, rest, hrest, rfl⟩
      exact ⟨b, rest, hb, hrest, rfl⟩
    · rintro ⟨b, rest, hb, hrest, rfl⟩
      exact ⟨b, hb, rest, hrest, rfl⟩

/-- A relation holds between a list and some other, item by item, if it holds for every item. -/
theorem exists_forall₂_iff {α β : Type} {r : α → β → Prop} {l : List α} :
    (∃ l', List.Forall₂ r l l') ↔ ∀ a ∈ l, ∃ b, r a b := by
  induction l with
  | nil => simp
  | cons a l ih =>
    rw [List.forall_mem_cons, ← ih]
    constructor
    · rintro ⟨_, h⟩
      cases h with
      | cons ha hl => exact ⟨⟨_, ha⟩, _, hl⟩
    · rintro ⟨⟨b, ha⟩, l', hl⟩
      exact ⟨b :: l', .cons ha hl⟩

/-- What is found in a list that may hold one value. -/
def soleValue {α : Type} : List α → Option (Option α)
  | [] => some none
  | [a] => some (some a)
  | _ => none

namespace Json

variable {β : Type} {names : List String} {members : List (JsonText × Json)}

/-- The values of the members that have one of the names, in order. -/
def valuesOf (names : List String) (members : List (JsonText × Json)) : List Json :=
  (members.filter fun m => m.1.any names.contains).map Prod.snd

/-- Whether the names of all members stand for characters. -/
def AllNamed (members : List (JsonText × Json)) : Prop := ∀ m ∈ members, m.1 ≠ none

/-- Members whose names stand for characters. -/
def ofNamed (named : List (String × Json)) : List (JsonText × Json) :=
  named.map fun m => (some m.1, m.2)

theorem allNamed_ofNamed (named : List (String × Json)) : AllNamed (ofNamed named) := by
  intro m hm
  obtain ⟨m, -, rfl⟩ := List.mem_map.mp hm
  exact Option.some_ne_none m.1

theorem exists_ofNamed (h : AllNamed members) : ∃ named, members = ofNamed named := by
  induction members with
  | nil => exact ⟨[], rfl⟩
  | cons m rest ih =>
    obtain ⟨name, value⟩ := m
    rw [AllNamed, List.forall_mem_cons] at h
    obtain ⟨name, rfl⟩ := Option.ne_none_iff_exists'.mp h.1
    obtain ⟨named, rfl⟩ := ih h.2
    exact ⟨(name, value) :: named, rfl⟩

theorem mapM_named?_eq_some_iff {named : List (String × Json)} :
    members.mapM Format.named? = some named ↔ members = ofNamed named := by
  rw [mapM_eq_some_iff_forall₂, ofNamed, ← List.forall₂_eq_eq_eq, List.forall₂_map_right_iff]
  refine Iff.of_eq (congrArg (List.Forall₂ · members named) ?_)
  funext m e
  obtain ⟨name, value⟩ := m
  cases name with
  | none => simp [Format.named?]
  | some name => simp [Format.named?, Prod.ext_iff]

/-- An object is read as a structure if its names stand for characters. -/
theorem bind_fields?_object_eq_some_iff {count : ℕ} {decode : Fields Json → Option β} {b : β} :
    (format.fields? count (object members)).bind decode = some b ↔
      ∃ named, members = ofNamed named ∧ decode (.named named) = some b := by
  have hfields : format.fields? count (object members) =
      (members.mapM Format.named?).map .named := rfl
  rw [hfields, Option.bind_map, Option.bind_eq_some_iff]
  simp only [mapM_named?_eq_some_iff, Function.comp_apply]

/-- The value of a field is the only one under its names. -/
theorem get?_named (named : List (String × Json)) (names : List String) (position : ℕ) :
    (Fields.named named).get? names position = soleValue (valuesOf names (ofNamed named)) := by
  have hvalues : valuesOf names (ofNamed named) =
      (named.filter fun m => names.contains m.1).map Prod.snd := by
    rw [valuesOf, ofNamed, List.filter_map, List.map_map]
    rfl
  rw [hvalues, Fields.get?]
  generalize named.filter (fun m => names.contains m.1) = found
  match found with
  | [] => rfl
  | [m] => rfl
  | _ :: _ :: _ => rfl

section Fields

variable {named : List (String × Json)} {decode : Json → Option β} {position : ℕ} {b : β}

/-- A field that has to be there has one value. -/
theorem required_named_eq_some_iff :
    (Fields.named named).required decode names position = some b ↔
      ∃ value, valuesOf names (ofNamed named) = [value] ∧ decode value = some b := by
  rw [Fields.required, get?_named]
  match valuesOf names (ofNamed named) with
  | [] => simp [soleValue]
  | [value] => simp [soleValue]
  | _ :: _ :: _ => simp [soleValue]

/-- A field that may be left out has one value or none. -/
theorem withDefault_named_eq_some_iff {default : β} :
    (Fields.named named).withDefault default decode names position = some b ↔
      (valuesOf names (ofNamed named) = [] ∧ default = b) ∨
        ∃ value, valuesOf names (ofNamed named) = [value] ∧ decode value = some b := by
  rw [Fields.withDefault, get?_named]
  match valuesOf names (ofNamed named) with
  | [] => simp [soleValue]
  | [value] => simp [soleValue]
  | _ :: _ :: _ => simp [soleValue]

end Fields

section Views

variable {value : Json}

theorem text?_eq_some_iff {s : String} : format.text? value = some s ↔ value = text s := by
  cases value <;> simp [Format.text?, format, view, text]

theorem nullableText?_eq_some_iff {raw : Option String} :
    format.nullableText? value = some raw ↔
      (value = null ∧ raw = none) ∨ ∃ s, value = text s ∧ raw = some s := by
  cases value with
  | null => simp [Format.nullableText?, format, view, text, eq_comm]
  | string s => cases s <;> simp [Format.nullableText?, format, view, text, eq_comm]
  | _ => simp [Format.nullableText?, format, view, text]

theorem list?_eq_some_iff {decode : Json → Option β} {l : List β} :
    format.list? decode value = some l ↔
      ∃ items, value = array items ∧ List.Forall₂ (fun item b => decode item = some b) items l := by
  cases value with
  | array items =>
    change items.mapM decode = some l ↔ _
    simp [mapM_eq_some_iff_forall₂]
  | _ => simp [Format.list?, format, view]

end Views

/-! ## Edits -/

/-- A change of an object that reads fields of some names. Members change places, members of other
names come and go, a name gives way to another of the same field, and a value is changed in a way
that is up to the field. -/
inductive Edit (fields : List (List String)) (inside : Json → Json → Prop) : Json → Json → Prop
  | reorder {members members' : List (JsonText × Json)} (h : members.Perm members') :
      Edit fields inside (object members) (object members')
  | add {name : String} (h : ∀ names ∈ fields, name ∉ names) (value : Json)
      (members : List (JsonText × Json)) :
      Edit fields inside (object members) (object ((some name, value) :: members))
  | drop {name : String} (h : ∀ names ∈ fields, name ∉ names) (value : Json)
      (members : List (JsonText × Json)) :
      Edit fields inside (object ((some name, value) :: members)) (object members)
  | rename {name name' : String} (h : ∀ names ∈ fields, name ∈ names ↔ name' ∈ names)
      (value : Json) (members : List (JsonText × Json)) :
      Edit fields inside (object ((some name, value) :: members))
        (object ((some name', value) :: members))
  | change {value value' : Json} (h : inside value value') (name : JsonText)
      (members : List (JsonText × Json)) :
      Edit fields inside (object ((name, value) :: members)) (object ((name, value') :: members))

/-- A change of one item of a list. -/
inductive ItemEdit (inside : Json → Json → Prop) : Json → Json → Prop
  | change {item item' : Json} (h : inside item item') (before after : List Json) :
      ItemEdit inside (array (before ++ item :: after)) (array (before ++ item' :: after))

/-- What an edit does to the values of a field: nothing at all, a change of the only value, or
something to several values. -/
inductive Kept (inside : Json → Json → Prop) : List Json → List Json → Prop
  | same (values : List Json) : Kept inside values values
  | change {value value' : Json} (h : inside value value') : Kept inside [value] [value']
  | several {values values' : List Json} (h : 2 ≤ values.length) (h' : 2 ≤ values'.length) :
      Kept inside values values'

variable {fields : List (List String)} {inside : Json → Json → Prop}

theorem Kept.nil {values : List Json} (h : Kept inside [] values) : values = [] := by
  cases h with
  | same => rfl
  | several h => exact absurd h (by simp)

theorem Kept.singleton {value : Json} {values : List Json} (h : Kept inside [value] values) :
    values = [value] ∨ ∃ value', values = [value'] ∧ inside value value' := by
  cases h with
  | same => exact .inl rfl
  | change h => exact .inr ⟨_, rfl, h⟩
  | several h => exact absurd h (by simp)

theorem valuesOf_cons (name : JsonText) (value : Json) (members : List (JsonText × Json)) :
    valuesOf names ((name, value) :: members) =
      (if name.any names.contains then [value] else []) ++ valuesOf names members := by
  unfold valuesOf
  rw [List.filter_cons]
  split
  · rfl
  · rfl

theorem valuesOf_cons_of_notMem {name : String} (h : name ∉ names) (value : Json)
    (members : List (JsonText × Json)) :
    valuesOf names ((some name, value) :: members) = valuesOf names members := by
  rw [valuesOf_cons, if_neg (by simpa using h), List.nil_append]

theorem kept_of_perm {values values' : List Json} (h : values.Perm values') :
    Kept inside values values' := by
  match values with
  | [] =>
    rw [h.nil_eq]
    exact .same values'
  | [value] =>
    rw [← List.perm_singleton.mp h.symm]
    exact .same values'
  | _ :: _ :: rest => exact .several (by simp) (h.length_eq ▸ by simp)

theorem kept_cons {value value' : Json} (h : inside value value') (values : List Json) :
    Kept inside (value :: values) (value' :: values) := by
  cases values with
  | nil => exact .change h
  | cons => exact .several (by simp) (by simp)

/-- An edit turns objects into objects, leaves all members named, and keeps what stands under the
names of each field. -/
theorem Edit.kept {a b : Json} (h : Edit fields inside a b) :
    ∃ members members', a = object members ∧ b = object members' ∧
      (AllNamed members → AllNamed members') ∧
      ∀ names ∈ fields, Kept inside (valuesOf names members) (valuesOf names members') := by
  cases h with
  | @reorder members members' h =>
    refine ⟨members, members', rfl, rfl, fun hnamed m hm => hnamed m (h.mem_iff.mpr hm), ?_⟩
    exact fun names _ => kept_of_perm ((h.filter _).map _)
  | @add name h value members =>
    refine ⟨_, _, rfl, rfl, fun hnamed => ?_, fun names hnames => ?_⟩
    · exact List.forall_mem_cons.mpr ⟨Option.some_ne_none name, hnamed⟩
    · rw [valuesOf_cons_of_notMem (h names hnames)]
      exact .same _
  | drop h value members =>
    refine ⟨_, _, rfl, rfl, fun hnamed => (List.forall_mem_cons.mp hnamed).2, ?_⟩
    intro names hnames
    rw [valuesOf_cons_of_notMem (h names hnames)]
    exact .same _
  | @rename name name' h value members =>
    refine ⟨_, _, rfl, rfl, fun hnamed => ?_, fun names hnames => ?_⟩
    · exact List.forall_mem_cons.mpr
        ⟨Option.some_ne_none name', (List.forall_mem_cons.mp hnamed).2⟩
    · have hsame : (some name).any names.contains = (some name').any names.contains := by
        rw [Bool.eq_iff_iff]
        exact List.contains_iff_mem.trans ((h names hnames).trans List.contains_iff_mem.symm)
      rw [valuesOf_cons, valuesOf_cons, hsame]
      exact .same _
  | @change value value' h name members =>
    refine ⟨_, _, rfl, rfl, fun hnamed => ?_, fun names _ => ?_⟩
    · exact List.forall_mem_cons.mpr (List.forall_mem_cons.mp hnamed)
    · rw [valuesOf_cons, valuesOf_cons]
      split
      · exact kept_cons h _
      · exact .same _

end Json
end FormCheck
