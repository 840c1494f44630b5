import FormCheck.ErrorMap
import FormCheck.Proofs.FieldMaps
import Mathlib.Data.List.Dedup

/-!
# Gathered errors

Errors are gathered from pairs of a name and a message, where a name may come again. Each pair goes
to the place of its name in code-point order, over an earlier one of that name, so the names are
those of the pairs without repetition and each has its last message. Nothing else of the list is
kept: lists with the same last message for every name give the same errors.
-/
namespace FormCheck

namespace Text

/-- The code points of a text. -/
def codePoints (s : String) : List Nat := s.toList.map Char.toNat

theorem map_toNat_lt_iff {s t : List Char} : s.map Char.toNat < t.map Char.toNat ↔ s < t := by
  induction s generalizing t with
  | nil =>
    cases t with
    | nil => simp
    | cons d t => simp
  | cons c s ih =>
    cases t with
    | nil => simp
    | cons d t =>
      have hhead : c.toNat < d.toNat ↔ c < d := UInt32.lt_iff_toNat_lt.symm
      rw [List.map_cons, List.map_cons, List.cons_lt_cons_iff, List.cons_lt_cons_iff, ih, hhead,
        Char.toNat_inj]

/-- Texts are in order of their code points. -/
theorem codePoints_lt_iff {s t : String} : codePoints s < codePoints t ↔ s < t :=
  map_toNat_lt_iff

end Text

namespace FieldMap

variable {α : Type} {l r : List (String × α)} {name : String}

/-! ## Names -/

/-- The names of a map in order. -/
def names (m : FieldMap α) : List String := m.entries.map Prod.fst

theorem nodup_names (m : FieldMap α) : m.names.Nodup := List.pairwise_map.mpr m.names_ne

theorem mem_names_iff (m : FieldMap α) : name ∈ m.names ↔ ∃ value, m.get? name = some value := by
  rw [names, List.mem_map]
  constructor
  · rintro ⟨⟨_, value⟩, hentry, rfl⟩
    exact ⟨value, m.get?_eq_some_iff.mpr hentry⟩
  · rintro ⟨value, hvalue⟩
    exact ⟨_, m.get?_eq_some_iff.mp hvalue, rfl⟩

/-- A pair that is put in adds its name. -/
theorem mem_names_insert (m : FieldMap α) (other : String) (value : α) :
    name ∈ (m.insert other value).names ↔ name = other ∨ name ∈ m.names := by
  rw [mem_names_iff, mem_names_iff]
  by_cases h : name = other
  · subst h
    simp [get?_insert_self]
  · simp [get?_insert_of_ne m value h, h]

/-- Putting in a list of pairs adds the names of the list. -/
theorem mem_names_foldl_insert (l : List (String × α)) (m : FieldMap α) :
    name ∈ (l.foldl (fun m e => m.insert e.1 e.2) m).names ↔
      name ∈ l.map Prod.fst ∨ name ∈ m.names := by
  induction l generalizing m with
  | nil => simp
  | cons e l ih =>
    rw [List.foldl_cons, ih, mem_names_insert, List.map_cons, List.mem_cons, ← or_assoc,
      or_comm (a := name = e.1)]

theorem mem_names_ofList (l : List (String × α)) :
    name ∈ (ofList l).names ↔ name ∈ l.map Prod.fst := by
  rw [ofList, mem_names_foldl_insert, or_iff_left]
  exact List.not_mem_nil

/-- There are as many entries as names. -/
theorem size_ofList (l : List (String × α)) : (ofList l).size = (l.map Prod.fst).dedup.length := by
  rw [size, ← List.length_map (f := Prod.fst)]
  exact length_eq_length_dedup (ofList l).nodup_names fun _ => mem_names_ofList l

/-! ## Last values -/

/-- The value of the last pair of a name; none if no pair has the name. -/
def LastValue (l : List (String × α)) (name : String) : Option α → Prop
  | none => ∀ e ∈ l, e.1 ≠ name
  | some value => ∃ before after, l = before ++ (name, value) :: after ∧ ∀ e ∈ after, e.1 ≠ name

theorem get?_ofList_eq_iff {value : Option α} :
    (ofList l).get? name = value ↔ LastValue l name value := by
  rw [get?_ofList]
  cases value with
  | none => simp [LastValue]
  | some value =>
    have hfound : ((l.reverse.find? fun e => e.1 = name).map Prod.snd) = some value ↔
        (l.reverse.find? fun e => e.1 = name) = some (name, value) := by
      rw [Option.map_eq_some_iff]
      constructor
      · rintro ⟨⟨other, _⟩, hfind, rfl⟩
        obtain rfl : other = name := by simpa using List.find?_some hfind
        exact hfind
      · intro hfind
        exact ⟨_, hfind, rfl⟩
    rw [hfound, find?_reverse_eq_some_iff]
    simp [LastValue]

/-- A map keeps the last values and nothing else of a list. -/
theorem ofList_eq_ofList_iff :
    ofList l = ofList r ↔ ∀ name value, LastValue l name value ↔ LastValue r name value := by
  simp only [← get?_ofList_eq_iff]
  constructor
  · intro h name value
    rw [h]
  · intro h
    exact ext_get? fun name => (h name _).mpr rfl

end FieldMap

namespace ErrorMap

open FieldMap (LastValue)

/-- Errors gathered from pairs stand in order of the code points of their names. Every name has its
last message, there are as many errors as names, and none only if there was no pair. Pairs with the
same last messages give the same errors, and no other pairs do. -/
theorem gathers_last_messages (pairs : List (String × String)) :
    let errors : ErrorMap := .ofList pairs
    (errors.names.map Text.codePoints).Pairwise (· < ·) ∧
    (∀ name message, errors.get? name = message ↔ LastValue pairs name message) ∧
    errors.size = (pairs.map Prod.fst).dedup.length ∧
    (errors.isValid = true ↔ pairs = []) ∧
    ∀ other : List (String × String), errors = .ofList other ↔
      ∀ name message, LastValue pairs name message ↔ LastValue other name message := by
  intro errors
  have hsize := FieldMap.size_ofList pairs
  refine ⟨?_, fun name message => FieldMap.get?_ofList_eq_iff, hsize, ?_,
    fun other => FieldMap.ofList_eq_ofList_iff⟩
  · rw [FieldMap.names, List.pairwise_map, List.pairwise_map]
    exact errors.ascending.imp Text.codePoints_lt_iff.mpr
  · rw [isValid, FieldMap.isEmpty, List.isEmpty_iff, ← List.length_eq_zero_iff]
    change errors.size = 0 ↔ pairs = []
    rw [hsize, List.length_eq_zero_iff, List.dedup_eq_nil, List.map_eq_nil_iff]

/-- Upper case comes first, and beyond the first plane the code point decides. -/
example :
    let pairs := [("b", "1"), ("😀", "2"), ("", "3"), ("B", "4"), ("\uFF21", "5"), ("b", "6")]
    (FieldMap.ofList pairs).entries =
      [("", "3"), ("B", "4"), ("b", "6"), ("\uFF21", "5"), ("😀", "2")] := by
  decide +kernel

end ErrorMap
end FormCheck
