/-!
# Maps from field names

A `FieldMap` gives finitely many field names a value each. The entries are kept in code-point order
of the names, so two maps with the same entries are equal.
-/
namespace FormCheck

/-- Searching from the back finds the last item with a property. -/
theorem find?_reverse_eq_some_iff {α : Type} {p : α → Bool} {l : List α} {a : α} :
    l.reverse.find? p = some a ↔
      p a = true ∧ ∃ before after, l = before ++ a :: after ∧ ∀ b ∈ after, p b = false := by
  rw [List.find?_eq_some_iff_append, and_congr_right_iff]
  intro _
  constructor
  · rintro ⟨after, before, hl, hafter⟩
    refine ⟨before.reverse, after.reverse, ?_, ?_⟩
    · simpa using congrArg List.reverse hl
    · simpa using hafter
  · rintro ⟨before, after, rfl, hafter⟩
    exact ⟨after.reverse, before.reverse, by simp, by simpa using hafter⟩

/-- Entries with strictly increasing names. -/
structure FieldMap (α : Type) where
  entries : List (String × α)
  ascending : entries.Pairwise fun a b => a.1 < b.1

namespace FieldMap

variable {α : Type}

@[ext] theorem ext {a b : FieldMap α} (h : a.entries = b.entries) : a = b := by
  cases a
  cases b
  cases h
  rfl

instance [DecidableEq α] : DecidableEq (FieldMap α) := fun a b =>
  decidable_of_iff (a.entries = b.entries) ⟨ext, fun h => h ▸ rfl⟩

def empty : FieldMap α := ⟨[], .nil⟩

def size (m : FieldMap α) : Nat := m.entries.length

def isEmpty (m : FieldMap α) : Bool := m.entries.isEmpty

/-- The value of a name. -/
def get? (m : FieldMap α) (name : String) : Option α :=
  (m.entries.find? fun e => e.1 = name).map Prod.snd

/-- Puts an entry in its place, over one of the same name. -/
def insertEntry (name : String) (value : α) : List (String × α) → List (String × α)
  | [] => [(name, value)]
  | e :: rest =>
    if name < e.1 then (name, value) :: e :: rest
    else if name = e.1 then (name, value) :: rest
    else e :: insertEntry name value rest

theorem mem_insertEntry {name : String} {value : α} {e : String × α} {l : List (String × α)}
    (h : e ∈ insertEntry name value l) : e = (name, value) ∨ e ∈ l := by
  induction l with
  | nil => simpa [insertEntry] using h
  | cons d rest ih =>
    simp only [insertEntry] at h
    split at h
    · simpa using h
    · split at h
      · rcases List.mem_cons.mp h with h | h
        · exact .inl h
        · exact .inr (List.mem_cons_of_mem _ h)
      · rcases List.mem_cons.mp h with h | h
        · exact .inr (h ▸ List.mem_cons_self)
        · exact (ih h).imp_right (List.mem_cons_of_mem _)

theorem lt_of_not_lt {a b : String} (h : ¬a < b) (hne : a ≠ b) : b < a :=
  String.not_le.mp fun hle => hne (String.le_antisymm hle (String.not_lt.mp h))

theorem pairwise_insertEntry {name : String} {value : α} {l : List (String × α)}
    (h : l.Pairwise fun a b => a.1 < b.1) :
    (insertEntry name value l).Pairwise fun a b => a.1 < b.1 := by
  induction l with
  | nil => simp [insertEntry]
  | cons e rest ih =>
    have hrest := List.pairwise_cons.mp h
    simp only [insertEntry]
    split
    · rename_i hlt
      refine List.pairwise_cons.mpr ⟨fun d hd => ?_, h⟩
      rcases List.mem_cons.mp hd with rfl | hd
      · exact hlt
      · exact String.lt_trans hlt (hrest.1 d hd)
    · split
      · rename_i heq
        exact List.pairwise_cons.mpr ⟨fun d hd => heq ▸ hrest.1 d hd, hrest.2⟩
      · rename_i hlt hne
        refine List.pairwise_cons.mpr ⟨fun d hd => ?_, ih hrest.2⟩
        rcases mem_insertEntry hd with rfl | hd
        · exact lt_of_not_lt hlt hne
        · exact hrest.1 d hd

/-- Gives a name a value, in place of the one it had. -/
def insert (m : FieldMap α) (name : String) (value : α) : FieldMap α :=
  ⟨insertEntry name value m.entries, pairwise_insertEntry m.ascending⟩

/-- Takes a name out. -/
def erase (m : FieldMap α) (name : String) : FieldMap α :=
  ⟨m.entries.filter fun e => e.1 ≠ name, m.ascending.filter _⟩

/-- The map of a list of entries; of several entries with one name the last counts. -/
def ofList (l : List (String × α)) : FieldMap α :=
  l.foldl (fun m e => m.insert e.1 e.2) empty

@[simp] theorem get?_empty (name : String) : (empty : FieldMap α).get? name = none := rfl

theorem get?_insert_self (m : FieldMap α) (name : String) (value : α) :
    (m.insert name value).get? name = some value := by
  suffices h : ∀ l : List (String × α),
      (insertEntry name value l).find? (fun e => e.1 = name) = some (name, value) by
    simp [get?, insert, h]
  intro l
  induction l with
  | nil => simp [insertEntry]
  | cons e rest ih =>
    simp only [insertEntry]
    split
    · simp
    · split
      · simp
      · rename_i hne
        simp [Ne.symm hne, ih]

theorem get?_insert_of_ne (m : FieldMap α) {name other : String} (value : α) (h : other ≠ name) :
    (m.insert name value).get? other = m.get? other := by
  suffices hl : ∀ l : List (String × α),
      (insertEntry name value l).find? (fun e => e.1 = other) = l.find? fun e => e.1 = other by
    simp [get?, insert, hl]
  intro l
  induction l with
  | nil => simp [insertEntry, Ne.symm h]
  | cons e rest ih =>
    simp only [insertEntry]
    split
    · simp [Ne.symm h]
    · split
      · rename_i heq
        simp [Ne.symm h, ← heq]
      · simp [List.find?_cons, ih]

theorem get?_erase_self (m : FieldMap α) (name : String) : (m.erase name).get? name = none := by
  simp [get?, erase]

theorem get?_erase_of_ne (m : FieldMap α) {name other : String} (h : other ≠ name) :
    (m.erase name).get? other = m.get? other := by
  have hother : ∀ e : String × α, (e.1 ≠ name ∧ e.1 = other) ↔ e.1 = other := by
    intro e
    constructor
    · exact And.right
    · intro he
      exact ⟨by rw [he]; exact h, he⟩
  simp [get?, erase, List.find?_filter, hother]

/-- Putting in a list of entries, the last one of a name counts. -/
theorem get?_foldl_insert (l : List (String × α)) (m : FieldMap α) (name : String) :
    (l.foldl (fun m e => m.insert e.1 e.2) m).get? name =
      ((l.reverse.find? fun e => e.1 = name).map Prod.snd).or (m.get? name) := by
  induction l generalizing m with
  | nil => rfl
  | cons e rest ih =>
    rw [List.foldl_cons, ih, List.reverse_cons, List.find?_append, Option.map_or, Option.or_assoc]
    by_cases h : e.1 = name
    · simp [← h, get?_insert_self]
    · rw [get?_insert_of_ne m e.2 (Ne.symm h)]
      simp [h]

theorem get?_ofList (l : List (String × α)) (name : String) :
    (ofList l).get? name = (l.reverse.find? fun e => e.1 = name).map Prod.snd := by
  rw [ofList, get?_foldl_insert, get?_empty, Option.or_none]

end FieldMap
end FormCheck
