import FormCheck.FieldMap
import Mathlib.Data.List.Basic
import Mathlib.Data.List.Dedup

/-!
# Maps and their entries

The entries of a map are exactly what can be looked up, in order of the names. So a map is known by
its look-ups, and it is made again from its own entries.
-/
namespace FormCheck

/-- Distinct items are as many as those of any list with the same items, without repetition. -/
theorem length_eq_length_dedup {l r : List String} (hl : l.Nodup) (h : ∀ s, s ∈ l ↔ s ∈ r) :
    l.length = r.dedup.length := by
  have hperm : l.Perm r.dedup := by
    rw [List.perm_ext_iff_of_nodup hl (List.nodup_dedup r)]
    intro s
    rw [h, List.mem_dedup]
  exact hperm.length_eq

namespace FieldMap

variable {α β : Type}

/-- With distinct names the value found under a name is the one it stands with. -/
theorem find?_name_eq_some_iff {l : List (String × α)} (h : l.Pairwise fun a b => a.1 ≠ b.1)
    {name : String} {value : α} :
    (l.find? fun e => e.1 = name).map Prod.snd = some value ↔ (name, value) ∈ l := by
  induction l with
  | nil => simp
  | cons e rest ih =>
    obtain ⟨hhead, hrest⟩ := List.pairwise_cons.mp h
    obtain ⟨other, v⟩ := e
    by_cases hname : other = name
    · -- The name of the first entry does not come again.
      subst hname
      have hnot : (other, value) ∉ rest := fun hmem => hhead _ hmem rfl
      simp [hnot, eq_comm]
    · have hne : (name, value) ≠ (other, v) := fun heq => hname (congrArg Prod.fst heq).symm
      rw [List.find?_cons_of_neg (by simpa using hname), ih hrest, List.mem_cons,
        or_iff_right hne]

theorem names_ne (m : FieldMap α) : m.entries.Pairwise fun a b => a.1 ≠ b.1 := by
  refine m.ascending.imp ?_
  intro a b hlt heq
  exact String.lt_irrefl b.1 (heq ▸ hlt)

theorem nodup_entries (m : FieldMap α) : m.entries.Nodup :=
  m.names_ne.imp fun hne heq => hne (congrArg Prod.fst heq)

/-- A name has a value in a map if the two are an entry of it. -/
theorem get?_eq_some_iff (m : FieldMap α) {name : String} {value : α} :
    m.get? name = some value ↔ (name, value) ∈ m.entries :=
  find?_name_eq_some_iff m.names_ne

/-- Entries in order of their names are known by which they are. -/
theorem entries_eq_of_perm {l r : List (String × α)} (hl : l.Pairwise fun a b => a.1 < b.1)
    (hr : r.Pairwise fun a b => a.1 < b.1) (h : l.Perm r) : l = r := by
  refine h.eq_of_pairwise ?_ hl hr
  intro a b _ _ hab hba
  exact absurd (String.lt_trans hab hba) (String.lt_irrefl a.1)

/-- Maps with the same look-ups are equal. -/
theorem ext_get? {m n : FieldMap α} (h : ∀ name, m.get? name = n.get? name) : m = n := by
  refine ext (entries_eq_of_perm m.ascending n.ascending ?_)
  rw [List.perm_ext_iff_of_nodup m.nodup_entries n.nodup_entries]
  rintro ⟨name, value⟩
  rw [← get?_eq_some_iff, ← get?_eq_some_iff, h]

/-- An entry is known by its name. -/
theorem eq_of_name_eq (m : FieldMap α) {a b : String × α} (ha : a ∈ m.entries)
    (hb : b ∈ m.entries) (h : a.1 = b.1) : a = b := by
  have hvalue : m.get? a.1 = some a.2 := m.get?_eq_some_iff.mpr ha
  rw [h, m.get?_eq_some_iff.mpr hb] at hvalue
  exact Prod.ext h (Option.some.inj hvalue).symm

/-- Sorting the entries by name brings them back in order. -/
theorem mergeSort_eq_entries {l : List (String × α)} {m : FieldMap α} (h : l.Perm m.entries) :
    l.mergeSort (fun a b => a.1 ≤ b.1) = m.entries := by
  have hperm := (List.mergeSort_perm l fun a b => a.1 ≤ b.1).trans h
  have hsorted : (l.mergeSort fun a b => a.1 ≤ b.1).Pairwise fun a b => a.1 ≤ b.1 := by
    refine (List.pairwise_mergeSort ?_ ?_ l).imp of_decide_eq_true
    · intro a b c hab hbc
      exact decide_eq_true (String.le_trans (of_decide_eq_true hab) (of_decide_eq_true hbc))
    · intro a b
      simpa using String.le_total a.1 b.1
  have hentries : m.entries.Pairwise fun a b => a.1 ≤ b.1 := by
    refine m.ascending.imp ?_
    intro a b hlt
    exact String.not_lt.mp fun hgt => String.lt_irrefl _ (String.lt_trans hlt hgt)
  refine hperm.eq_of_pairwise ?_ hsorted hentries
  intro a b ha hb hab hba
  exact m.eq_of_name_eq (hperm.mem_iff.mp ha) hb (String.le_antisymm hab hba)

/-- Entries with distinct names are all kept. -/
theorem entries_ofList_perm {l : List (String × α)} (h : l.Pairwise fun a b => a.1 ≠ b.1) :
    (ofList l).entries.Perm l := by
  have hnodup : l.Nodup := h.imp fun hne heq => hne (congrArg Prod.fst heq)
  have hreverse : l.reverse.Pairwise fun a b => a.1 ≠ b.1 :=
    List.pairwise_reverse.mpr (h.imp Ne.symm)
  rw [List.perm_ext_iff_of_nodup (ofList l).nodup_entries hnodup]
  rintro ⟨name, value⟩
  rw [← get?_eq_some_iff, get?_ofList, find?_name_eq_some_iff hreverse, List.mem_reverse]

/-- A map is made again from its entries. -/
theorem ofList_entries (m : FieldMap α) : ofList m.entries = m := by
  exact ext (entries_eq_of_perm (ofList m.entries).ascending m.ascending
    (entries_ofList_perm m.names_ne))

/-- The map with every value changed. -/
def map (f : α → β) (m : FieldMap α) : FieldMap β where
  entries := m.entries.map fun e => (e.1, f e.2)
  ascending := List.pairwise_map.mpr m.ascending

theorem get?_map (f : α → β) (m : FieldMap α) (name : String) :
    (m.map f).get? name = (m.get? name).map f := by
  rw [get?, get?, map, List.find?_map, Option.map_map, Option.map_map]
  rfl

end FieldMap
end FormCheck
