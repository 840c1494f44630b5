/-!
# Splitting at a separator

`split sep s` lists the pieces of `s` between occurrences of `sep`, empty pieces included, and
`join sep` puts pieces together again. A text without the separator is a single piece, so there is
always at least one.
-/
namespace FormCheck.Text

/-- The pieces of a text between separators. -/
def split (sep : Char) : List Char → List (List Char)
  | [] => [[]]
  | c :: s => if c = sep then [] :: split sep s else (split sep s).modifyHead (c :: ·)

/-- The pieces in order, with the separator between neighbours. -/
def join (sep : Char) : List (List Char) → List Char
  | [] => []
  | [p] => p
  | p :: q :: rest => p ++ sep :: join sep (q :: rest)

theorem join_eq_intercalate (sep : Char) (pieces : List (List Char)) :
    join sep pieces = [sep].intercalate pieces := by
  induction pieces with
  | nil => rfl
  | cons p rest ih =>
    cases rest with
    | nil => simp [join]
    | cons q rest => simp [join, ih, List.intercalate_cons_cons]

/-- The first piece, and every other behind a separator. -/
theorem join_cons (sep : Char) (p : List Char) (rest : List (List Char)) :
    join sep (p :: rest) = p ++ (rest.map (sep :: ·)).flatten := by
  induction rest generalizing p with
  | nil => simp [join]
  | cons q rest ih => simp [join, ih]

/-- A character of a joined text is the separator or comes from a piece. -/
theorem eq_or_mem_of_mem_join {sep c : Char} {pieces : List (List Char)}
    (h : c ∈ join sep pieces) : c = sep ∨ ∃ p ∈ pieces, c ∈ p := by
  cases pieces with
  | nil => cases h
  | cons p rest =>
    rw [join_cons, List.mem_append, List.mem_flatten] at h
    rcases h with hp | ⟨_, hpiece, hc⟩
    · exact .inr ⟨p, by simp, hp⟩
    · obtain ⟨q, hq, rfl⟩ := List.mem_map.mp hpiece
      rcases List.mem_cons.mp hc with hsep | hc
      · exact .inl hsep
      · exact .inr ⟨q, List.mem_cons_of_mem p hq, hc⟩

@[simp] theorem split_nil (sep : Char) : split sep [] = [[]] := rfl

theorem split_ne_nil (sep : Char) (s : List Char) : split sep s ≠ [] := by
  induction s with
  | nil => simp
  | cons c s ih =>
    unfold split
    split
    · simp
    · cases h : split sep s with
      | nil => exact absurd h ih
      | cons p rest => simp

/-- Joining the pieces gives the text back. -/
theorem join_split (sep : Char) (s : List Char) : join sep (split sep s) = s := by
  induction s with
  | nil => rfl
  | cons c s ih =>
    cases h : split sep s with
    | nil => exact absurd h (split_ne_nil sep s)
    | cons p rest =>
      rw [h, join_cons] at ih
      by_cases hc : c = sep
      · simp [split, hc, h, join_cons, ih]
      · simp [split, hc, h, join_cons, ih]

/-- No piece holds the separator. -/
theorem notMem_of_mem_split {sep : Char} {s p : List Char} (h : p ∈ split sep s) : sep ∉ p := by
  induction s generalizing p with
  | nil =>
    rw [List.mem_singleton.mp h]
    exact List.not_mem_nil
  | cons c s ih =>
    unfold split at h
    split at h
    · rcases List.mem_cons.mp h with rfl | h
      · exact List.not_mem_nil
      · exact ih h
    · rename_i hc
      cases hpieces : split sep s with
      | nil => exact absurd hpieces (split_ne_nil sep s)
      | cons q rest =>
        rw [hpieces] at h ih
        rcases List.mem_cons.mp h with rfl | h
        · rw [List.mem_cons, not_or]
          exact ⟨Ne.symm hc, ih List.mem_cons_self⟩
        · exact ih (List.mem_cons_of_mem q h)

/-- A separator ends the pieces before it and begins those after it. -/
theorem split_append_cons (sep : Char) (s t : List Char) :
    split sep (s ++ sep :: t) = split sep s ++ split sep t := by
  induction s with
  | nil => simp [split]
  | cons c s ih =>
    simp only [List.cons_append, split]
    split
    · simp [ih]
    · cases h : split sep s with
      | nil => exact absurd h (split_ne_nil sep s)
      | cons p rest => simp [ih, h]

/-- A text without the separator is one piece. -/
theorem split_eq_singleton {sep : Char} {s : List Char} (h : sep ∉ s) : split sep s = [s] := by
  induction s with
  | nil => rfl
  | cons c s ih =>
    simp only [List.mem_cons, not_or] at h
    simp [split, Ne.symm h.1, ih h.2]

/-- Splitting recovers pieces that do not hold the separator. -/
theorem split_join {sep : Char} {pieces : List (List Char)} (hne : pieces ≠ [])
    (h : ∀ p ∈ pieces, sep ∉ p) : split sep (join sep pieces) = pieces := by
  induction pieces with
  | nil => exact absurd rfl hne
  | cons p rest ih =>
    cases rest with
    | nil => simpa [join] using split_eq_singleton (h p (by simp))
    | cons q rest =>
      rw [join, split_append_cons, split_eq_singleton (h p (by simp)),
        ih (by simp) (fun r hr => h r (List.mem_cons_of_mem _ hr))]
      rfl

end FormCheck.Text
