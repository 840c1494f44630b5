/-!
# Trimming

`trim p s` drops the characters with property `p` from both ends of `s` and nothing in between.
-/
namespace FormCheck.Text

/-- Drops trailing characters with the property. -/
def trimEnd (p : Char → Bool) (s : List Char) : List Char :=
  (s.reverse.dropWhile p).reverse

/-- Drops leading and trailing characters with the property. -/
def trim (p : Char → Bool) (s : List Char) : List Char :=
  trimEnd p (s.dropWhile p)

@[simp] theorem trimEnd_nil (p : Char → Bool) : trimEnd p [] = [] := rfl

@[simp] theorem trim_nil (p : Char → Bool) : trim p [] = [] := rfl

/-- What is dropped at the end has the property. -/
theorem exists_append_trimEnd (p : Char → Bool) (s : List Char) :
    ∃ b, s = trimEnd p s ++ b ∧ ∀ c ∈ b, p c = true := by
  refine ⟨(s.reverse.takeWhile p).reverse, ?_, ?_⟩
  · rw [trimEnd, ← List.reverse_append, List.takeWhile_append_dropWhile, List.reverse_reverse]
  · intro c hc
    have := List.all_takeWhile (p := p) (l := s.reverse)
    exact List.all_eq_true.mp this c (List.mem_reverse.mp hc)

theorem length_trimEnd_le (p : Char → Bool) (s : List Char) : (trimEnd p s).length ≤ s.length := by
  have hle : (s.reverse.dropWhile p).length ≤ s.reverse.length :=
    (List.dropWhile_suffix p).length_le
  rw [trimEnd, List.length_reverse]
  rwa [List.length_reverse] at hle

theorem trimEnd_append {p : Char → Bool} {t : List Char} (s : List Char)
    (h : ∀ c ∈ t, p c = true) : trimEnd p (s ++ t) = trimEnd p s := by
  rw [trimEnd, List.reverse_append, List.dropWhile_append_of_pos, trimEnd]
  exact fun c hc => h c (List.mem_reverse.mp hc)

end FormCheck.Text
