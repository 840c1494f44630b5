import FormCheck.Proofs.Trimming

/-!
# Trimming as browsers do

A browser takes its own blank characters from both ends of a text. The padding of a submitted text
is the property White_Space with the byte order mark, and that is what a browser takes and one
character more, the next line control U+0085. So trimming leaves what a browser leaves, unless a
next line stands at an end of that, and `required` then looks for content beside next lines.
-/
namespace FormCheck

namespace Text

/-! ## The blank characters of browsers -/

/-- The code points that browsers count as white space or line terminators. -/
def browserBlankRanges : Ranges :=
  [(0x09, 0x0D), (0x20, 0x20), (0xA0, 0xA0), (0x1680, 0x1680), (0x2000, 0x200A), (0x2028, 0x2029),
   (0x202F, 0x202F), (0x205F, 0x205F), (0x3000, 0x3000), (0xFEFF, 0xFEFF)]

/-- A character that browsers take from both ends of a text. -/
def isBrowserBlank (c : Char) : Bool := browserBlankRanges.contains c.toNat

/-- The control character U+0085. -/
def nextLine : Char := '\x85'

/-- Padding is what browsers take, and the next line. -/
theorem isPadding_eq_true_iff {c : Char} :
    isPadding c = true ↔ isBrowserBlank c = true ∨ c = nextLine := by
  have hline : c = nextLine ↔ c.toNat = 0x85 := Char.toNat_inj.symm
  rw [isPadding_iff_toNat, hline, isBrowserBlank, blankRanges, browserBlankRanges]
  simp only [Ranges.contains_cons, Ranges.contains_nil, Bool.or_eq_true, Bool.and_eq_true,
    decide_eq_true_eq, Bool.false_eq_true, or_false]
  omega

theorem isPadding_eq_false_iff {c : Char} :
    isPadding c = false ↔ isBrowserBlank c = false ∧ c ≠ nextLine := by
  rw [← Bool.not_eq_true, isPadding_eq_true_iff, not_or, Bool.not_eq_true]

/-- What a browser leaves is left, unless a next line stands at one of its ends. -/
theorem IsTrimmed.trim_isPadding_eq_iff {s t : List Char} (h : IsTrimmed isBrowserBlank s t) :
    trim isPadding s = t ↔ t.head? ≠ some nextLine ∧ t.getLast? ≠ some nextLine := by
  constructor
  · intro heq
    have htrimmed := trim_eq_iff.mp heq
    exact ⟨fun hhead => (isPadding_eq_false_iff.mp (htrimmed.first _ hhead)).2 rfl,
      fun hlast => (isPadding_eq_false_iff.mp (htrimmed.last _ hlast)).2 rfl⟩
  · rintro ⟨hhead, hlast⟩
    obtain ⟨a, b, hs, ha, hb⟩ := h.around
    have hpadding : ∀ c, isBrowserBlank c = true → isPadding c = true :=
      fun c hc => isPadding_eq_true_iff.mpr (.inl hc)
    refine trim_eq_iff.mpr ⟨⟨a, b, hs, fun c hc => hpadding c (ha c hc),
      fun c hc => hpadding c (hb c hc)⟩, fun c hc => ?_, fun c hc => ?_⟩
    · exact isPadding_eq_false_iff.mpr ⟨h.first c hc, fun heq => hhead (heq ▸ hc)⟩
    · exact isPadding_eq_false_iff.mpr ⟨h.last c hc, fun heq => hlast (heq ▸ hc)⟩

/-- Without a next line the two agree. -/
theorem IsTrimmed.trim_isPadding_eq {s t : List Char} (h : IsTrimmed isBrowserBlank s t)
    (hline : nextLine ∉ s) : trim isPadding s = t := by
  obtain ⟨a, b, hs, -, -⟩ := h.around
  have ht : nextLine ∉ t := by
    intro hmem
    rw [hs] at hline
    exact hline (List.mem_append_left b (List.mem_append_right a hmem))
  refine h.trim_isPadding_eq_iff.mpr ⟨?_, ?_⟩
  · exact fun hhead => ht (List.mem_of_mem_head? hhead)
  · exact fun hlast => ht (List.mem_of_getLast? hlast)

end Text

/-! ## What the rule makes of it -/

/-- A text has content if a browser leaves more of it than blanks and next lines. -/
theorem hasContent_iff_of_isTrimmed {s : String} {t : List Char}
    (h : Text.IsTrimmed Text.isBrowserBlank s.toList t) :
    hasContent s = true ↔ ∃ c ∈ t, Text.isBrowserBlank c = false ∧ c ≠ Text.nextLine := by
  obtain ⟨a, b, hs, ha, hb⟩ := h.around
  rw [hasContent_eq_true_iff, hs]
  simp only [Text.isPadding_eq_false_iff, List.mem_append]
  constructor
  · rintro ⟨c, (hc | hc) | hc, hblank, hline⟩
    · exact absurd (ha c hc) (by simp [hblank])
    · exact ⟨c, hc, hblank, hline⟩
    · exact absurd (hb c hc) (by simp [hblank])
  · rintro ⟨c, hc, hcontent⟩
    exact ⟨c, .inl (.inr hc), hcontent⟩

/-- Trimming a submitted text leaves what a browser leaves exactly if no next line stands at an end
of that. `required` then passes the text if that holds a character other than blanks and next lines;
where the text has no next line at all, that is to say if it is not empty. -/
theorem trims_as_browser_but_next_lines (s : String) (pattern : EmailPattern) :
    let browserTrimmed := Text.trim Text.isBrowserBlank s.toList
    let trimmed := Text.trim Text.isPadding s.toList
    let passes := Rule.required.accepts pattern (some (.string s)) = true
    Text.IsTrimmed Text.isBrowserBlank s.toList browserTrimmed ∧
    (trimmed = browserTrimmed ↔ browserTrimmed.head? ≠ some Text.nextLine ∧
      browserTrimmed.getLast? ≠ some Text.nextLine) ∧
    (passes ↔ ∃ c ∈ browserTrimmed, Text.isBrowserBlank c = false ∧ c ≠ Text.nextLine) ∧
    (Text.nextLine ∉ s.toList → trimmed = browserTrimmed ∧ (passes ↔ browserTrimmed ≠ [])) := by
  intro browserTrimmed trimmed passes
  have htrimmed : Text.IsTrimmed Text.isBrowserBlank s.toList browserTrimmed :=
    Text.isTrimmed_trim _ _
  have hpasses : passes ↔ hasContent s = true := Iff.rfl
  refine ⟨htrimmed, htrimmed.trim_isPadding_eq_iff,
    hpasses.trans (hasContent_iff_of_isTrimmed htrimmed), fun hline => ?_⟩
  have heq : trimmed = browserTrimmed := htrimmed.trim_isPadding_eq hline
  refine ⟨heq, ?_⟩
  rw [hpasses, ← heq, hasContent, Bool.not_eq_true', List.isEmpty_eq_false_iff]

/-- A text without a next line, with blanks at its ends and inside. -/
theorem trims_as_browser_but_next_lines_noBreak :
    Text.nextLine ∉ "\uFEFF a b\u00A0".toList ∧
    Text.trim Text.isPadding "\uFEFF a b\u00A0".toList =
      Text.trim Text.isBrowserBlank "\uFEFF a b\u00A0".toList ∧
    (Rule.required.accepts .simple (some (.string "\uFEFF a b\u00A0")) = true ↔
      Text.trim Text.isBrowserBlank "\uFEFF a b\u00A0".toList ≠ []) := by
  have hline : Text.nextLine ∉ "\uFEFF a b\u00A0".toList := by decide +kernel
  obtain ⟨-, -, -, hagree⟩ := trims_as_browser_but_next_lines "\uFEFF a b\u00A0" .simple
  exact ⟨hline, hagree hline⟩

/-- A browser leaves a next line as it is, but it is no content for `required`. -/
theorem required_rejects_next_line :
    Text.IsTrimmed Text.isBrowserBlank "\x85".toList ['\x85'] ∧
    Text.trim Text.isPadding "\x85".toList ≠ ['\x85'] ∧
    Rule.required.accepts .simple (some (.string "\x85")) = false := by
  have htrimmed : Text.trim Text.isBrowserBlank "\x85".toList = ['\x85'] := by decide +kernel
  exact ⟨Text.trim_eq_iff.mp htrimmed, by decide +kernel, by decide +kernel⟩

end FormCheck
