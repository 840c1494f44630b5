import FormCheck.Proofs.Evaluation
import Mathlib.Data.List.Basic
import Mathlib.Data.List.Induction
import Mathlib.Logic.Relation

/-!
# Trimming

What trimming leaves of a text is described by what stands around it and by its ends: there are
only characters with the property around it, and none at its ends. Only one text is left so,
whichever end loses a character first. So trimming again changes nothing, and what is added with
the property at either end is trimmed away again. The padding of a submitted text is the property
White_Space with the byte order mark, and `required` asks for one character that is neither.
-/
namespace FormCheck

namespace Text

/-! ## What trimming leaves -/

/-- What is left of a text when the characters with a property are taken from both ends. -/
structure IsTrimmed (p : Char → Bool) (s t : List Char) : Prop where
  around : ∃ a b, s = a ++ t ++ b ∧ (∀ c ∈ a, p c = true) ∧ ∀ c ∈ b, p c = true
  first : ∀ c ∈ t.head?, p c = false
  last : ∀ c ∈ t.getLast?, p c = false

theorem head?_dropWhile_eq_false {p : Char → Bool} {s : List Char} :
    ∀ c ∈ (s.dropWhile p).head?, p c = false := by
  intro c hc
  have hhead := List.head?_dropWhile_not p s
  rw [Option.mem_def.mp hc] at hhead
  simpa using hhead

theorem getLast?_trimEnd_eq_false {p : Char → Bool} {s : List Char} :
    ∀ c ∈ (trimEnd p s).getLast?, p c = false := by
  rw [trimEnd, List.getLast?_reverse]
  exact head?_dropWhile_eq_false

theorem trimEnd_eq_self {p : Char → Bool} {t : List Char} (h : ∀ c ∈ t.getLast?, p c = false) :
    trimEnd p t = t := by
  rw [trimEnd, List.reverse_eq_iff]
  rw [← List.head?_reverse] at h
  cases hreverse : t.reverse with
  | nil => rfl
  | cons c rest =>
    have hc : p c = false := h c (by rw [hreverse]; rfl)
    rw [List.dropWhile_cons_of_neg (by simp [hc])]

theorem isTrimmed_trim (p : Char → Bool) (s : List Char) : IsTrimmed p s (trim p s) := by
  obtain ⟨b, hb, hpadding⟩ := exists_append_trimEnd p (s.dropWhile p)
  refine ⟨⟨s.takeWhile p, b, ?_, List.all_eq_true.mp List.all_takeWhile, hpadding⟩, ?_, ?_⟩
  · rw [trim, List.append_assoc, ← hb, List.takeWhile_append_dropWhile]
  · intro c hc
    -- What is left begins as the text does behind its leading padding.
    obtain ⟨rest, hrest⟩ := List.head?_eq_some_iff.mp hc
    refine head?_dropWhile_eq_false (s := s) c ?_
    rw [hb, ← trim, hrest]
    rfl
  · exact getLast?_trimEnd_eq_false

section

variable {p : Char → Bool} {s t a b : List Char}

/-- Only one text is left. -/
theorem IsTrimmed.trim_eq (h : IsTrimmed p s t) : trim p s = t := by
  obtain ⟨a, b, rfl, ha, hb⟩ := h.around
  rw [trim, List.append_assoc, List.dropWhile_append_of_pos ha]
  cases t with
  | nil => rw [List.nil_append, List.dropWhile_eq_nil_iff.mpr hb, trimEnd_nil]
  | cons c rest =>
    have hc : p c = false := h.first c rfl
    rw [List.cons_append, List.dropWhile_cons_of_neg (by simp [hc]), ← List.cons_append,
      trimEnd_append _ hb, trimEnd_eq_self h.last]

theorem trim_eq_iff : trim p s = t ↔ IsTrimmed p s t := by
  constructor
  · rintro rfl
    exact isTrimmed_trim p s
  · exact IsTrimmed.trim_eq

/-- The same is left when more characters with the property stand around the text. -/
theorem IsTrimmed.surround (h : IsTrimmed p s t) (ha : ∀ c ∈ a, p c = true)
    (hb : ∀ c ∈ b, p c = true) : IsTrimmed p (a ++ s ++ b) t := by
  obtain ⟨a', b', rfl, ha', hb'⟩ := h.around
  refine ⟨⟨a ++ a', b' ++ b, by simp only [List.append_assoc], ?_, ?_⟩, h.first, h.last⟩
  · exact List.forall_mem_append.mpr ⟨ha, ha'⟩
  · exact List.forall_mem_append.mpr ⟨hb', hb⟩

theorem trim_surround (ha : ∀ c ∈ a, p c = true) (hb : ∀ c ∈ b, p c = true) :
    trim p (a ++ s ++ b) = trim p s :=
  ((isTrimmed_trim p s).surround ha hb).trim_eq

/-- Nothing is taken from a text that has no such character at an end. -/
theorem isTrimmed_self (hfirst : ∀ c ∈ t.head?, p c = false)
    (hlast : ∀ c ∈ t.getLast?, p c = false) : IsTrimmed p t t :=
  ⟨⟨[], [], by simp, by simp, by simp⟩, hfirst, hlast⟩

theorem trim_trim (p : Char → Bool) (s : List Char) : trim p (trim p s) = trim p s := by
  have h := isTrimmed_trim p s
  exact (isTrimmed_self h.first h.last).trim_eq

end

/-! ## One character at a time -/

/-- One character with the property is taken from either end. -/
inductive Peel (p : Char → Bool) : List Char → List Char → Prop
  | front {c : Char} {s : List Char} (h : p c = true) : Peel p (c :: s) s
  | back {c : Char} {s : List Char} (h : p c = true) : Peel p (s ++ [c]) s

section

variable {p : Char → Bool} {s s' t : List Char}

/-- What is left after a step is left before it. -/
theorem Peel.isTrimmed (hstep : Peel p s s') (h : IsTrimmed p s' t) : IsTrimmed p s t := by
  cases hstep with
  | @front c s hc => simpa using h.surround (a := [c]) (b := []) (by simpa using hc) (by simp)
  | @back c s hc => simpa using h.surround (a := []) (b := [c]) (by simp) (by simpa using hc)

/-- A text whose ends are trimmed cannot lose another character. -/
theorem forall_not_peel_iff :
    (∀ u, ¬ Peel p t u) ↔ (∀ c ∈ t.head?, p c = false) ∧ ∀ c ∈ t.getLast?, p c = false := by
  constructor
  · intro h
    refine ⟨fun c hc => ?_, fun c hc => ?_⟩
    · obtain ⟨rest, rfl⟩ := List.head?_eq_some_iff.mp hc
      exact Bool.eq_false_iff.mpr fun hp => h _ (.front hp)
    · obtain ⟨rest, rfl⟩ := List.getLast?_eq_some_iff.mp hc
      exact Bool.eq_false_iff.mpr fun hp => h _ (.back hp)
  · rintro ⟨hfirst, hlast⟩ u hpeel
    cases hpeel with
    | @front c s hc => exact absurd (hfirst c rfl) (by simp [hc])
    | @back c s hc => exact absurd (hlast c List.getLast?_concat) (by simp [hc])

theorem peel_front {a : List Char} (ha : ∀ c ∈ a, p c = true) (s : List Char) :
    Relation.ReflTransGen (Peel p) (a ++ s) s := by
  induction a with
  | nil => exact .refl
  | cons c a ih =>
    obtain ⟨hc, ha⟩ := List.forall_mem_cons.mp ha
    exact .head (.front hc) (ih ha)

theorem peel_back {b : List Char} (hb : ∀ c ∈ b, p c = true) (s : List Char) :
    Relation.ReflTransGen (Peel p) (s ++ b) s := by
  induction b using List.reverseRecOn with
  | nil => simpa using Relation.ReflTransGen.refl
  | append_singleton b c ih =>
    obtain ⟨hb, hc⟩ := List.forall_mem_append.mp hb
    rw [← List.append_assoc]
    exact .head (.back (hc c (List.mem_singleton_self c))) (ih hb)

/-- Trimming leaves what is left when characters are taken from either end, in any order, until
none can be taken. -/
theorem trim_eq_iff_peel :
    trim p s = t ↔ Relation.ReflTransGen (Peel p) s t ∧ ∀ u, ¬ Peel p t u := by
  rw [trim_eq_iff, forall_not_peel_iff]
  constructor
  · rintro ⟨⟨a, b, rfl, ha, hb⟩, hfirst, hlast⟩
    exact ⟨(peel_back hb (a ++ t)).trans (peel_front ha t), hfirst, hlast⟩
  · rintro ⟨hrun, hfirst, hlast⟩
    induction hrun using Relation.ReflTransGen.head_induction_on with
    | refl => exact isTrimmed_self hfirst hlast
    | head hstep _ ih => exact hstep.isTrimmed ih

end

/-! ## Padding -/

/-- The characters with the property White_Space. -/
def whiteSpace : List Char :=
  ['\t', '\n', '\x0B', '\x0C', '\r', ' ', '\x85', '\u00A0', '\u1680', '\u2000', '\u2001', '\u2002',
   '\u2003', '\u2004', '\u2005', '\u2006', '\u2007', '\u2008', '\u2009', '\u200A', '\u2028',
   '\u2029', '\u202F', '\u205F', '\u3000']

/-- White space and the byte order mark. -/
def paddingChars : List Char := '\uFEFF' :: whiteSpace

theorem isPadding_iff_toNat {c : Char} :
    isPadding c = true ↔ blankRanges.contains c.toNat = true ∨ c.toNat = 0xFEFF := by
  have hmark : c = '\uFEFF' ↔ c.toNat = 0xFEFF := Char.toNat_inj.symm
  rw [isPadding, Bool.or_eq_true, beq_iff_eq, hmark, isBlank]

theorem mem_paddingChars_iff {c : Char} : c ∈ paddingChars ↔ isPadding c = true := by
  have hpoints : paddingChars.map Char.toNat =
      [0xFEFF, 0x09, 0x0A, 0x0B, 0x0C, 0x0D, 0x20, 0x85, 0xA0, 0x1680, 0x2000, 0x2001, 0x2002,
       0x2003, 0x2004, 0x2005, 0x2006, 0x2007, 0x2008, 0x2009, 0x200A, 0x2028, 0x2029, 0x202F,
       0x205F, 0x3000] := by decide
  rw [← List.mem_map_of_injective (fun _ _ => Char.toNat_inj.mp), hpoints, isPadding_iff_toNat,
    blankRanges]
  simp only [List.mem_cons, List.not_mem_nil, Ranges.contains_cons, Ranges.contains_nil,
    Bool.or_eq_true, Bool.and_eq_true, decide_eq_true_eq, Bool.false_eq_true, or_false]
  omega

theorem isPadding_eq_mem : isPadding = fun c => decide (c ∈ paddingChars) := by
  funext c
  rw [Bool.eq_iff_iff, decide_eq_true_iff, mem_paddingChars_iff]

end Text

/-- Padding at either end has no part in whether a text has content. -/
theorem hasContent_surround {s a b : String} (ha : ∀ c ∈ a.toList, Text.isPadding c = true)
    (hb : ∀ c ∈ b.toList, Text.isPadding c = true) : hasContent (a ++ s ++ b) = hasContent s := by
  rw [hasContent, hasContent, String.toList_append, String.toList_append, Text.trim_surround ha hb]

/-- Trimming a submitted text takes nothing but white space and byte order marks, leaves none of
them at an end and changes nothing when done again. It leaves what any loop leaves that takes them
one by one from either end. `required` passes a text that holds one other character, and so it does
not matter to it with how much padding the text comes. -/
theorem trims_padding_from_both_ends (s : String) (pattern : EmailPattern) :
    let padding : Char → Bool := (· ∈ Text.paddingChars)
    let trimmed (text : String) := Text.trim Text.isPadding text.toList
    let passes (text : String) := Rule.required.accepts pattern (some (.string text))
    Text.IsTrimmed padding s.toList (trimmed s) ∧
    (∀ t, trimmed s = t ↔
      Relation.ReflTransGen (Text.Peel padding) s.toList t ∧ ∀ u, ¬ Text.Peel padding t u) ∧
    Text.trim Text.isPadding (trimmed s) = trimmed s ∧
    (passes s = true ↔ ∃ c ∈ s.toList, c ∉ Text.paddingChars) ∧
    ∀ a b : String, (∀ c ∈ a.toList, c ∈ Text.paddingChars) →
      (∀ c ∈ b.toList, c ∈ Text.paddingChars) →
      trimmed (a ++ s ++ b) = trimmed s ∧ passes (a ++ s ++ b) = passes s := by
  intro padding trimmed passes
  have hpadding : Text.isPadding = padding := Text.isPadding_eq_mem
  have hpasses (text : String) : passes text = hasContent text := rfl
  refine ⟨?_, ?_, Text.trim_trim _ _, ?_, ?_⟩
  · rw [← hpadding]
    exact Text.isTrimmed_trim _ _
  · intro t
    rw [← hpadding]
    exact Text.trim_eq_iff_peel
  · rw [hpasses, hasContent_eq_true_iff]
    simp only [Text.mem_paddingChars_iff, Bool.not_eq_true]
  · intro a b ha hb
    simp only [Text.mem_paddingChars_iff] at ha hb
    refine ⟨?_, ?_⟩
    · simp only [trimmed, String.toList_append, Text.trim_surround ha hb]
    · rw [hpasses, hpasses, hasContent_surround ha hb]

/-- A text with blanks inside, between a next line and a byte order mark. -/
theorem trims_padding_from_both_ends_spaced :
    let trimmed (text : String) := Text.trim Text.isPadding text.toList
    let passes (text : String) := Rule.required.accepts .html (some (.string text))
    (∀ c ∈ "\x85\t".toList, c ∈ Text.paddingChars) ∧
    (∀ c ∈ "\u3000\uFEFF".toList, c ∈ Text.paddingChars) ∧
    trimmed ("\x85\t" ++ " a\u00A0b" ++ "\u3000\uFEFF") = ['a', '\u00A0', 'b'] ∧
    passes ("\x85\t" ++ " a\u00A0b" ++ "\u3000\uFEFF") = passes " a\u00A0b" := by
  intro trimmed passes
  have hall (text : String) (h : text.toList.all (· ∈ Text.paddingChars) = true) :
      ∀ c ∈ text.toList, c ∈ Text.paddingChars := by
    simpa using h
  have hbefore := hall "\x85\t" (by decide +kernel)
  have hbehind := hall "\u3000\uFEFF" (by decide +kernel)
  obtain ⟨-, -, -, -, hsurround⟩ := trims_padding_from_both_ends " a\u00A0b" .html
  obtain ⟨htrimmed, hpasses⟩ := hsurround _ _ hbefore hbehind
  have htext : trimmed " a\u00A0b" = ['a', '\u00A0', 'b'] := by decide +kernel
  exact ⟨hbefore, hbehind, htrimmed.trans htext, hpasses⟩

end FormCheck
