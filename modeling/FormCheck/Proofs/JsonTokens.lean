import FormCheck.Json.Parser
import FormCheck.Json.Printer
import Mathlib.Tactic.SplitIfs

/-!
# Reading back texts and numerals

A text in quotes is read back as it was, whatever characters it has: each character is escaped on
its own, and what an escape stands for is that character again. A numeral is read back if it is
written as numerals are, and if what stands behind it cannot go on with it.
-/
namespace FormCheck

namespace Json

/-! ## Texts -/

/-- The parts that the reader may see in place of a character. -/
def StandsFor (part : Unit16) (c : Char) : Prop :=
  part = .char c ∨ part = .unit c.toNat ∧ c.toNat < 0x20

theorem readUnits_short {letter c : Char} (h : shortEscape? letter = some c) (s : List Char) :
    readUnits ('\\' :: letter :: s) = (readUnits s).map fun r => (.char c :: r.1, r.2) := by
  have hu : letter ≠ 'u' := by
    rintro rfl
    simp [shortEscape?] at h
  rw [readUnits.eq_def]
  split
  · simp_all
  · simp_all
  · simp_all
  · rename_i heq
    cases heq
    rw [h, Option.map_eq_bind]
    rfl
  · rename_i hescape heq
    cases heq
    exact absurd rfl (hescape letter s rfl)

theorem hexNumber?_control : ∀ n < 0x20,
    Text.hexNumber? ['0', '0', hexDigit (n / 16), hexDigit (n % 16)] = some n := by
  decide

theorem readUnits_control {c : Char} (h : c.toNat < 0x20) (s : List Char) :
    readUnits ('\\' :: 'u' :: '0' :: '0' :: hexDigit (c.toNat / 16) :: hexDigit (c.toNat % 16) ::
        s) = (readUnits s).map fun r => (.unit c.toNat :: r.1, r.2) := by
  rw [readUnits, hexNumber?_control c.toNat h, Option.map_eq_bind]
  rfl

theorem readUnits_plain {c : Char} (hquote : c ≠ '"') (hslash : c ≠ '\\')
    (hcontrol : ¬c.toNat < 0x20) (s : List Char) :
    readUnits (c :: s) = (readUnits s).map fun r => (.char c :: r.1, r.2) := by
  rw [readUnits.eq_def]
  -- All alternatives but the last begin with a quote or a backslash.
  split
  · simp_all
  · simp_all
  · simp_all
  · simp_all
  · rename_i heq
    obtain ⟨rfl, rfl⟩ := List.cons.inj heq
    rw [if_neg (by simp [hcontrol, hslash]), Option.map_eq_bind]
    rfl

/-- An escaped character is read as one part that stands for it. -/
theorem readUnits_escape (c : Char) (s : List Char) :
    ∃ part, StandsFor part c ∧
      readUnits (escape c ++ s) = (readUnits s).map fun r => (part :: r.1, r.2) := by
  have hshort (letter : Char) (h : shortEscape? letter = some c) :
      ∃ part, StandsFor part c ∧
        readUnits ('\\' :: letter :: s) = (readUnits s).map fun r => (part :: r.1, r.2) :=
    ⟨.char c, .inl rfl, readUnits_short h s⟩
  unfold escape
  split_ifs with hquote hslash hb hf hn hr ht hcontrol
  · exact hshort '"' (by rw [hquote]; rfl)
  · exact hshort '\\' (by rw [hslash]; rfl)
  · exact hshort 'b' (by rw [hb]; rfl)
  · exact hshort 'f' (by rw [hf]; rfl)
  · exact hshort 'n' (by rw [hn]; rfl)
  · exact hshort 'r' (by rw [hr]; rfl)
  · exact hshort 't' (by rw [ht]; rfl)
  · exact ⟨.unit c.toNat, .inr ⟨rfl, hcontrol⟩, readUnits_control hcontrol s⟩
  · exact ⟨.char c, .inl rfl, readUnits_plain hquote hslash hcontrol s⟩

/-- A part that stands for a character is no half of a surrogate pair. -/
theorem joinPairs?_cons {part : Unit16} {c : Char} (h : StandsFor part c) (parts : List Unit16) :
    joinPairs? (part :: parts) = (joinPairs? parts).map (c :: ·) := by
  rcases h with rfl | ⟨rfl, hlt⟩
  · rw [joinPairs?]
  · have hhigh : isHigh c.toNat = false := by simp [isHigh]; omega
    have hlow : isLow c.toNat = false := by simp [isLow]; omega
    cases parts with
    | nil => simp [joinPairs?, hhigh, hlow]
    | cons next rest =>
      cases next with
      | char d => simp [joinPairs?, hhigh, hlow]
      | unit n => simp [joinPairs?, hhigh, hlow]

theorem readUnits_flatMap_escape (s rest : List Char) :
    ∃ parts, readUnits (s.flatMap escape ++ '"' :: rest) = some (parts, rest) ∧
      joinPairs? parts = some s := by
  induction s with
  | nil => exact ⟨[], rfl, rfl⟩
  | cons c s ih =>
    obtain ⟨parts, hread, hjoin⟩ := ih
    obtain ⟨part, hpart, hescape⟩ := readUnits_escape c (s.flatMap escape ++ '"' :: rest)
    refine ⟨part :: parts, ?_, ?_⟩
    · rw [List.flatMap_cons, List.append_assoc, hescape, hread, Option.map_some]
    · rw [joinPairs?_cons hpart, hjoin, Option.map_some]

theorem quote_some (s : String) : quote (some s) = '"' :: s.toList.flatMap escape ++ ['"'] := rfl

theorem quote_none : quote none = ['"', '\\', 'u', 'd', '8', '0', '0', '"'] := by
  have h : quote none = "\"\\ud800\"".toList := rfl
  rw [h]
  simp

/-- A text in quotes is read back, and so is the lone half of a surrogate pair. -/
theorem readText_quote (s : JsonText) (rest : List Char) :
    ∃ body, quote s ++ rest = '"' :: body ∧ readText body = some (s, rest) := by
  cases s with
  | none =>
    have hlone : Text.hexNumber? ['d', '8', '0', '0'] = some 0xD800 := by decide
    refine ⟨'\\' :: 'u' :: 'd' :: '8' :: '0' :: '0' :: '"' :: rest, by rw [quote_none]; rfl, ?_⟩
    rw [readText, readUnits, hlone]
    rfl
  | some s =>
    obtain ⟨parts, hread, hjoin⟩ := readUnits_flatMap_escape s.toList rest
    refine ⟨s.toList.flatMap escape ++ '"' :: rest, by simp [quote_some], ?_⟩
    rw [readText, hread, Option.map_some, hjoin, Option.map_some, String.ofList_toList]

/-! ## Numerals -/

/-- No digit stands at the front of a text. -/
def EndsDigits (s : List Char) : Prop := ∀ c ∈ s.head?, c.isDigit = false

/-- What stands at the front of a text cannot be part of a numeral before it. -/
def EndsNumeral (s : List Char) : Prop :=
  ∀ c ∈ s.head?, c.isDigit = false ∧ c ≠ '.' ∧ c ≠ 'e' ∧ c ≠ 'E'

theorem EndsNumeral.endsDigits {s : List Char} (h : EndsNumeral s) : EndsDigits s :=
  fun c hc => (h c hc).1

theorem readDigits_append {digits s : List Char} (hne : digits ≠ [])
    (hdigits : ∀ c ∈ digits, c.isDigit = true) (hs : EndsDigits s) :
    readDigits (digits ++ s) = some (digits, s) := by
  have hrest : s.takeWhile Char.isDigit = [] ∧ s.dropWhile Char.isDigit = s := by
    cases s with
    | nil => exact ⟨rfl, rfl⟩
    | cons c s =>
      have hc : c.isDigit = false := hs c rfl
      simp [hc]
  rw [readDigits, List.takeWhile_append_of_pos hdigits, List.dropWhile_append_of_pos hdigits,
    hrest.1, hrest.2, List.append_nil, if_neg (by simpa using hne)]

theorem readDigits_toDigits (n : Nat) {s : List Char} (hs : EndsDigits s) :
    readDigits (Nat.toDigits 10 n ++ s) = some (Nat.toDigits 10 n, s) := by
  refine readDigits_append (List.length_pos_iff.mp Nat.length_toDigits_pos) ?_ hs
  intro c hc
  exact Nat.isDigit_of_mem_toDigits (by decide) (by decide) hc

theorem readExponent_append (exponent : Option Int) {s : List Char} (hs : EndsNumeral s) :
    readExponent (Numeral.exponentChars exponent ++ s) = some (exponent, s) := by
  cases exponent with
  | none =>
    rw [Numeral.exponentChars, List.nil_append, readExponent.eq_def]
    split
    · exact absurd rfl (hs _ rfl).2.2.1
    · exact absurd rfl (hs _ rfl).2.2.2
    · rfl
  | some e =>
    have hread := readDigits_toDigits e.natAbs hs.endsDigits
    have hvalue : Nat.ofDigitChars 10 (Nat.toDigits 10 e.natAbs) 0 = e.natAbs :=
      Nat.ofDigitChars_ten_toDigits
    by_cases h : e < 0
    · have he : -(e.natAbs : Int) = e := by omega
      rw [Numeral.exponentChars, if_pos h]
      simp only [List.cons_append, readExponent, readSignedExponent, hread, Option.map_some, hvalue,
        he]
    · have he : (e.natAbs : Int) = e := by omega
      rw [Numeral.exponentChars, if_neg h]
      simp only [List.cons_append, readExponent, readSignedExponent, hread, Option.map_some, hvalue,
        he]

end Json

namespace Numeral

/-- The form in which numerals are written: no zero in front of other digits. -/
structure WellFormed (n : Numeral) : Prop where
  whole_ne_nil : n.whole ≠ []
  whole_digits : ∀ c ∈ n.whole, c.isDigit = true
  leading_zero : n.whole.head? = some '0' → n.whole = ['0']
  fraction_digits : ∀ c ∈ n.fraction, c.isDigit = true

end Numeral

namespace Json

theorem readWhole_append {n : Numeral} (h : n.WellFormed) {s : List Char} (hs : EndsDigits s) :
    readWhole (n.whole ++ s) = some (n.whole, s) := by
  by_cases hzero : n.whole.head? = some '0'
  · rw [h.leading_zero hzero]
    rfl
  · have hread := readDigits_append h.whole_ne_nil h.whole_digits hs
    rw [readWhole.eq_def]
    split
    · rename_i rest heq
      obtain ⟨c, digits, hwhole⟩ := List.exists_cons_of_ne_nil h.whole_ne_nil
      rw [hwhole] at heq hzero
      exact absurd (congrArg some (List.cons.inj heq).1) hzero
    · exact hread

/-- The text of the digits behind the point, with the point. -/
def fractionChars (digits : List Char) : List Char :=
  if digits.isEmpty then [] else '.' :: digits

theorem readFraction_append {digits s : List Char} (hdigits : ∀ c ∈ digits, c.isDigit = true)
    (hs : ∀ c ∈ s.head?, c.isDigit = false ∧ c ≠ '.') :
    readFraction (fractionChars digits ++ s) = some (digits, s) := by
  cases digits with
  | nil =>
    rw [fractionChars, List.isEmpty_nil, if_pos rfl, List.nil_append, readFraction.eq_def]
    split
    · exact absurd rfl (hs _ rfl).2
    · rfl
  | cons d digits =>
    exact readDigits_append (List.cons_ne_nil d digits) hdigits fun c hc => (hs c hc).1

/-- Behind the digits of a numeral comes its exponent or something else, but no digit or point. -/
theorem head_exponentChars_append (exponent : Option Int) {s : List Char} (hs : EndsNumeral s) :
    ∀ c ∈ (Numeral.exponentChars exponent ++ s).head?, c.isDigit = false ∧ c ≠ '.' := by
  cases exponent with
  | none => exact fun c hc => ⟨(hs c hc).1, (hs c hc).2.1⟩
  | some e =>
    intro c hc
    obtain rfl : 'e' = c := by simpa [Numeral.exponentChars] using hc
    decide

theorem endsDigits_fractionChars_append (digits : List Char) {s : List Char} (hs : EndsDigits s) :
    EndsDigits (fractionChars digits ++ s) := by
  cases digits with
  | nil => exact hs
  | cons d digits =>
    intro c hc
    obtain rfl : '.' = c := by simpa [fractionChars] using hc
    decide

theorem readUnsigned_append {n : Numeral} (h : n.WellFormed) {s : List Char} (hs : EndsNumeral s) :
    readUnsigned n.negative
        (n.whole ++ (fractionChars n.fraction ++ (Numeral.exponentChars n.exponent ++ s))) =
      some (n, s) := by
  have hexponent := readExponent_append n.exponent hs
  have hhead := head_exponentChars_append n.exponent hs
  have hfraction := readFraction_append h.fraction_digits hhead
  have hdigits := endsDigits_fractionChars_append n.fraction fun c hc => (hhead c hc).1
  have hwhole := readWhole_append h hdigits
  simp [readUnsigned, hwhole, hfraction, hexponent]

/-- A numeral begins with its sign or a digit. -/
theorem exists_chars_eq_cons {n : Numeral} (h : n.WellFormed) :
    ∃ c s, n.chars = c :: s ∧ (c = '-' ∨ c.isDigit = true) := by
  rw [Numeral.chars, List.append_assoc, List.append_assoc]
  cases n.negative with
  | true => exact ⟨'-', _, rfl, .inl rfl⟩
  | false =>
    obtain ⟨c, digits, hwhole⟩ := List.exists_cons_of_ne_nil h.whole_ne_nil
    rw [hwhole]
    exact ⟨c, _, rfl, .inr (h.whole_digits c (hwhole ▸ List.mem_cons_self))⟩

/-- A numeral in its written form is read back. -/
theorem readNumeral_chars {n : Numeral} (h : n.WellFormed) {s : List Char} (hs : EndsNumeral s) :
    readNumeral (n.chars ++ s) = some (n, s) := by
  have hread := readUnsigned_append h hs
  have hchars : n.chars ++ s = (if n.negative then ['-'] else []) ++
      (n.whole ++ (fractionChars n.fraction ++ (Numeral.exponentChars n.exponent ++ s))) := by
    simp [Numeral.chars, fractionChars]
  rw [hchars]
  cases hsign : n.negative with
  | true =>
    rw [hsign] at hread
    exact hread
  | false =>
    rw [hsign] at hread
    obtain ⟨c, digits, hwhole⟩ := List.exists_cons_of_ne_nil h.whole_ne_nil
    have hdigit : c.isDigit = true := h.whole_digits c (hwhole ▸ List.mem_cons_self)
    rw [if_neg (by simp), List.nil_append, readNumeral.eq_def]
    split
    · rename_i rest heq
      rw [hwhole] at heq
      obtain rfl := (List.cons.inj heq).1
      exact absurd hdigit (by decide)
    · exact hread

end Json
end FormCheck
