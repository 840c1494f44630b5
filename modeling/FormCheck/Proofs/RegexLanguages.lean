import FormCheck.Text.Blank
import Mathlib.Computability.Language

/-!
# Regular expressions and their languages

The email checks are stated as regular expressions. `Regex` is the syntax that these use,
`Regex.written` the text of an expression, and `Regex.language` the texts that match it from the
first character to the last. A class of characters matches one character at a time, so what matches
its repetitions is known by length and by the characters that occur.
-/
namespace FormCheck
open scoped Computability

/-- An item of a class of characters. -/
inductive ClassItem where
  | char (c : Char)
  | range (first last : Char)
  | blank

namespace ClassItem

/-- Whether an item covers a character. -/
def covers : ClassItem → Char → Bool
  | char d, c => c == d
  | range first last, c => first ≤ c && c ≤ last
  | blank, c => Text.isBlank c

/-- The text of an item. -/
def written : ClassItem → String
  | char c => c.toString
  | range first last => first.toString ++ "-" ++ last.toString
  | blank => "\\s"

end ClassItem

/-- A class of characters: those that an item covers, or those that none does. -/
structure CharClass where
  items : List ClassItem
  negated : Bool := false

namespace CharClass

/-- Whether a character belongs to the class. -/
def contains (cls : CharClass) (c : Char) : Bool :=
  cls.negated != cls.items.any fun item => item.covers c

/-- The text of a class. -/
def written (cls : CharClass) : String :=
  (if cls.negated then "[^" else "[") ++ String.join (cls.items.map ClassItem.written) ++ "]"

end CharClass

/-- A regular expression. -/
inductive Regex where
  | char (c : Char)
  | oneOf (cls : CharClass)
  | seq (r s : Regex)
  /-- Once or not at all. -/
  | optional (r : Regex)
  /-- Any number of times. -/
  | many (r : Regex)
  /-- At least once. -/
  | several (r : Regex)
  /-- At most so many times. -/
  | atMost (n : Nat) (r : Regex)

namespace Regex

/-- The text of what an operator applies to. -/
def grouped (r : Regex) (text : String) : String :=
  match r with
  | seq _ _ => "(?:" ++ text ++ ")"
  | _ => text

/-- The text of an expression. -/
def written : Regex → String
  | char c => if c.isAlphanum || c == '@' then c.toString else "\\" ++ c.toString
  | oneOf cls => cls.written
  | seq r s => r.written ++ s.written
  | optional r => r.grouped r.written ++ "?"
  | many r => r.grouped r.written ++ "*"
  | several r => r.grouped r.written ++ "+"
  | atMost n r => r.grouped r.written ++ "\x7b0," ++ Nat.repr n ++ "\x7d"

/-- The texts that match an expression from end to end. -/
def language : Regex → Language Char
  | char c => {[c]}
  | oneOf cls => {s | ∃ c, cls.contains c = true ∧ s = [c]}
  | seq r s => r.language * s.language
  | optional r => 1 + r.language
  | many r => r.language∗
  | several r => r.language * r.language∗
  | atMost n r => {s | ∃ k ≤ n, s ∈ r.language ^ k}

theorem mem_language_char {c : Char} {s : List Char} : s ∈ (char c).language ↔ s = [c] := Iff.rfl

theorem mem_language_seq {p q : Regex} {s : List Char} :
    s ∈ (seq p q).language ↔ ∃ a ∈ p.language, ∃ b ∈ q.language, a ++ b = s :=
  Language.mem_mul

theorem mem_language_optional {p : Regex} {s : List Char} :
    s ∈ (optional p).language ↔ s = [] ∨ s ∈ p.language := Iff.rfl

theorem mem_language_many {p : Regex} {s : List Char} :
    s ∈ (many p).language ↔
      ∃ words : List (List Char), s = words.flatten ∧ ∀ word ∈ words, word ∈ p.language :=
  Language.mem_kstar

/-- A character in front of an expression. -/
theorem mem_language_char_seq {c : Char} {p : Regex} {s : List Char} :
    s ∈ (seq (char c) p).language ↔ ∃ rest ∈ p.language, s = c :: rest := by
  simp only [mem_language_seq, mem_language_char, exists_eq_left, List.singleton_append, eq_comm]

/-- So many characters of a class. -/
theorem mem_language_oneOf_pow {cls : CharClass} {n : Nat} {s : List Char} :
    s ∈ (oneOf cls).language ^ n ↔ s.length = n ∧ ∀ c ∈ s, cls.contains c = true := by
  induction n generalizing s with
  | zero =>
    rw [pow_zero, Language.mem_one, List.length_eq_zero_iff]
    constructor
    · rintro rfl
      simp
    · exact fun h => h.1
  | succ n ih =>
    rw [pow_succ', Language.mem_mul]
    constructor
    · rintro ⟨_, ⟨c, hc, rfl⟩, rest, hrest, rfl⟩
      obtain ⟨hlength, hall⟩ := ih.mp hrest
      refine ⟨by simp [hlength], ?_⟩
      simpa [hc] using hall
    · rintro ⟨hlength, hall⟩
      cases s with
      | nil => cases hlength
      | cons c rest =>
        rw [List.forall_mem_cons] at hall
        have hrest := ih.mpr ⟨by simpa using hlength, hall.2⟩
        exact ⟨[c], ⟨c, hall.1, rfl⟩, rest, hrest, rfl⟩

/-- Any number of characters of a class. -/
theorem mem_language_many_oneOf {cls : CharClass} {s : List Char} :
    s ∈ (many (oneOf cls)).language ↔ ∀ c ∈ s, cls.contains c = true := by
  rw [language, Language.kstar_eq_iSup_pow, Language.mem_iSup]
  simp only [mem_language_oneOf_pow, exists_eq_left']

/-- At least one character of a class. -/
theorem mem_language_several_oneOf {cls : CharClass} {s : List Char} :
    s ∈ (several (oneOf cls)).language ↔ s ≠ [] ∧ ∀ c ∈ s, cls.contains c = true := by
  constructor
  · rintro ⟨_, ⟨c, hc, rfl⟩, rest, hrest, rfl⟩
    have hall := mem_language_many_oneOf.mp hrest
    exact ⟨List.cons_ne_nil c rest, List.forall_mem_cons.mpr ⟨hc, hall⟩⟩
  · rintro ⟨hne, hall⟩
    cases s with
    | nil => exact absurd rfl hne
    | cons c rest =>
      rw [List.forall_mem_cons] at hall
      have hrest : rest ∈ (many (oneOf cls)).language := mem_language_many_oneOf.mpr hall.2
      exact ⟨[c], ⟨c, hall.1, rfl⟩, rest, hrest, rfl⟩

/-- At most so many characters of a class. -/
theorem mem_language_atMost_oneOf {cls : CharClass} {n : Nat} {s : List Char} :
    s ∈ (atMost n (oneOf cls)).language ↔ s.length ≤ n ∧ ∀ c ∈ s, cls.contains c = true := by
  constructor
  · rintro ⟨k, hk, hs⟩
    obtain ⟨hlength, hall⟩ := mem_language_oneOf_pow.mp hs
    exact ⟨by omega, hall⟩
  · rintro ⟨hlength, hall⟩
    exact ⟨s.length, hlength, mem_language_oneOf_pow.mpr ⟨rfl, hall⟩⟩

end Regex
end FormCheck
