import FormCheck.Proofs.Digits
import FormCheck.Rule.Basic
import Mathlib.Tactic.SplitIfs

/-!
# Tokens that are rules

A token is a rule if it is one of two words, or `min:` and a decimal number of at most 64 bits. The
number is built digit by digit, and every step is checked against the width. Digits never make a
number smaller, so a check fails on the way only if the whole number is too large; leading zeros do
not matter.
-/
namespace FormCheck

namespace Rule

/-- Digits are read to the number they denote, whatever was read before them, and not at all if that
number has more than 64 bits. -/
theorem foldlM_pushDigit?_eq_some_iff {digits : List Char} {n m : UInt64} :
    digits.foldlM pushDigit? n = some m ↔
      (∀ c ∈ digits, c.isDigit = true) ∧ Nat.ofDigitChars 10 digits n.toNat = m.toNat := by
  induction digits generalizing n with
  | nil => simp [UInt64.toNat_inj]
  | cons c digits ih =>
    rw [List.foldlM_cons, Nat.ofDigitChars_cons, List.forall_mem_cons]
    constructor
    · intro h
      obtain ⟨next, hnext, hrest⟩ := Option.bind_eq_some_iff.mp h
      obtain ⟨hc, hvalue⟩ := pushDigit?_eq_some_iff.mp hnext
      obtain ⟨hdigits, hm⟩ := ih.mp hrest
      exact ⟨⟨hc, hdigits⟩, by rw [hvalue, hm]⟩
    · rintro ⟨⟨hc, hdigits⟩, hm⟩
      -- What is read so far is at most the final number, so it fits as well.
      have hle := le_ofDigitChars digits (10 * n.toNat + (c.toNat - '0'.toNat))
      have hlt : 10 * n.toNat + (c.toNat - '0'.toNat) < UInt64.size :=
        calc
          _ ≤ m.toNat := hm ▸ hle
          _ < UInt64.size := m.toNat_lt
      have hnext : pushDigit? n c = some (UInt64.ofNatLT _ hlt) :=
        pushDigit?_eq_some_iff.mpr ⟨hc, (UInt64.toNat_ofNatLT ..).symm⟩
      rw [hnext]
      exact ih.mpr ⟨hdigits, by rw [UInt64.toNat_ofNatLT, hm]⟩

/-- Decimal digits, at least one, that stand for a number. -/
structure IsNumeral (digits : List Char) (n : Nat) : Prop where
  ne_nil : digits ≠ []
  isDigit : ∀ c ∈ digits, c.isDigit = true
  value : Nat.ofDigitChars 10 digits 0 = n

theorem IsNumeral.plus_notMem {digits : List Char} {n : Nat} (h : IsNumeral digits n) :
    '+' ∉ digits := fun hmem => absurd (h.isDigit '+' hmem) (by decide)

/-- A number is written in digits, and at most one plus sign may stand in front. -/
theorem count?_eq_some_iff {s : List Char} {n : UInt64} :
    count? s = some n ↔ ∃ digits, IsNumeral digits n.toNat ∧ (s = digits ∨ s = '+' :: digits) := by
  have hread (digits : List Char) :
      (if digits.isEmpty then none else digits.foldlM pushDigit? 0) = some n ↔
        IsNumeral digits n.toNat := by
    by_cases hnil : digits = []
    · simp only [hnil, List.isEmpty_nil, if_true, reduceCtorEq, false_iff]
      exact fun h => h.ne_nil rfl
    · rw [if_neg (by simpa using hnil), foldlM_pushDigit?_eq_some_iff]
      exact ⟨fun h => ⟨hnil, h.1, h.2⟩, fun h => ⟨h.isDigit, h.value⟩⟩
  simp only [count?, hread]
  split
  · rename_i rest
    constructor
    · exact fun h => ⟨rest, h, .inr rfl⟩
    · rintro ⟨digits, h, hs | hs⟩
      · exact absurd (hs ▸ List.mem_cons_self) h.plus_notMem
      · rwa [(List.cons.inj hs).2]
  · rename_i hsign
    constructor
    · exact fun h => ⟨s, h, .inl rfl⟩
    · rintro ⟨digits, h, rfl | rfl⟩
      · exact h
      · exact absurd rfl (hsign digits)

/-- A token that asks for at least `n` units: behind `min:` an optional plus sign and digits. -/
def WritesMinimum (token : String) (n : Nat) : Prop :=
  ∃ sign digits : String, token = "min:" ++ sign ++ digits ∧ (sign = "" ∨ sign = "+") ∧
    IsNumeral digits.toList n

theorem writesMinimum_iff {token : String} {n : Nat} :
    WritesMinimum token n ↔ ∃ s digits, token.toList = 'm' :: 'i' :: 'n' :: ':' :: s ∧
      IsNumeral digits n ∧ (s = digits ∨ s = '+' :: digits) := by
  constructor
  · rintro ⟨sign, digits, rfl, rfl | rfl, h⟩
    · exact ⟨digits.toList, digits.toList, by simp, h, .inl rfl⟩
    · exact ⟨'+' :: digits.toList, digits.toList, by simp, h, .inr rfl⟩
  · rintro ⟨s, digits, htoken, h, rfl | rfl⟩
    · refine ⟨"", String.ofList s, ?_, .inl rfl, by simpa using h⟩
      apply String.toList_inj.mp
      simp [htoken]
    · refine ⟨"+", String.ofList digits, ?_, .inr rfl, by simpa using h⟩
      apply String.toList_inj.mp
      simp [htoken]

/-- A token asks for one number of units only. -/
theorem WritesMinimum.unique {token : String} {m n : Nat} (hm : WritesMinimum token m)
    (hn : WritesMinimum token n) : m = n := by
  obtain ⟨s, digits, htoken, hm, hs⟩ := writesMinimum_iff.mp hm
  obtain ⟨s', digits', htoken', hn, hs'⟩ := writesMinimum_iff.mp hn
  have heq : s = s' := by simpa [htoken] using htoken'
  have hdigits : digits = digits' := by
    rcases hs with rfl | rfl
    · rcases hs' with rfl | rfl
      · exact heq
      · exact absurd (heq ▸ List.mem_cons_self) hm.plus_notMem
    · rcases hs' with rfl | rfl
      · exact absurd (heq ▸ List.mem_cons_self) hn.plus_notMem
      · exact (List.cons.inj heq).2
  rw [← hm.value, hdigits, hn.value]

/-- A rule without a number is written in one way. -/
theorem parse_eq_some_iff_of_ne_min {token : String} {rule : Rule} (h : ∀ n, rule ≠ min n) :
    parse token = some rule ↔ token = rule.token := by
  constructor
  · intro hparse
    unfold parse ofChars? at hparse
    split at hparse
    · obtain ⟨n, -, rfl⟩ := Option.map_eq_some_iff.mp hparse
      exact absurd rfl (h n)
    · split at hparse
      · cases hparse
        exact String.toList_inj.mp ‹_›
      · split at hparse
        · cases hparse
          exact String.toList_inj.mp ‹_›
        · cases hparse
  · rintro rfl
    cases rule with
    | required => decide
    | email => decide
    | min n => exact absurd rfl (h n)

theorem parse_eq_required_iff {token : String} :
    parse token = some required ↔ token = "required" :=
  parse_eq_some_iff_of_ne_min fun _ => Rule.noConfusion

theorem parse_eq_email_iff {token : String} : parse token = some email ↔ token = "email" :=
  parse_eq_some_iff_of_ne_min fun _ => Rule.noConfusion

theorem parse_eq_min_iff {token : String} {n : UInt64} :
    parse token = some (min n) ↔ WritesMinimum token n.toNat := by
  rw [writesMinimum_iff]
  unfold parse ofChars?
  split
  · rename_i s htoken
    rw [Option.map_eq_some_iff]
    constructor
    · rintro ⟨m, hcount, hm⟩
      obtain ⟨digits, h, hs⟩ := count?_eq_some_iff.mp (Rule.min.inj hm ▸ hcount)
      exact ⟨s, digits, htoken, h, hs⟩
    · rintro ⟨s', digits, htoken', h, hs⟩
      have heq : s = s' := by simpa [htoken'] using htoken.symm
      exact ⟨n, count?_eq_some_iff.mpr ⟨digits, h, heq ▸ hs⟩, rfl⟩
  · rename_i hmin
    constructor
    · split_ifs
      all_goals simp
    · rintro ⟨s, digits, htoken, -⟩
      exact absurd htoken (hmin s)

theorem parse_eq_min_of_lt {token : String} {n : Nat} (hmin : WritesMinimum token n)
    (hlt : n < UInt64.size) : parse token = some (min (UInt64.ofNatLT n hlt)) := by
  rw [parse_eq_min_iff, UInt64.toNat_ofNatLT]
  exact hmin

/-- A number of more than 64 bits is refused. -/
theorem parse_eq_none_of_le {token : String} {n : Nat} (hmin : WritesMinimum token n)
    (hle : UInt64.size ≤ n) : parse token = none := by
  obtain ⟨s, digits, htoken, -⟩ := writesMinimum_iff.mp hmin
  rw [Option.eq_none_iff_forall_ne_some]
  intro rule h
  cases rule with
  | required => simp [parse_eq_required_iff.mp h] at htoken
  | email => simp [parse_eq_email_iff.mp h] at htoken
  | min m =>
    have hlt : n < UInt64.size := hmin.unique (parse_eq_min_iff.mp h) ▸ m.toNat_lt
    exact absurd hle (Nat.not_le.mpr hlt)

/-- The characters of a token that is a rule. -/
theorem isAlphanum_of_mem {token : String} {rule : Rule} {c : Char} (h : parse token = some rule)
    (hc : c ∈ token.toList) : c.isAlphanum = true ∨ c = ':' ∨ c = '+' := by
  cases rule with
  | required =>
    have hword : "required".toList.all Char.isAlphanum = true := by decide
    exact .inl (List.all_eq_true.mp hword c (parse_eq_required_iff.mp h ▸ hc))
  | email =>
    have hword : "email".toList.all Char.isAlphanum = true := by decide
    exact .inl (List.all_eq_true.mp hword c (parse_eq_email_iff.mp h ▸ hc))
  | min n =>
    obtain ⟨s, digits, htoken, hnumeral, hs⟩ := writesMinimum_iff.mp (parse_eq_min_iff.mp h)
    have hdigit : c ∈ digits → c.isAlphanum = true := fun hmem => by
      rw [Char.isAlphanum, hnumeral.isDigit c hmem, Bool.or_true]
    have hstart : ['m', 'i', 'n'].all Char.isAlphanum = true := by decide
    rw [htoken, show 'm' :: 'i' :: 'n' :: ':' :: s = ['m', 'i', 'n'] ++ ':' :: s from rfl] at hc
    rcases List.mem_append.mp hc with hletter | hc
    · exact .inl (List.all_eq_true.mp hstart c hletter)
    · rcases List.mem_cons.mp hc with hcolon | hc
      · exact .inr (.inl hcolon)
      · rcases hs with rfl | rfl
        · exact .inl (hdigit hc)
        · rcases List.mem_cons.mp hc with hplus | hc
          · exact .inr (.inr hplus)
          · exact .inl (hdigit hc)

/-- The first character tells the kind of rule. -/
theorem head?_of_parse {token : String} {rule : Rule} (h : parse token = some rule) :
    token.toList.head? = rule.token.toList.head? := by
  cases rule with
  | required => rw [parse_eq_required_iff.mp h, Rule.token]
  | email => rw [parse_eq_email_iff.mp h, Rule.token]
  | min n =>
    obtain ⟨s, digits, htoken, -⟩ := writesMinimum_iff.mp (parse_eq_min_iff.mp h)
    rw [htoken, Rule.token, String.toList_append]
    rfl

/-- Nothing may follow a rule but digits, behind those of a minimum. -/
theorem isDigit_of_parse_append {token more : String} {rule rule' : Rule}
    (h : parse token = some rule) (h' : parse (token ++ more) = some rule') :
    ∀ c ∈ more.toList, c.isDigit = true := by
  have hhead : rule.token.toList.head? = rule'.token.toList.head? := by
    have hne : token.toList ≠ [] := by
      intro hnil
      rw [parse, hnil] at h
      cases h
    rw [← head?_of_parse h, ← head?_of_parse h', String.toList_append, List.head?_append,
      List.head?_eq_some_head hne, Option.some_or]
  have hword (word : String) (heq : token = word) (heq' : token ++ more = word) :
      ∀ c ∈ more.toList, c.isDigit = true := by
    have hmore : more = "" := by simpa [heq] using heq'
    simp [hmore]
  cases rule with
  | required =>
    cases rule' with
    | required => exact hword _ (parse_eq_required_iff.mp h) (parse_eq_required_iff.mp h')
    | email => exact absurd hhead (by decide)
    | min n => simp [Rule.token] at hhead
  | email =>
    cases rule' with
    | required => exact absurd hhead (by decide)
    | email => exact hword _ (parse_eq_email_iff.mp h) (parse_eq_email_iff.mp h')
    | min n => simp [Rule.token] at hhead
  | min n =>
    cases rule' with
    | required => simp [Rule.token] at hhead
    | email => simp [Rule.token] at hhead
    | min m =>
      obtain ⟨s, digits, htoken, hnumeral, hs⟩ := writesMinimum_iff.mp (parse_eq_min_iff.mp h)
      obtain ⟨s', digits', htoken', hnumeral', hs'⟩ :=
        writesMinimum_iff.mp (parse_eq_min_iff.mp h')
      have heq : s ++ more.toList = s' := by simpa [htoken] using htoken'
      have hne : s ≠ [] := by
        rcases hs with rfl | rfl
        · exact hnumeral.ne_nil
        · exact List.cons_ne_nil _ _
      intro c hc
      -- A plus sign could only be the first character, and that belongs to the token.
      have htail : c ∈ s'.tail := by
        rw [← heq, List.tail_append_of_ne_nil hne]
        exact List.mem_append_right _ hc
      rcases hs' with rfl | rfl
      · exact hnumeral'.isDigit c (List.mem_of_mem_tail htail)
      · exact hnumeral'.isDigit c htail

/-- A token is a rule if it is the word `required`, the word `email`, or `min:` with an optional
plus sign and digits that stand for a number of at most 64 bits, and in no other case. Larger
numbers are refused, as is any other character at any place and what follows a rule other than
digits. -/
theorem parse_accepts_grammar (token : String) :
    (parse token = some required ↔ token = "required") ∧
    (parse token = some email ↔ token = "email") ∧
    (∀ n, parse token = some (min n) ↔ WritesMinimum token n.toNat) ∧
    (parse token = none ↔
      token ≠ "required" ∧ token ≠ "email" ∧ ∀ n, WritesMinimum token n → UInt64.size ≤ n) ∧
    (∀ n, WritesMinimum token n → UInt64.size ≤ n → parse token = none) ∧
    (∀ c ∈ token.toList, c.isAlphanum = false → c ≠ ':' → c ≠ '+' → parse token = none) ∧
    ∀ rule more, parse token = some rule → ¬ (∀ c ∈ more.toList, c.isDigit = true) →
      parse (token ++ more) = none := by
  refine ⟨parse_eq_required_iff, parse_eq_email_iff, fun n => parse_eq_min_iff, ?_, ?_, ?_, ?_⟩
  · constructor
    · intro h
      refine ⟨?_, ?_, ?_⟩
      · intro hword
        rw [parse_eq_required_iff.mpr hword] at h
        cases h
      · intro hword
        rw [parse_eq_email_iff.mpr hword] at h
        cases h
      · intro n hn
        refine Nat.le_of_not_lt fun hlt => ?_
        rw [parse_eq_min_of_lt hn hlt] at h
        cases h
    · rintro ⟨hrequired, hemail, hmin⟩
      rw [Option.eq_none_iff_forall_ne_some]
      intro rule h
      cases rule with
      | required => exact hrequired (parse_eq_required_iff.mp h)
      | email => exact hemail (parse_eq_email_iff.mp h)
      | min n => exact absurd n.toNat_lt (Nat.not_lt.mpr (hmin _ (parse_eq_min_iff.mp h)))
  · exact fun n => parse_eq_none_of_le
  · intro c hc halphanum hcolon hplus
    rw [Option.eq_none_iff_forall_ne_some]
    intro rule h
    rcases isAlphanum_of_mem h hc with hletter | rfl | rfl
    · rw [halphanum] at hletter
      cases hletter
    · exact hcolon rfl
    · exact hplus rfl
  · intro rule more h hmore
    rw [Option.eq_none_iff_forall_ne_some]
    intro rule' h'
    exact hmore (isDigit_of_parse_append h h')

/-- A plus sign and leading zeros, the largest number of 64 bits and the next one, a minus sign, and
a letter behind the digits. -/
theorem parse_accepts_grammar_signs :
    parse "min:+007" = some (min 7) ∧
    parse "min:0018446744073709551615" = some (min 18446744073709551615) ∧
    (WritesMinimum "min:18446744073709551616" UInt64.size ∧
      parse "min:18446744073709551616" = none) ∧
    ('-' ∈ "min:-0".toList ∧ parse "min:-0" = none) ∧
    (parse "min:6" = some (min 6) ∧ parse ("min:6" ++ "x") = none) := by
  have hlarge : WritesMinimum "min:18446744073709551616" UInt64.size :=
    ⟨"", "18446744073709551616", rfl, .inl rfl, by decide, List.all_eq_true.mp (by decide),
      by decide⟩
  have hminus : '-' ∈ "min:-0".toList := by decide
  have hsix : parse "min:6" = some (min 6) := by decide
  refine ⟨by decide, by decide, ⟨hlarge, ?_⟩, ⟨hminus, ?_⟩, hsix, ?_⟩
  · exact (parse_accepts_grammar _).2.2.2.2.1 _ hlarge (Nat.le_refl _)
  · exact (parse_accepts_grammar _).2.2.2.2.2.1 '-' hminus (by decide) (by decide) (by decide)
  · exact (parse_accepts_grammar _).2.2.2.2.2.2 _ "x" hsix
      fun h => absurd (h 'x' (by decide)) (by decide)

end Rule
end FormCheck
