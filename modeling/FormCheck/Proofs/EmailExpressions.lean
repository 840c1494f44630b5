import FormCheck.Proofs.EmailAddresses
import FormCheck.Proofs.RegexLanguages

/-!
# The expressions of the email checks

Both checks are stated as regular expressions. A browser's describes the labels of a domain by
nested repetitions, one bounded and one not. The simple one leaves open which dot it means, as what
surrounds the dot may hold dots as well. The texts that match are those of addresses all the same.
-/
namespace FormCheck

namespace Email

/-! ### The check of a browser -/

/-- `a-zA-Z0-9` -/
def letterOrDigitItems : List ClassItem := [.range 'a' 'z', .range 'A' 'Z', .range '0' '9']

def localClass : CharClass := { items := letterOrDigitItems ++ localMarks.map .char }

def labelEndClass : CharClass := { items := letterOrDigitItems }

def labelClass : CharClass := { items := letterOrDigitItems ++ [.char '-'] }

/-- A label: one character, or two with at most 61 between them. -/
def labelRegex : Regex :=
  .seq (.oneOf labelEndClass)
    (.optional (.seq (.atMost 61 (.oneOf labelClass)) (.oneOf labelEndClass)))

/-- The expression of a browser's check. -/
def htmlRegex : Regex :=
  .seq (.several (.oneOf localClass))
    (.seq (.char '@') (.seq labelRegex (.many (.seq (.char '.') labelRegex))))

example : "^" ++ htmlRegex.written ++ "$" =
    "^[a-zA-Z0-9.!#$%&'*+/=?^_`\x7b|\x7d~-]+" ++
      "@[a-zA-Z0-9](?:[a-zA-Z0-9-]\x7b0,61\x7d[a-zA-Z0-9])?" ++
      "(?:\\.[a-zA-Z0-9](?:[a-zA-Z0-9-]\x7b0,61\x7d[a-zA-Z0-9])?)*$" := by
  decide +kernel

theorem any_letterOrDigitItems {c : Char} :
    (letterOrDigitItems.any fun item => item.covers c) = true ↔ IsLetterOrDigit c := by
  simp only [letterOrDigitItems, ClassItem.covers, IsLetterOrDigit, List.any_cons, List.any_nil,
    Bool.or_false, Bool.or_eq_true, Bool.and_eq_true, decide_eq_true_eq]
  exact or_left_comm

theorem contains_labelEndClass {c : Char} :
    labelEndClass.contains c = true ↔ IsLetterOrDigit c := by
  rw [← any_letterOrDigitItems]
  simp [CharClass.contains, labelEndClass]

theorem contains_labelClass {c : Char} :
    labelClass.contains c = true ↔ IsLetterOrDigit c ∨ c = '-' := by
  rw [← any_letterOrDigitItems]
  simp [CharClass.contains, labelClass, ClassItem.covers]

theorem contains_localClass {c : Char} : localClass.contains c = true ↔ IsLocalChar c := by
  rw [IsLocalChar, ← any_letterOrDigitItems]
  simp [CharClass.contains, localClass, ClassItem.covers]

theorem isDomainLabel_singleton_iff {c : Char} : IsDomainLabel [c] ↔ IsLetterOrDigit c := by
  constructor
  · intro h
    exact h.first c (by simp)
  · intro hc
    exact ⟨by simp, by simp, by simp [hc], by simp [hc], by simp [hc]⟩

/-- A label of two or more characters: its ends, and at most 61 characters between them. -/
theorem isDomainLabel_cons_concat_iff {c d : Char} {inner : List Char} :
    IsDomainLabel (c :: (inner ++ [d])) ↔
      IsLetterOrDigit c ∧ inner.length ≤ 61 ∧
        (∀ e ∈ inner, IsLetterOrDigit e ∨ e = '-') ∧ IsLetterOrDigit d := by
  have hlength : (c :: (inner ++ [d])).length = inner.length + 2 := by simp
  have hlast : (c :: (inner ++ [d])).getLast? = some d := by
    rw [← List.cons_append, List.getLast?_concat]
  constructor
  · intro h
    have hle := h.length_le
    exact ⟨h.first c (by simp), by omega, fun e he => h.chars e (by simp [he]), h.last d hlast⟩
  · rintro ⟨hc, hinner, hchars, hd⟩
    refine ⟨by omega, by omega, ?_, by simp [hc], by simp [hlast, hd]⟩
    rw [List.forall_mem_cons, List.forall_mem_append, List.forall_mem_singleton]
    exact ⟨.inl hc, hchars, .inl hd⟩

/-- The bounded repetition inside the optional part comes to a label of 1 to 63 characters. -/
theorem mem_language_labelRegex {s : List Char} :
    s ∈ labelRegex.language ↔ IsDomainLabel s := by
  rw [labelRegex, Regex.mem_language_seq]
  constructor
  · rintro ⟨_, ⟨c, hc, rfl⟩, rest, hrest, rfl⟩
    rw [contains_labelEndClass] at hc
    rcases Regex.mem_language_optional.mp hrest with rfl | hrest
    · exact isDomainLabel_singleton_iff.mpr hc
    · obtain ⟨inner, hinner, _, ⟨d, hd, rfl⟩, rfl⟩ := Regex.mem_language_seq.mp hrest
      rw [contains_labelEndClass] at hd
      obtain ⟨hlength, hchars⟩ := Regex.mem_language_atMost_oneOf.mp hinner
      simp only [contains_labelClass] at hchars
      exact isDomainLabel_cons_concat_iff.mpr ⟨hc, hlength, hchars, hd⟩
  · intro h
    cases s with
    | nil => exact absurd h.length_pos (by simp)
    | cons c rest =>
      -- The optional part matches what stands behind the first character, unless that is nothing.
      rcases List.eq_nil_or_concat rest with rfl | ⟨inner, d, rfl⟩
      · have hc := isDomainLabel_singleton_iff.mp h
        exact ⟨[c], ⟨c, contains_labelEndClass.mpr hc, rfl⟩, [], .inl rfl, rfl⟩
      · rw [List.concat_eq_append] at h ⊢
        obtain ⟨hc, hlength, hchars, hd⟩ := isDomainLabel_cons_concat_iff.mp h
        simp only [← contains_labelClass] at hchars
        have hinner := Regex.mem_language_atMost_oneOf.mpr ⟨hlength, hchars⟩
        refine ⟨[c], ⟨c, contains_labelEndClass.mpr hc, rfl⟩, inner ++ [d], .inr ?_, rfl⟩
        exact ⟨inner, hinner, [d], ⟨d, contains_labelEndClass.mpr hd, rfl⟩, rfl⟩

/-- Labels each behind a dot, after a first one, are the labels with dots between them. -/
theorem mem_language_domain {s : List Char} :
    s ∈ (Regex.seq labelRegex (.many (.seq (.char '.') labelRegex))).language ↔
      ∃ labels, labels ≠ [] ∧ (∀ label ∈ labels, IsDomainLabel label) ∧
        s = Text.join '.' labels := by
  rw [Regex.mem_language_seq]
  constructor
  · rintro ⟨first, hfirst, _, hrest, rfl⟩
    obtain ⟨words, rfl, hwords⟩ := Regex.mem_language_many.mp hrest
    have hdotted : ∀ word ∈ words, IsDomainLabel word.tail ∧ '.' :: word.tail = word := by
      intro word hword
      obtain ⟨label, hlabel, rfl⟩ := Regex.mem_language_char_seq.mp (hwords word hword)
      exact ⟨mem_language_labelRegex.mp hlabel, rfl⟩
    refine ⟨first :: words.map List.tail, List.cons_ne_nil _ _, ?_, ?_⟩
    · rw [List.forall_mem_cons, List.forall_mem_map]
      exact ⟨mem_language_labelRegex.mp hfirst, fun word hword => (hdotted word hword).1⟩
    · have hsame : (words.map List.tail).map ('.' :: ·) = words := by
        rw [List.map_map]
        exact (List.map_congr_left fun word hword => (hdotted word hword).2).trans (List.map_id _)
      rw [Text.join_cons, hsame]
  · rintro ⟨labels, hne, hlabels, rfl⟩
    cases labels with
    | nil => exact absurd rfl hne
    | cons first rest =>
      rw [List.forall_mem_cons] at hlabels
      rw [Text.join_cons]
      refine ⟨first, mem_language_labelRegex.mpr hlabels.1, _, ?_, rfl⟩
      refine Regex.mem_language_many.mpr ⟨_, rfl, ?_⟩
      rw [List.forall_mem_map]
      intro label hlabel
      exact Regex.mem_language_char_seq.mpr
        ⟨label, mem_language_labelRegex.mpr (hlabels.2 label hlabel), rfl⟩

/-- What matches the expression of a browser's check are the texts of addresses. -/
theorem mem_language_htmlRegex {s : List Char} :
    s ∈ htmlRegex.language ↔ ∃ address : HtmlAddress, s = address.text := by
  rw [htmlRegex, Regex.mem_language_seq]
  constructor
  · rintro ⟨u, hu, _, hrest, rfl⟩
    obtain ⟨domain, hdomain, rfl⟩ := Regex.mem_language_char_seq.mp hrest
    obtain ⟨hne, hchars⟩ := Regex.mem_language_several_oneOf.mp hu
    obtain ⟨labels, hlabelsNe, hlabels, rfl⟩ := mem_language_domain.mp hdomain
    simp only [contains_localClass] at hchars
    exact ⟨⟨u, labels, hne, hchars, hlabelsNe, hlabels⟩, rfl⟩
  · rintro ⟨address, rfl⟩
    have hlocal : address.localPart ∈ (Regex.several (.oneOf localClass)).language :=
      Regex.mem_language_several_oneOf.mpr ⟨address.localPart_ne_nil,
        fun c hc => contains_localClass.mpr (address.isLocalChar c hc)⟩
    have hdomain := mem_language_domain.mpr
      ⟨address.labels, address.labels_ne_nil, address.isDomainLabel, rfl⟩
    refine ⟨address.localPart, hlocal, '@' :: address.domain, ?_, rfl⟩
    exact Regex.mem_language_char_seq.mpr ⟨address.domain, hdomain, rfl⟩

/-! ### The simple check -/

/-- `[^\s@]` -/
def plainClass : CharClass := { items := [.blank, .char '@'], negated := true }

/-- The expression of the simple check. -/
def simpleRegex : Regex :=
  .seq (.several (.oneOf plainClass))
    (.seq (.char '@')
      (.seq (.several (.oneOf plainClass))
        (.seq (.char '.') (.several (.oneOf plainClass)))))

example : "^" ++ simpleRegex.written ++ "$" = "^[^\\s@]+@[^\\s@]+\\.[^\\s@]+$" := by
  decide +kernel

theorem contains_plainClass (c : Char) : plainClass.contains c = isPlain c := by
  simp [CharClass.contains, plainClass, ClassItem.covers, isPlain, bne]

theorem mem_language_several_plain {s : List Char} :
    s ∈ (Regex.several (.oneOf plainClass)).language ↔ s ≠ [] ∧ ∀ c ∈ s, isPlain c = true := by
  simp only [Regex.mem_language_several_oneOf, contains_plainClass]

/-- The text around the dot may hold dots; that some dot serves is all that counts. -/
theorem mem_language_simpleRegex {s : List Char} :
    s ∈ simpleRegex.language ↔ ∃ address : SimpleAddress, s = address.text := by
  rw [simpleRegex, Regex.mem_language_seq]
  constructor
  · rintro ⟨u, hu, _, hrest, rfl⟩
    obtain ⟨domain, hdomain, rfl⟩ := Regex.mem_language_char_seq.mp hrest
    obtain ⟨before, hbefore, _, hdotted, rfl⟩ := Regex.mem_language_seq.mp hdomain
    obtain ⟨after, hafter, rfl⟩ := Regex.mem_language_char_seq.mp hdotted
    rw [mem_language_several_plain] at hu hbefore hafter
    have hplain : ∀ c ∈ before ++ '.' :: after, isPlain c = true := by
      rw [List.forall_mem_append, List.forall_mem_cons]
      exact ⟨hbefore.2, by decide, hafter.2⟩
    have hdot := hasInnerDot_iff_exists_append.mpr ⟨before, after, hbefore.1, hafter.1, rfl⟩
    exact ⟨⟨u, _, hu.1, hu.2, hplain, hdot⟩, rfl⟩
  · rintro ⟨address, rfl⟩
    obtain ⟨before, after, hbefore, hafter, hdomain⟩ :=
      hasInnerDot_iff_exists_append.mp address.hasInnerDot
    have hplain := address.isPlain_domain
    rw [hdomain, List.forall_mem_append, List.forall_mem_cons] at hplain
    refine ⟨address.localPart, mem_language_several_plain.mpr
      ⟨address.localPart_ne_nil, address.isPlain_localPart⟩, '@' :: address.domain, ?_, rfl⟩
    rw [Regex.mem_language_char_seq]
    refine ⟨address.domain, ?_, rfl⟩
    rw [hdomain, Regex.mem_language_seq]
    refine ⟨before, mem_language_several_plain.mpr ⟨hbefore, hplain.1⟩, '.' :: after, ?_, rfl⟩
    rw [Regex.mem_language_char_seq]
    exact ⟨after, mem_language_several_plain.mpr ⟨hafter, hplain.2.2⟩, rfl⟩

end Email

namespace EmailPattern
open Email

/-- The expression of a check, without the anchors at both ends. -/
def regex : EmailPattern → Regex
  | simple => simpleRegex
  | html => htmlRegex

/-- A check accepts the texts that match its expression. -/
theorem accepts_iff_mem_language (pattern : EmailPattern) (s : String) :
    pattern.accepts s = true ↔ s.toList ∈ pattern.regex.language := by
  cases pattern with
  | simple => rw [accepts_simple_iff, regex, mem_language_simpleRegex]
  | html => rw [accepts_html_iff, regex, mem_language_htmlRegex]

end EmailPattern
end FormCheck
