import FormCheck.Email.Pattern
import Mathlib.Data.List.TakeWhile

/-!
# Email addresses

What the two email checks take for an address, in plain words. For a browser that is a local part,
an `@` and labels with dots between them. For the simple check it is a text without blank
characters, with one `@` and a dot inside what follows. Each check scans up to the `@` and looks at
both sides, and accepts exactly the texts of such addresses.
-/
namespace FormCheck

namespace Email

/-- An ASCII letter or digit. -/
def IsLetterOrDigit (c : Char) : Prop :=
  'A' ≤ c ∧ c ≤ 'Z' ∨ 'a' ≤ c ∧ c ≤ 'z' ∨ '0' ≤ c ∧ c ≤ '9'

instance : DecidablePred IsLetterOrDigit := fun c =>
  inferInstanceAs (Decidable ('A' ≤ c ∧ c ≤ 'Z' ∨ 'a' ≤ c ∧ c ≤ 'z' ∨ '0' ≤ c ∧ c ≤ '9'))

theorem isAlphanum_eq_true_iff {c : Char} : c.isAlphanum = true ↔ IsLetterOrDigit c := by
  change (decide ('A' ≤ c ∧ c ≤ 'Z') || (decide ('a' ≤ c) && decide (c ≤ 'z')) ||
    (decide ('0' ≤ c) && decide (c ≤ '9'))) = true ↔ _
  simp only [IsLetterOrDigit, Bool.or_eq_true, Bool.and_eq_true, decide_eq_true_eq, or_assoc]

namespace IsLetterOrDigit

theorem toNat_cases {c : Char} (h : IsLetterOrDigit c) :
    65 ≤ c.toNat ∧ c.toNat ≤ 90 ∨ 97 ≤ c.toNat ∧ c.toNat ≤ 122 ∨ 48 ≤ c.toNat ∧ c.toNat ≤ 57 := by
  simp only [IsLetterOrDigit, Char.le_def, UInt32.le_iff_toNat_le] at h
  exact h

theorem toNat_lt {c : Char} (h : IsLetterOrDigit c) : c.toNat < 128 := by
  have hcases := h.toNat_cases
  omega

theorem isBlank_eq_false {c : Char} (h : IsLetterOrDigit c) : Text.isBlank c = false := by
  have hcases := h.toNat_cases
  by_contra hblank
  obtain ⟨r, hr, hlow, hhigh⟩ := Text.isBlank_eq_true_iff.mp (by simpa using hblank)
  -- Among the codes of letters and digits no range of blank characters begins or ends.
  have hapart : ∀ r ∈ Text.blankRanges, r.2 < 48 ∨ 122 < r.1 := by decide
  have := hapart r hr
  omega

end IsLetterOrDigit

/-- The text behind the first `@`. -/
def domainOf (s : List Char) : List Char := (s.dropWhile (· != '@')).tail

theorem domainOf_append {u domain : List Char} (h : '@' ∉ u) :
    domainOf (u ++ '@' :: domain) = domain := by
  have hu : ∀ c ∈ u, (c != '@') = true := by
    intro c hc
    have hne : c ≠ '@' := fun heq => h (heq ▸ hc)
    simpa using hne
  rw [domainOf, List.dropWhile_append_of_pos hu]
  simp

/-- What a scan up to the `@` finds in front of it and behind it. -/
theorem scan_eq_iff {p : Char → Bool} (hp : p '@' = false) {s u domain : List Char} :
    s.takeWhile p = u ∧ s.dropWhile p = '@' :: domain ↔
      (∀ c ∈ u, p c = true) ∧ s = u ++ '@' :: domain := by
  constructor
  · rintro ⟨rfl, hdrop⟩
    refine ⟨List.all_eq_true.mp List.all_takeWhile, ?_⟩
    rw [← hdrop, List.takeWhile_append_dropWhile]
  · rintro ⟨hu, rfl⟩
    rw [List.takeWhile_append_of_pos hu, List.dropWhile_append_of_pos hu]
    simp [hp]

theorem isPlain_eq_true_iff {c : Char} :
    isPlain c = true ↔ Text.isBlank c = false ∧ c ≠ '@' := by
  simp [isPlain]

/-! ### The check of a browser -/

/-- The characters of a local part beside letters and digits. -/
def localMarks : List Char := ".!#$%&'*+/=?^_`\x7b|\x7d~-".toList

/-- A character of a local part. -/
def IsLocalChar (c : Char) : Prop := IsLetterOrDigit c ∨ c ∈ localMarks

instance : DecidablePred IsLocalChar := fun c =>
  inferInstanceAs (Decidable (IsLetterOrDigit c ∨ c ∈ localMarks))

namespace IsLocalChar

theorem toNat_lt {c : Char} (h : IsLocalChar c) : c.toNat < 128 := by
  rcases h with h | h
  · exact h.toNat_lt
  · have hmarks : (localMarks.all fun c => c.toNat < 128) = true := by decide
    exact of_decide_eq_true (List.all_eq_true.mp hmarks c h)

theorem isPlain_eq_true {c : Char} (h : IsLocalChar c) : isPlain c = true := by
  rcases h with h | h
  · rw [isPlain_eq_true_iff]
    refine ⟨h.isBlank_eq_false, ?_⟩
    rintro rfl
    exact absurd h (by decide)
  · have hmarks : localMarks.all isPlain = true := by decide
    exact List.all_eq_true.mp hmarks c h

end IsLocalChar

/-- A label of a domain. -/
structure IsDomainLabel (label : List Char) : Prop where
  length_pos : 1 ≤ label.length
  length_le : label.length ≤ 63
  chars : ∀ c ∈ label, IsLetterOrDigit c ∨ c = '-'
  first : ∀ c ∈ label.head?, IsLetterOrDigit c
  last : ∀ c ∈ label.getLast?, IsLetterOrDigit c

theorem IsDomainLabel.notMem {label : List Char} (h : IsDomainLabel label) {c : Char}
    (hc : ¬ (IsLetterOrDigit c ∨ c = '-')) : c ∉ label := fun hmem => hc (h.chars c hmem)

/-- An address as a browser takes it. -/
structure HtmlAddress where
  localPart : List Char
  labels : List (List Char)
  localPart_ne_nil : localPart ≠ []
  isLocalChar : ∀ c ∈ localPart, IsLocalChar c
  labels_ne_nil : labels ≠ []
  isDomainLabel : ∀ label ∈ labels, IsDomainLabel label

namespace HtmlAddress

/-- The labels with dots between them. -/
def domain (address : HtmlAddress) : List Char := Text.join '.' address.labels

/-- The text of an address. -/
def text (address : HtmlAddress) : List Char := address.localPart ++ '@' :: address.domain

theorem split_domain (address : HtmlAddress) :
    Text.split '.' address.domain = address.labels := by
  refine Text.split_join address.labels_ne_nil ?_
  intro label hlabel
  exact (address.isDomainLabel label hlabel).notMem (by decide)

theorem nil_notMem_labels (address : HtmlAddress) : [] ∉ address.labels := by
  intro hmem
  exact absurd (address.isDomainLabel [] hmem).length_pos (by simp)

/-- Every dot of a domain stands between two other characters. -/
theorem surrounded (address : HtmlAddress) {before after : List Char}
    (h : address.domain = before ++ '.' :: after) :
    before ≠ [] ∧ after ≠ [] ∧ after.head? ≠ some '.' := by
  have hpieces := address.nil_notMem_labels
  rw [← address.split_domain, h, Text.split_append_cons, List.mem_append, not_or] at hpieces
  refine ⟨?_, ?_, ?_⟩
  · rintro rfl
    exact hpieces.1 (by simp)
  · rintro rfl
    exact hpieces.2 (by simp)
  · intro hhead
    obtain ⟨rest, rfl⟩ := List.head?_eq_some_iff.mp hhead
    exact hpieces.2 (by simp [Text.split])

theorem at_notMem_localPart (address : HtmlAddress) : '@' ∉ address.localPart := by
  intro hmem
  exact absurd (address.isLocalChar '@' hmem) (by decide)

theorem at_notMem_domain (address : HtmlAddress) : '@' ∉ address.domain := by
  intro hmem
  rcases Text.eq_or_mem_of_mem_join hmem with hdot | ⟨label, hlabel, hmem⟩
  · exact absurd hdot (by decide)
  · exact (address.isDomainLabel label hlabel).notMem (by decide) hmem

@[simp] theorem domainOf_text (address : HtmlAddress) :
    domainOf address.text = address.domain :=
  domainOf_append address.at_notMem_localPart

theorem count_at_text (address : HtmlAddress) : address.text.count '@' = 1 := by
  have hlocal := List.count_eq_zero.mpr address.at_notMem_localPart
  have hdomain := List.count_eq_zero.mpr address.at_notMem_domain
  simp [text, hlocal, hdomain]

/-- The characters of a domain may all stand in a local part as well. -/
theorem isLocalChar_of_mem_domain {address : HtmlAddress} {c : Char} (h : c ∈ address.domain) :
    IsLocalChar c := by
  rcases Text.eq_or_mem_of_mem_join h with rfl | ⟨label, hlabel, hmem⟩
  · decide
  · rcases (address.isDomainLabel label hlabel).chars c hmem with hc | rfl
    · exact .inl hc
    · decide

theorem toNat_lt_of_mem_text {address : HtmlAddress} {c : Char} (h : c ∈ address.text) :
    c.toNat < 128 := by
  rw [text, List.mem_append, List.mem_cons] at h
  rcases h with h | rfl | h
  · exact (address.isLocalChar c h).toNat_lt
  · decide
  · exact (isLocalChar_of_mem_domain h).toNat_lt

end HtmlAddress

theorem isLocal_eq_true_iff {c : Char} : isLocal c = true ↔ IsLocalChar c := by
  rw [isLocal, Bool.or_eq_true, isAlphanum_eq_true_iff, List.contains_iff_mem]
  exact Iff.rfl

theorem isLabelChar_eq_true_iff {c : Char} :
    isLabelChar c = true ↔ IsLetterOrDigit c ∨ c = '-' := by
  simp only [isLabelChar, Bool.or_eq_true, isAlphanum_eq_true_iff, beq_iff_eq]

theorem isLabel_eq_true_iff {label : List Char} : isLabel label = true ↔ IsDomainLabel label := by
  simp only [isLabel, Bool.and_eq_true, List.all_eq_true, decide_eq_true_eq, Option.any_eq_true,
    isLabelChar_eq_true_iff, isAlphanum_eq_true_iff]
  constructor
  · rintro ⟨⟨⟨hchars, hlength⟩, c, hc, hfirst⟩, d, hd, hlast⟩
    have hne : label ≠ [] := by
      rintro rfl
      cases hc
    refine ⟨List.length_pos_iff.mpr hne, hlength, hchars, ?_, ?_⟩
    · simpa [hc] using hfirst
    · simpa [hd] using hlast
  · intro h
    have hne : label ≠ [] := List.length_pos_iff.mp h.length_pos
    refine ⟨⟨⟨h.chars, h.length_le⟩, label.head hne, List.head?_eq_some_head hne, ?_⟩,
      label.getLast hne, List.getLast?_eq_some_getLast hne, ?_⟩
    · exact h.first _ (List.head?_eq_some_head hne)
    · exact h.last _ (List.getLast?_eq_some_getLast hne)

/-- The scan of a browser's check finds an address or fails. -/
theorem isHtml_eq_true_iff {s : List Char} :
    isHtml s = true ↔ ∃ address : HtmlAddress, s = address.text := by
  constructor
  · intro h
    unfold isHtml at h
    split at h
    · next domain hdrop =>
      obtain ⟨hchars, hs⟩ := (scan_eq_iff isLocal_at).mp ⟨rfl, hdrop⟩
      simp only [Bool.and_eq_true, Bool.not_eq_true', List.isEmpty_eq_false_iff,
        List.all_eq_true, isLabel_eq_true_iff] at h
      simp only [isLocal_eq_true_iff] at hchars
      refine ⟨⟨_, _, h.1, hchars, Text.split_ne_nil '.' domain, h.2⟩, ?_⟩
      rw [HtmlAddress.text, HtmlAddress.domain, Text.join_split]
      exact hs
    · cases h
  · rintro ⟨address, rfl⟩
    have hchars : ∀ c ∈ address.localPart, isLocal c = true :=
      fun c hc => isLocal_eq_true_iff.mpr (address.isLocalChar c hc)
    have hlabels : ∀ label ∈ address.labels, isLabel label = true :=
      fun label hlabel => isLabel_eq_true_iff.mpr (address.isDomainLabel label hlabel)
    obtain ⟨htake, hdrop⟩ := (scan_eq_iff isLocal_at).mpr ⟨hchars, rfl⟩
    rw [isHtml, HtmlAddress.text, hdrop, htake]
    simpa [address.split_domain, address.localPart_ne_nil] using hlabels

/-! ### The simple check -/

/-- Some dot is neither the first nor the last character. -/
def HasInnerDot (domain : List Char) : Prop :=
  ∃ i, 0 < i ∧ i + 1 < domain.length ∧ domain[i]? = some '.'

theorem hasInnerDot_eq_true_iff {domain : List Char} :
    hasInnerDot domain = true ↔ HasInnerDot domain := by
  rw [hasInnerDot, List.contains_iff_mem, List.mem_iff_getElem?]
  simp only [List.getElem?_dropLast, List.length_drop, List.getElem?_drop,
    Option.ite_none_right_eq_some]
  constructor
  · rintro ⟨i, hi, hdot⟩
    exact ⟨1 + i, by omega, by omega, hdot⟩
  · rintro ⟨i, hpos, hi, hdot⟩
    refine ⟨i - 1, by omega, ?_⟩
    rwa [Nat.add_sub_cancel' hpos]

theorem hasInnerDot_iff_exists_append {domain : List Char} :
    HasInnerDot domain ↔
      ∃ before after, before ≠ [] ∧ after ≠ [] ∧ domain = before ++ '.' :: after := by
  constructor
  · rintro ⟨i, hpos, hi, hdot⟩
    obtain ⟨hlt, hget⟩ := List.getElem?_eq_some_iff.mp hdot
    refine ⟨domain.take i, domain.drop (i + 1), ?_, ?_, ?_⟩
    · rw [← List.length_pos_iff, List.length_take]
      omega
    · rw [← List.length_pos_iff, List.length_drop]
      omega
    · rw [← hget, ← List.drop_eq_getElem_cons hlt, List.take_append_drop]
  · rintro ⟨before, after, hbefore, hafter, rfl⟩
    have hpos := List.length_pos_iff.mpr hbefore
    have hmore := List.length_pos_iff.mpr hafter
    refine ⟨before.length, hpos, ?_, by simp⟩
    simp only [List.length_append, List.length_cons]
    omega

/-- An address as the simple check takes it. -/
structure SimpleAddress where
  localPart : List Char
  domain : List Char
  localPart_ne_nil : localPart ≠ []
  isPlain_localPart : ∀ c ∈ localPart, isPlain c = true
  isPlain_domain : ∀ c ∈ domain, isPlain c = true
  hasInnerDot : HasInnerDot domain

namespace SimpleAddress

/-- The text of an address. -/
def text (address : SimpleAddress) : List Char := address.localPart ++ '@' :: address.domain

theorem at_notMem_localPart (address : SimpleAddress) : '@' ∉ address.localPart := by
  intro hmem
  exact absurd (address.isPlain_localPart '@' hmem) (by decide)

theorem at_notMem_domain (address : SimpleAddress) : '@' ∉ address.domain := by
  intro hmem
  exact absurd (address.isPlain_domain '@' hmem) (by decide)

@[simp] theorem domainOf_text (address : SimpleAddress) :
    domainOf address.text = address.domain :=
  domainOf_append address.at_notMem_localPart

end SimpleAddress

/-- The scan of the simple check finds an address or fails. -/
theorem isSimple_eq_true_iff {s : List Char} :
    isSimple s = true ↔ ∃ address : SimpleAddress, s = address.text := by
  constructor
  · intro h
    unfold isSimple at h
    split at h
    · next domain hdrop =>
      obtain ⟨hchars, hs⟩ := (scan_eq_iff isPlain_at).mp ⟨rfl, hdrop⟩
      simp only [Bool.and_eq_true, Bool.not_eq_true', List.isEmpty_eq_false_iff,
        List.all_eq_true, hasInnerDot_eq_true_iff] at h
      exact ⟨⟨_, domain, h.1.1, hchars, h.1.2, h.2⟩, hs⟩
    · cases h
  · rintro ⟨address, rfl⟩
    obtain ⟨htake, hdrop⟩ := (scan_eq_iff isPlain_at).mpr ⟨address.isPlain_localPart, rfl⟩
    have hdot := hasInnerDot_eq_true_iff.mpr address.hasInnerDot
    have hdomain := List.all_eq_true.mpr address.isPlain_domain
    rw [isSimple, SimpleAddress.text, hdrop, htake]
    simp [address.localPart_ne_nil, hdot, hdomain]

/-- No blank character, one `@` and a dot inside what follows make up an address. -/
theorem exists_simpleAddress_iff {s : List Char} :
    (∃ address : SimpleAddress, s = address.text) ↔
      (∀ c ∈ s, Text.isBlank c = false) ∧ s.count '@' = 1 ∧
      ∃ localPart domain, s = localPart ++ '@' :: domain ∧ localPart ≠ [] ∧ HasInnerDot domain := by
  constructor
  · rintro ⟨address, rfl⟩
    have hlocal := List.count_eq_zero.mpr address.at_notMem_localPart
    have hdomain := List.count_eq_zero.mpr address.at_notMem_domain
    refine ⟨?_, ?_, _, _, rfl, address.localPart_ne_nil, address.hasInnerDot⟩
    · rw [SimpleAddress.text, List.forall_mem_append, List.forall_mem_cons]
      exact ⟨fun c hc => (isPlain_eq_true_iff.mp (address.isPlain_localPart c hc)).1, by decide,
        fun c hc => (isPlain_eq_true_iff.mp (address.isPlain_domain c hc)).1⟩
    · rw [SimpleAddress.text, List.count_append, List.count_cons_self, hlocal, hdomain]
  · rintro ⟨hblank, hcount, localPart, domain, rfl, hne, hdot⟩
    rw [List.count_append, List.count_cons_self] at hcount
    have hlocal : '@' ∉ localPart := List.count_eq_zero.mp (by omega)
    have hdomain : '@' ∉ domain := List.count_eq_zero.mp (by omega)
    rw [List.forall_mem_append, List.forall_mem_cons] at hblank
    refine ⟨⟨localPart, domain, hne, ?_, ?_, hdot⟩, rfl⟩
    · intro c hc
      exact isPlain_eq_true_iff.mpr ⟨hblank.1 c hc, fun heq => hlocal (heq ▸ hc)⟩
    · intro c hc
      exact isPlain_eq_true_iff.mpr ⟨hblank.2.2 c hc, fun heq => hdomain (heq ▸ hc)⟩

end Email

open Email

namespace EmailPattern

theorem accepts_html_iff {s : String} :
    html.accepts s = true ↔ ∃ address : HtmlAddress, s.toList = address.text :=
  isHtml_eq_true_iff

theorem accepts_simple_iff {s : String} :
    simple.accepts s = true ↔ ∃ address : SimpleAddress, s.toList = address.text :=
  isSimple_eq_true_iff

end EmailPattern
end FormCheck
