import FormCheck.Proofs.EmailExpressions

/-!
# What the email checks accept

A check is carried out as one scan, it is stated as a regular expression, and a reader thinks of a
grammar. For each of the two checks all three describe the same texts.
-/
namespace FormCheck.EmailPattern
open Email

/-- The check of a browser accepts what matches its expression, and that is a local part, an `@`
and labels with dots between them. So what it accepts is ASCII with a single `@`, no dot of the
domain leads, trails or follows another, and no label is empty or longer than 63 characters. -/
theorem html_accepts_iff_grammar (s : String) :
    (html.accepts s = true ↔ s.toList ∈ html.regex.language) ∧
    (html.accepts s = true ↔
      ∃ localPart labels, s.toList = localPart ++ '@' :: Text.join '.' labels ∧
        localPart ≠ [] ∧ (∀ c ∈ localPart, IsLocalChar c) ∧
        labels ≠ [] ∧ ∀ label ∈ labels, IsDomainLabel label) ∧
    (html.accepts s = true →
      (∀ c ∈ s.toList, c.toNat < 128) ∧ s.toList.count '@' = 1 ∧
      (∀ before after, domainOf s.toList = before ++ '.' :: after →
        before ≠ [] ∧ after ≠ [] ∧ after.head? ≠ some '.') ∧
      ∀ label ∈ Text.split '.' (domainOf s.toList), label ≠ [] ∧ label.length < 64) := by
  refine ⟨accepts_iff_mem_language html s, ?_, ?_⟩
  · rw [accepts_html_iff]
    constructor
    · rintro ⟨address, hs⟩
      exact ⟨address.localPart, address.labels, hs, address.localPart_ne_nil,
        address.isLocalChar, address.labels_ne_nil, address.isDomainLabel⟩
    · rintro ⟨localPart, labels, hs, hlocal, hchars, hne, hlabels⟩
      exact ⟨⟨localPart, labels, hlocal, hchars, hne, hlabels⟩, hs⟩
  · intro haccepts
    obtain ⟨address, hs⟩ := accepts_html_iff.mp haccepts
    rw [hs, address.domainOf_text, address.split_domain]
    refine ⟨?_, address.count_at_text, ?_, ?_⟩
    · intro c hc
      exact HtmlAddress.toNat_lt_of_mem_text hc
    · intro before after hdomain
      exact address.surrounded hdomain
    · intro label hlabel
      have hlength := (address.isDomainLabel label hlabel).length_le
      refine ⟨fun hnil => address.nil_notMem_labels (hnil ▸ hlabel), ?_⟩
      omega

/-- A label of the greatest length, and a domain whose last label is the shortest with a hyphen. -/
theorem html_accepts_iff_grammar_longLabel :
    let label := List.replicate 63 'a'
    let s := String.ofList ("o'neil+x@".toList ++ label ++ ".b-2".toList)
    (html.accepts s = true ∧ s.toList ∈ html.regex.language ∧ s.toList.count '@' = 1) ∧
    ('+' ∈ s.toList ∧ '+'.toNat < 128) ∧
    (domainOf s.toList = label ++ '.' :: "b-2".toList ∧
      label ≠ [] ∧ "b-2".toList ≠ [] ∧ "b-2".toList.head? ≠ some '.') ∧
    (label ∈ Text.split '.' (domainOf s.toList) ∧ label ≠ [] ∧ label.length < 64) ∧
    ∃ localPart labels, s.toList = localPart ++ '@' :: Text.join '.' labels ∧
      localPart ≠ [] ∧ (∀ c ∈ localPart, IsLocalChar c) ∧
      labels ≠ [] ∧ ∀ label ∈ labels, IsDomainLabel label := by
  intro label s
  have haccepts : html.accepts s = true := by decide +kernel
  have hmark : '+' ∈ s.toList := by decide +kernel
  have hdomain : domainOf s.toList = label ++ '.' :: "b-2".toList := by decide +kernel
  have hlabel : label ∈ Text.split '.' (domainOf s.toList) := by decide +kernel
  obtain ⟨hlanguage, hgrammar, hfacts⟩ := html_accepts_iff_grammar s
  obtain ⟨hascii, hcount, hdots, hlabels⟩ := hfacts haccepts
  exact ⟨⟨haccepts, hlanguage.mp haccepts, hcount⟩, ⟨hmark, hascii '+' hmark⟩,
    ⟨hdomain, hdots _ _ hdomain⟩, ⟨hlabel, hlabels label hlabel⟩, hgrammar.mp haccepts⟩

/-- One more character and the label is too long. -/
example : html.accepts (String.ofList ('x' :: '@' :: List.replicate 64 'a')) = false := by
  decide +kernel

/-- The simple check accepts what matches its expression, and that is a text without blank
characters in which a single `@` has something before it and behind it a dot that is neither the
first nor the last character of what follows. -/
theorem simple_accepts_iff_grammar (s : String) :
    isValidEmail s = simple.accepts s ∧
    (simple.accepts s = true ↔ s.toList ∈ simple.regex.language) ∧
    (simple.accepts s = true ↔
      (∀ c ∈ s.toList, Text.isBlank c = false) ∧ s.toList.count '@' = 1 ∧
      ∃ localPart domain, s.toList = localPart ++ '@' :: domain ∧ localPart ≠ [] ∧
        ∃ i, 0 < i ∧ i + 1 < domain.length ∧ domain[i]? = some '.') := by
  refine ⟨rfl, accepts_iff_mem_language simple s, ?_⟩
  rw [accepts_simple_iff]
  exact exists_simpleAddress_iff

/-- A domain of dots alone has a dot inside. -/
theorem simple_accepts_iff_grammar_dots :
    let s := "a@..."
    isValidEmail s = true ∧ s.toList ∈ simple.regex.language ∧
      ('.' ∈ s.toList ∧ Text.isBlank '.' = false) ∧ s.toList.count '@' = 1 := by
  intro s
  obtain ⟨hsame, hlanguage, hgrammar⟩ := simple_accepts_iff_grammar s
  have htext : s.toList = ['a'] ++ '@' :: ['.', '.', '.'] := by decide +kernel
  have haccepts : simple.accepts s = true := by
    have hblank : (s.toList.all fun c => !Text.isBlank c) = true := by decide +kernel
    have hcount : s.toList.count '@' = 1 := by decide +kernel
    refine hgrammar.mpr ⟨by simpa using hblank, hcount, _, _, htext, by decide, ?_⟩
    exact ⟨1, by decide, by decide, rfl⟩
  have hdot : '.' ∈ s.toList := by
    rw [htext]
    decide
  obtain ⟨hblank, hcount, -⟩ := hgrammar.mp haccepts
  exact ⟨hsame.trans haccepts, hlanguage.mp haccepts, ⟨hdot, hblank '.' hdot⟩, hcount⟩

end FormCheck.EmailPattern
