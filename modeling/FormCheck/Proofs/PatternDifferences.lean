import FormCheck.Proofs.EmailAddresses
import FormCheck.Proofs.Evaluation

/-!
# Where the two email checks part

Among the texts that the check of a browser accepts, the simple check refuses those without a dot
in the domain and no others: labels are not empty, so a dot of such a domain always lies inside.
Rules other than `email` do not ask which check is in use. So the first failures under two checks
are the same unless one of them is the email rule, though behind an email rule that passes under
one check only, that check may bring later rules to light.
-/
namespace FormCheck
open Email

/-- With a dot in its domain, an address is one to the simple check as well. -/
def Email.HtmlAddress.toSimple (address : HtmlAddress) (h : '.' ∈ address.domain) :
    SimpleAddress where
  localPart := address.localPart
  domain := address.domain
  localPart_ne_nil := address.localPart_ne_nil
  isPlain_localPart c hc := (address.isLocalChar c hc).isPlain_eq_true
  isPlain_domain _ hc := (HtmlAddress.isLocalChar_of_mem_domain hc).isPlain_eq_true
  hasInnerDot := by
    obtain ⟨before, after, hdomain⟩ := List.append_of_mem h
    obtain ⟨hbefore, hafter, -⟩ := address.surrounded hdomain
    exact hasInnerDot_iff_exists_append.mpr ⟨before, after, hbefore, hafter, hdomain⟩

@[simp] theorem Email.HtmlAddress.text_toSimple (address : HtmlAddress)
    (h : '.' ∈ address.domain) : (address.toSimple h).text = address.text := rfl

theorem Email.SimpleAddress.dot_mem_domain (address : SimpleAddress) : '.' ∈ address.domain := by
  obtain ⟨i, -, -, hdot⟩ := address.hasInnerDot
  exact List.mem_of_getElem? hdot

namespace EmailPattern

/-- A dot in the domain is all that the simple check asks beyond the check of a browser. -/
theorem accepts_simple_iff_of_html {s : String} (h : html.accepts s = true) :
    simple.accepts s = true ↔ '.' ∈ domainOf s.toList := by
  obtain ⟨address, hs⟩ := accepts_html_iff.mp h
  rw [accepts_simple_iff]
  constructor
  · rintro ⟨simpleAddress, hsimple⟩
    rw [hsimple, simpleAddress.domainOf_text]
    exact simpleAddress.dot_mem_domain
  · intro hdot
    rw [hs, address.domainOf_text] at hdot
    exact ⟨address.toSimple hdot, by rw [hs, address.text_toSimple hdot]⟩

end EmailPattern

/-- Only the email rule depends on the check. -/
theorem Rule.accepts_eq_of_ne_email {rule : Rule} (h : rule ≠ .email) (p q : EmailPattern)
    (value : Option Value) : rule.accepts p value = rule.accepts q value := by
  rw [accepts_eq_acceptsText, accepts_eq_acceptsText]
  cases rule with
  | required => rfl
  | email => exact absurd rfl h
  | min n => rfl

namespace RuleSet

/-- Under two checks the search ends alike, or under one of them it stops at the email rule. -/
theorem firstFailure_eq_or_email (p q : EmailPattern) (set : RuleSet) (value : Option Value) :
    set.firstFailure p value = set.firstFailure q value ∨
      set.firstFailure p value = some .email ∨ set.firstFailure q value = some .email := by
  obtain ⟨rules⟩ := set
  unfold firstFailure
  induction rules with
  | nil => exact .inl rfl
  | cons rule rest ih =>
    by_cases hemail : rule = .email
    · subst hemail
      -- The email rule stops the search of a check that rejects the value.
      cases hp : Rule.email.accepts p value with
      | false => simp [hp]
      | true =>
        cases hq : Rule.email.accepts q value with
        | false => simp [hq]
        | true => simpa [hp, hq] using ih
    · have hsame := Rule.accepts_eq_of_ne_email hemail p q value
      cases hp : rule.accepts p value with
      | false => simp [hp, ← hsame]
      | true => simpa [hp, ← hsame] using ih

theorem firstFailure_ne_email {set : RuleSet} (h : .email ∉ set.rules) (pattern : EmailPattern)
    (value : Option Value) : set.firstFailure pattern value ≠ some .email := by
  intro hfailure
  exact h (List.mem_of_find?_eq_some hfailure)

/-- If two checks agree on the text, the first failures are the same. -/
theorem firstFailure_eq_of_accepts_eq {p q : EmailPattern} {value : Option Value}
    (h : p.accepts (submittedText value) = q.accepts (submittedText value)) (set : RuleSet) :
    set.firstFailure p value = set.firstFailure q value := by
  have hrules : ∀ rule : Rule, rule.accepts p value = rule.accepts q value := by
    intro rule
    by_cases hemail : rule = .email
    · rw [hemail, Rule.accepts_eq_acceptsText, Rule.accepts_eq_acceptsText]
      exact h
    · exact Rule.accepts_eq_of_ne_email hemail p q value
  simp only [firstFailure, hrules]

end RuleSet

namespace EmailPattern

/-- The simple check accepts a text that the check of a browser accepts if and only if there is a
dot in its domain. If the first failures of a set of rules differ under the two checks, one of them
is the email rule. So they are the same for rules without `email`, and for a text that the check of
a browser accepts and that has a dot in its domain. -/
theorem checks_part_at_email :
    (∀ s : String, html.accepts s = true →
      (simple.accepts s = true ↔ '.' ∈ domainOf s.toList)) ∧
    ∀ (set : RuleSet) (value : Option Value),
      (set.firstFailure html value ≠ set.firstFailure simple value →
        set.firstFailure html value = some .email ∨
          set.firstFailure simple value = some .email) ∧
      (.email ∉ set.rules → set.firstFailure html value = set.firstFailure simple value) ∧
      (html.accepts (submittedText value) = true → '.' ∈ domainOf (submittedText value).toList →
        set.firstFailure html value = set.firstFailure simple value) := by
  refine ⟨fun s hs => accepts_simple_iff_of_html hs, ?_⟩
  intro set value
  have hcases := set.firstFailure_eq_or_email html simple value
  refine ⟨?_, ?_, ?_⟩
  · intro hne
    exact hcases.resolve_left hne
  · intro hemail
    rcases hcases with heq | hhtml | hsimple
    · exact heq
    · exact absurd hhtml (set.firstFailure_ne_email hemail html value)
    · exact absurd hsimple (set.firstFailure_ne_email hemail simple value)
  · intro hhtml hdot
    refine RuleSet.firstFailure_eq_of_accepts_eq ?_ set
    rw [hhtml, (accepts_simple_iff_of_html hhtml).mpr hdot]

/-- Without a dot the checks part, and behind the email rule a browser's check finds the length
too short. -/
theorem checks_part_at_email_dotless :
    let set : RuleSet := ⟨[.email, .min 4]⟩
    let lengths : RuleSet := ⟨[.required, .min 4]⟩
    let value : Option Value := some (.string "x@y")
    let dotted : Option Value := some (.string "x@y.z")
    (html.accepts "x@y" = true ∧ ¬ simple.accepts "x@y" = true) ∧
    (html.accepts "x@y.z" = true ∧ simple.accepts "x@y.z" = true) ∧
    (set.firstFailure html value = some (.min 4) ∧
      set.firstFailure html value ≠ set.firstFailure simple value ∧
      (set.firstFailure html value = some .email ∨
        set.firstFailure simple value = some .email)) ∧
    (.email ∉ lengths.rules ∧
      lengths.firstFailure html value = lengths.firstFailure simple value) ∧
    ('.' ∈ domainOf (submittedText dotted).toList ∧
      set.firstFailure html dotted = set.firstFailure simple dotted) := by
  intro set lengths value dotted
  obtain ⟨htexts, hsets⟩ := checks_part_at_email
  have hbare : html.accepts "x@y" = true := by decide +kernel
  have hdotted : html.accepts "x@y.z" = true := by decide +kernel
  have hnoDot : '.' ∉ domainOf "x@y".toList := by decide +kernel
  have hdot : '.' ∈ domainOf "x@y.z".toList := by decide +kernel
  have hlength : set.firstFailure html value = some (.min 4) := by decide +kernel
  have hne : set.firstFailure html value ≠ set.firstFailure simple value := by decide +kernel
  have hnoEmail : .email ∉ lengths.rules := by decide
  refine ⟨⟨hbare, ?_⟩, ⟨hdotted, (htexts _ hdotted).mpr hdot⟩,
    ⟨hlength, hne, (hsets set value).1 hne⟩,
    ⟨hnoEmail, (hsets lengths value).2.1 hnoEmail⟩,
    hdot, (hsets set dotted).2.2 hdotted hdot⟩
  rw [htexts _ hbare]
  exact hnoDot

end EmailPattern
end FormCheck
