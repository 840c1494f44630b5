import FormCheck.Rule.Set
import Mathlib.Data.List.InsertIdx

/-!
# Accounting for every token

The tokens of a rule string are its pieces between bars. What is read of a rule string comes from
its tokens one by one and in their order: a token leaves nothing behind, or one rule, or one event
that reports it. So rule strings are read part by part, and tokens that are no rules may come and go
at any place.
-/
namespace FormCheck

/-- What becomes of tokens in order. An empty token leaves nothing behind, a token that is a rule is
kept as that rule, and any other is reported as it is written. -/
inductive AccountedFor : List String → List Rule → List Event → Prop
  | nil : AccountedFor [] [] []
  | empty {tokens rules events} (rest : AccountedFor tokens rules events) :
      AccountedFor ("" :: tokens) rules events
  | rule {token rule tokens rules events} (htoken : Rule.parse token = some rule)
      (rest : AccountedFor tokens rules events) :
      AccountedFor (token :: tokens) (rule :: rules) events
  | unrecognized {token tokens rules events} (hne : token ≠ "") (htoken : Rule.parse token = none)
      (rest : AccountedFor tokens rules events) :
      AccountedFor (token :: tokens) rules (.unrecognizedRule token :: events)

/-- Leaving out an item that `f` does not map changes nothing. -/
theorem filterMap_eraseIdx_of_eq_none {α β : Type} {f : α → Option β} {l : List α} {i : Nat} {a : α}
    (ha : l[i]? = some a) (hf : f a = none) : (l.eraseIdx i).filterMap f = l.filterMap f := by
  induction l generalizing i with
  | nil => rfl
  | cons b l ih =>
    cases i with
    | zero =>
      have hb : b = a := by simpa using ha
      rw [List.eraseIdx_zero, List.tail_cons, List.filterMap_cons_none (hb ▸ hf)]
    | succ i =>
      rw [List.eraseIdx_cons_succ, List.filterMap_cons, List.filterMap_cons, ih (by simpa using ha)]

/-- Putting in an item that `f` does not map changes nothing. -/
theorem filterMap_insertIdx_of_eq_none {α β : Type} {f : α → Option β} {a : α} (l : List α)
    (i : Nat) (hf : f a = none) : (l.insertIdx i a).filterMap f = l.filterMap f := by
  by_cases hi : i ≤ l.length
  · have ha : (l.insertIdx i a)[i]? = some a := by rw [List.getElem?_insertIdx_self, if_pos hi]
    rw [← filterMap_eraseIdx_of_eq_none ha hf, List.eraseIdx_insertIdx_self]
  · rw [List.insertIdx_of_length_lt (by omega)]

@[simp] theorem Rule.parse_empty : parse "" = none := by decide

namespace RuleSet

theorem accountedFor_iff {tokens : List String} {rules : List Rule} {events : List Event} :
    AccountedFor tokens rules events ↔
      tokens.filterMap Rule.parse = rules ∧
      (tokens.filter isUnrecognized).map .unrecognizedRule = events := by
  constructor
  · intro h
    induction h with
    | nil => exact ⟨rfl, rfl⟩
    | empty rest ih => simpa [isUnrecognized] using ih
    | rule htoken rest ih => simpa [isUnrecognized, htoken] using ih
    | unrecognized hne htoken rest ih => simpa [isUnrecognized, hne, htoken] using ih
  · rintro ⟨rfl, rfl⟩
    induction tokens with
    | nil => exact .nil
    | cons token tokens ih =>
      by_cases hempty : token = ""
      · subst hempty
        simpa [isUnrecognized] using ih.empty
      · cases htoken : Rule.parse token with
        | none => simpa [isUnrecognized, hempty, htoken] using ih.unrecognized hempty htoken
        | some rule => simpa [isUnrecognized, htoken] using ih.rule htoken

theorem parse_eq_iff {raw : String} {rules : List Rule} {events : List Event} :
    parse raw = ⟨⟨rules⟩, events⟩ ↔ AccountedFor (tokens raw) rules events := by
  rw [accountedFor_iff, parse]
  simp

theorem tokens_append (a b : String) : tokens (a ++ "|" ++ b) = tokens a ++ tokens b := by
  have hbar : (a ++ "|" ++ b).toList = a.toList ++ '|' :: b.toList := by simp
  rw [tokens, hbar, Text.split_append_cons, List.map_append]
  rfl

theorem tokens_ne_nil (raw : String) : tokens raw ≠ [] := by
  simpa [tokens] using Text.split_ne_nil '|' raw.toList

theorem bar_notMem_of_mem_tokens {raw token : String} (h : token ∈ tokens raw) :
    '|' ∉ token.toList := by
  obtain ⟨piece, hpiece, rfl⟩ := List.mem_map.mp h
  rw [String.toList_ofList]
  exact Text.notMem_of_mem_split hpiece

theorem toList_intercalate_bar (pieces : List String) :
    ("|".intercalate pieces).toList = Text.join '|' (pieces.map String.toList) := by
  rw [String.toList_intercalate, Text.join_eq_intercalate]
  rfl

theorem intercalate_tokens (raw : String) : "|".intercalate (tokens raw) = raw := by
  rw [← String.toList_inj, toList_intercalate_bar, tokens, List.map_map]
  simpa [Function.comp_def] using Text.join_split '|' raw.toList

theorem tokens_intercalate {pieces : List String} (hne : pieces ≠ [])
    (hbar : ∀ piece ∈ pieces, '|' ∉ piece.toList) : tokens ("|".intercalate pieces) = pieces := by
  rw [tokens, toList_intercalate_bar, Text.split_join (by simpa using hne) (by simpa using hbar)]
  simp [Function.comp_def]

/-- The rules of pieces without bars. Without pieces there is one empty token. -/
theorem value_parse_intercalate {pieces : List String}
    (hbar : ∀ piece ∈ pieces, '|' ∉ piece.toList) :
    (parse ("|".intercalate pieces)).value = ⟨pieces.filterMap Rule.parse⟩ := by
  by_cases hne : pieces = []
  · subst hne
    decide
  · rw [parse, tokens_intercalate hne hbar]

/-- Reading a rule string in two parts at a bar gives the rules and the events of the parts in
order. The tokens are the pieces between bars, and each is accounted for: it is empty, or a rule
that is kept, or reported by one event. So putting in or taking out tokens that are no rules, at any
place, keeps the rules. -/
theorem parse_accounts_for_tokens :
    (∀ a b, parse (a ++ "|" ++ b) =
      ⟨⟨(parse a).value.rules ++ (parse b).value.rules⟩, (parse a).events ++ (parse b).events⟩) ∧
    (∀ raw, tokens raw ≠ [] ∧ (∀ token ∈ tokens raw, '|' ∉ token.toList) ∧
      "|".intercalate (tokens raw) = raw ∧
      ∀ rules events, parse raw = ⟨⟨rules⟩, events⟩ ↔ AccountedFor (tokens raw) rules events) ∧
    (∀ pieces, pieces ≠ [] → (∀ piece ∈ pieces, '|' ∉ piece.toList) →
      tokens ("|".intercalate pieces) = pieces) ∧
    ∀ raw i token, Rule.parse token = none →
      ('|' ∉ token.toList →
        (parse ("|".intercalate ((tokens raw).insertIdx i token))).value = (parse raw).value) ∧
      ((tokens raw)[i]? = some token →
        (parse ("|".intercalate ((tokens raw).eraseIdx i))).value = (parse raw).value) := by
  refine ⟨?_, ?_, fun pieces => tokens_intercalate, ?_⟩
  · intro a b
    simp only [parse, tokens_append, List.filterMap_append, List.filter_append, List.map_append]
  · exact fun raw => ⟨tokens_ne_nil raw, fun token => bar_notMem_of_mem_tokens,
      intercalate_tokens raw, fun rules events => parse_eq_iff⟩
  · intro raw i token htoken
    have hbars : ∀ piece ∈ tokens raw, '|' ∉ piece.toList := fun _ => bar_notMem_of_mem_tokens
    constructor
    · intro hbar
      have hpieces : ∀ piece ∈ (tokens raw).insertIdx i token, '|' ∉ piece.toList := by
        intro piece hpiece
        rcases List.eq_or_mem_of_mem_insertIdx hpiece with rfl | hpiece
        · exact hbar
        · exact hbars piece hpiece
      rw [value_parse_intercalate hpieces, filterMap_insertIdx_of_eq_none _ _ htoken, parse]
    · intro hi
      have hpieces : ∀ piece ∈ (tokens raw).eraseIdx i, '|' ∉ piece.toList :=
        fun piece hpiece => hbars piece (List.mem_of_mem_eraseIdx hpiece)
      rw [value_parse_intercalate hpieces, filterMap_eraseIdx_of_eq_none hi htoken, parse]

/-- An empty token in front, one that is no rule, and a bar at the end. -/
theorem parse_accounts_for_tokens_bogus :
    let raw := "|min:3|bogus|"
    tokens raw = ["", "min:3", "bogus", ""] ∧
    parse raw = ⟨⟨[.min 3]⟩, [.unrecognizedRule "bogus"]⟩ ∧
    tokens ("|".intercalate ["", "min:3"]) = ["", "min:3"] ∧
    (Rule.parse "max:1" = none ∧ '|' ∉ "max:1".toList ∧
      (parse ("|".intercalate ((tokens raw).insertIdx 4 "max:1"))).value = (parse raw).value) ∧
    (Rule.parse "bogus" = none ∧ (tokens raw)[2]? = some "bogus" ∧
      (parse ("|".intercalate ((tokens raw).eraseIdx 2))).value = (parse raw).value) := by
  intro raw
  obtain ⟨-, -, hpieces, hplaces⟩ := parse_accounts_for_tokens
  have hbar : '|' ∉ "max:1".toList := by decide
  have hmax : Rule.parse "max:1" = none := by decide
  have hbogus : Rule.parse "bogus" = none := by decide
  have hthird : (tokens raw)[2]? = some "bogus" := by decide
  refine ⟨by decide, by decide, hpieces _ (by decide) ?_, ⟨hmax, hbar, ?_⟩, hbogus, hthird, ?_⟩
  · simp
  · exact (hplaces raw 4 "max:1" hmax).1 hbar
  · exact (hplaces raw 2 "bogus" hbogus).2 hthird

end RuleSet
end FormCheck
