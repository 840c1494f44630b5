import FormCheck.Proofs.JsonTokens
import Mathlib.Data.List.DropRight

/-!
# Reading back documents

A layout says which blanks stand between the parts of a document. The two layouts in use are a
single line and one line for each item, but the reader undoes them all: a document is read back from
its text in any layout, with blanks around it. So no two documents have the same text.
-/
namespace FormCheck

namespace Json

/-! ## What the reader does at each part -/

/-- Only blanks. -/
def IsGap (s : List Char) : Prop := ∀ c ∈ s, isSpace c = true

theorem isGap_nil : IsGap [] := by simp [IsGap]

theorem skipSpace_append {gap : List Char} (h : IsGap gap) (s : List Char) :
    skipSpace (gap ++ s) = skipSpace s :=
  List.dropWhile_append_of_pos h

theorem skipSpace_cons {c : Char} (h : isSpace c = false) (s : List Char) :
    skipSpace (c :: s) = c :: s :=
  List.dropWhile_cons_of_neg (by simp [h])

@[simp] theorem skipSpace_skipSpace (s : List Char) : skipSpace (skipSpace s) = skipSpace s :=
  List.dropWhile_idempotent _ _

/-- Blanks before a document do not count. -/
theorem readValue_skipSpace (fuel : Nat) (s : List Char) :
    readValue fuel (skipSpace s) = readValue fuel s := by
  cases fuel with
  | zero => rfl
  | succ fuel => rw [readValue, readValue, skipSpace_skipSpace]

theorem readItems_skipSpace (fuel : Nat) (s : List Char) :
    readItems fuel (skipSpace s) = readItems fuel s := by
  cases fuel with
  | zero => rfl
  | succ fuel => rw [readItems, readItems, readValue_skipSpace]

theorem readMembers_skipSpace (fuel : Nat) (s : List Char) :
    readMembers fuel (skipSpace s) = readMembers fuel s := by
  cases fuel with
  | zero => rfl
  | succ fuel => rw [readMembers, readMembers, readName, readName, skipSpace_skipSpace]

theorem readValue_bracket (fuel : Nat) (s : List Char) : readValue fuel (']' :: s) = none := by
  cases fuel with
  | zero => rfl
  | succ fuel => rfl

theorem readItems_bracket (fuel : Nat) (s : List Char) : readItems fuel (']' :: s) = none := by
  cases fuel with
  | zero => rfl
  | succ fuel => rw [readItems, readValue_bracket]; rfl

theorem readMembers_brace (fuel : Nat) (s : List Char) : readMembers fuel ('}' :: s) = none := by
  cases fuel with
  | zero => rfl
  | succ fuel => rfl

theorem readValue_array {fuel : Nat} {s rest : List Char} {items : List Json}
    (h : readItems fuel s = some (items, rest)) :
    readValue (fuel + 1) ('[' :: s) = some (array items, rest) := by
  rw [readValue, skipSpace_cons rfl]
  simp only
  rw [← readItems_skipSpace] at h
  split
  · rename_i heq
    rw [heq, readItems_bracket] at h
    cases h
  · rw [h, Option.map_some]

theorem readValue_object {fuel : Nat} {s rest : List Char} {members : List (JsonText × Json)}
    (h : readMembers fuel s = some (members, rest)) :
    readValue (fuel + 1) ('{' :: s) = some (object members, rest) := by
  rw [readValue, skipSpace_cons rfl]
  simp only
  rw [← readMembers_skipSpace] at h
  split
  · rename_i heq
    rw [heq, readMembers_brace] at h
    cases h
  · rw [h, Option.map_some]

theorem readValue_string (fuel : Nat) (s : JsonText) (rest : List Char) :
    readValue (fuel + 1) (quote s ++ rest) = some (string s, rest) := by
  obtain ⟨body, hquote, hread⟩ := readText_quote s rest
  rw [hquote, readValue, skipSpace_cons rfl]
  simp only [hread, Option.map_some]

theorem readValue_append {gap : List Char} (h : IsGap gap) (fuel : Nat) (s : List Char) :
    readValue fuel (gap ++ s) = readValue fuel s := by
  rw [← readValue_skipSpace, skipSpace_append h, readValue_skipSpace]

theorem readValue_null (fuel : Nat) (rest : List Char) :
    readValue (fuel + 1) (compact null ++ rest) = some (null, rest) := by
  rw [compact]
  rfl

theorem readValue_bool (fuel : Nat) (b : Bool) (rest : List Char) :
    readValue (fuel + 1) (compact (bool b) ++ rest) = some (bool b, rest) := by
  rw [compact]
  cases b with
  | false => rfl
  | true => rfl

theorem readValue_numeral {n : Numeral} (h : n.WellFormed) (fuel : Nat) {rest : List Char}
    (hrest : EndsNumeral rest) :
    readValue (fuel + 1) (n.chars ++ rest) = some (number n, rest) := by
  have hread := readNumeral_chars h hrest
  obtain ⟨c, s, hchars, hc⟩ := exists_chars_eq_cons h
  have hne : ∀ d : Char, d ≠ '-' → d.isDigit = false → c ≠ d := by
    rintro d hsign hdigit rfl
    rcases hc with hc | hc
    · exact hsign hc
    · simp [hc] at hdigit
  have hspace : isSpace c = false := by
    simp [isSpace, hne ' ', hne '\t', hne '\n', hne '\r']
  rw [hchars, List.cons_append] at hread ⊢
  rw [readValue, skipSpace_cons hspace]
  -- Every other kind of document begins with a character of its own.
  split
  case h_7 => rw [hread, Option.map_some]
  all_goals
    rename_i heq
    exact absurd (List.cons.inj heq).1 (hne _ (by decide) (by decide))

theorem readName_quote {gap : List Char} (h : IsGap gap) (name : JsonText) (s : List Char) :
    readName (gap ++ (quote name ++ ':' :: s)) = some (name, s) := by
  obtain ⟨body, hquote, hread⟩ := readText_quote name (':' :: s)
  rw [readName, skipSpace_append h, hquote, skipSpace_cons rfl]
  simp only [hread]
  rfl

theorem readItems_last {fuel : Nat} {s t rest : List Char} {item : Json}
    (hitem : readValue fuel s = some (item, t)) (ht : skipSpace t = ']' :: rest) :
    readItems (fuel + 1) s = some ([item], rest) := by
  simp [readItems, hitem, ht]

theorem readItems_next {fuel : Nat} {s t u rest : List Char} {item : Json} {items : List Json}
    (hitem : readValue fuel s = some (item, t)) (ht : skipSpace t = ',' :: u)
    (hitems : readItems fuel u = some (items, rest)) :
    readItems (fuel + 1) s = some (item :: items, rest) := by
  simp [readItems, hitem, ht, hitems]

theorem readMembers_last {fuel : Nat} {s t u rest : List Char} {name : JsonText} {value : Json}
    (hname : readName s = some (name, t)) (hvalue : readValue fuel t = some (value, u))
    (hu : skipSpace u = '}' :: rest) :
    readMembers (fuel + 1) s = some ([(name, value)], rest) := by
  simp [readMembers, hname, hvalue, hu]

theorem readMembers_next {fuel : Nat} {s t u v rest : List Char} {name : JsonText} {value : Json}
    {members : List (JsonText × Json)} (hname : readName s = some (name, t))
    (hvalue : readValue fuel t = some (value, u)) (hu : skipSpace u = ',' :: v)
    (hmembers : readMembers fuel v = some (members, rest)) :
    readMembers (fuel + 1) s = some ((name, value) :: members, rest) := by
  simp [readMembers, hname, hvalue, hu, hmembers]

/-- The documents whose numerals are in the form that numerals are written in. -/
inductive WellFormed : Json → Prop
  | null : WellFormed null
  | bool (b : Bool) : WellFormed (bool b)
  | number {n : Numeral} (h : n.WellFormed) : WellFormed (number n)
  | string (s : JsonText) : WellFormed (string s)
  | array {items : List Json} (h : ∀ item ∈ items, WellFormed item) : WellFormed (array items)
  | object {members : List (JsonText × Json)} (h : ∀ member ∈ members, WellFormed member.2) :
      WellFormed (object members)

theorem wellFormed_text (s : String) : (text s).WellFormed := .string (some s)

theorem wellFormed_array_map {α : Type} {encode : α → Json} (h : ∀ a, (encode a).WellFormed)
    (l : List α) : (array (l.map encode)).WellFormed := by
  refine .array fun item hitem => ?_
  obtain ⟨a, -, rfl⟩ := List.mem_map.mp hitem
  exact h a

theorem wellFormed_record {members : List (String × Json)} (h : ∀ m ∈ members, m.2.WellFormed) :
    (record members).WellFormed := by
  refine .object fun member hmember => ?_
  obtain ⟨m, hm, rfl⟩ := List.mem_map.mp hmember
  exact h m hm

/-! ## Layouts -/

/-- The blanks between the parts of a document. -/
structure Layout where
  /-- What stands in front of the items and members of a level, and in front of the bracket that
  closes the level inside. -/
  line : Nat → List Char
  /-- What stands behind the colon of a member. -/
  gap : List Char
  line_isGap : ∀ level, IsGap (line level)
  gap_isGap : IsGap gap

namespace Layout

/-- No blanks at all. -/
def singleLine : Layout where
  line _ := []
  gap := []
  line_isGap _ := isGap_nil
  gap_isGap := isGap_nil

/-- A line for each item and member. -/
def indented : Layout where
  line := newline
  gap := [' ']
  line_isGap := by
    intro level c hc
    rcases List.mem_cons.mp hc with rfl | hc
    · rfl
    · rw [List.eq_of_mem_replicate hc]
      rfl
  gap_isGap := by simp [IsGap, isSpace]

mutual

/-- A document in a layout. -/
def write (layout : Layout) (level : Nat) : Json → List Char
  | array (item :: rest) =>
    '[' :: writeItems layout (level + 1) (item :: rest) ++ layout.line level ++ [']']
  | object (member :: rest) =>
    '{' :: writeMembers layout (level + 1) (member :: rest) ++ layout.line level ++ ['}']
  | null => compact null
  | bool b => compact (bool b)
  | number n => compact (number n)
  | string s => compact (string s)
  | array [] => compact (array [])
  | object [] => compact (object [])

def writeItems (layout : Layout) (level : Nat) : List Json → List Char
  | [] => []
  | [item] => layout.line level ++ write layout level item
  | item :: next :: rest =>
    layout.line level ++ write layout level item ++ ',' :: writeItems layout level (next :: rest)

def writeMembers (layout : Layout) (level : Nat) : List (JsonText × Json) → List Char
  | [] => []
  | [(name, value)] =>
    layout.line level ++ quote name ++ ':' :: layout.gap ++ write layout level value
  | (name, value) :: next :: rest =>
    layout.line level ++ quote name ++ ':' :: layout.gap ++ write layout level value ++
      ',' :: writeMembers layout level (next :: rest)

end

mutual

theorem write_singleLine (level : Nat) (j : Json) : singleLine.write level j = compact j := by
  cases j with
  | array items =>
    cases items with
    | nil => rw [write]
    | cons item rest =>
      rw [write, compact, writeItems_singleLine]
      simp [singleLine]
  | object members =>
    cases members with
    | nil => rw [write]
    | cons member rest =>
      rw [write, compact, writeMembers_singleLine]
      simp [singleLine]
  | null => rw [write]
  | bool b => rw [write]
  | number n => rw [write]
  | string s => rw [write]

theorem writeItems_singleLine (level : Nat) (items : List Json) :
    singleLine.writeItems level items = compactItems items := by
  match items with
  | [] => rfl
  | [item] =>
    rw [writeItems, compactItems, write_singleLine]
    rfl
  | item :: next :: rest =>
    rw [writeItems, compactItems, write_singleLine, writeItems_singleLine]
    rfl

theorem writeMembers_singleLine (level : Nat) (members : List (JsonText × Json)) :
    singleLine.writeMembers level members = compactMembers members := by
  match members with
  | [] => rfl
  | [(name, value)] =>
    rw [writeMembers, compactMembers, write_singleLine]
    simp [singleLine]
  | (name, value) :: next :: rest =>
    rw [writeMembers, compactMembers, write_singleLine, writeMembers_singleLine]
    simp [singleLine]

end

mutual

theorem write_indented (level : Nat) (j : Json) : indented.write level j = pretty level j := by
  cases j with
  | array items =>
    cases items with
    | nil => rw [write, pretty]
    | cons item rest =>
      rw [write, pretty, writeItems_indented]
      rfl
  | object members =>
    cases members with
    | nil => rw [write, pretty]
    | cons member rest =>
      rw [write, pretty, writeMembers_indented]
      rfl
  | null => rw [write, pretty]
  | bool b => rw [write, pretty]
  | number n => rw [write, pretty]
  | string s => rw [write, pretty]

theorem writeItems_indented (level : Nat) (items : List Json) :
    indented.writeItems level items = prettyItems level items := by
  match items with
  | [] => rfl
  | [item] =>
    rw [writeItems, prettyItems, write_indented]
    rfl
  | item :: next :: rest =>
    rw [writeItems, prettyItems, write_indented, writeItems_indented]
    rfl

theorem writeMembers_indented (level : Nat) (members : List (JsonText × Json)) :
    indented.writeMembers level members = prettyMembers level members := by
  match members with
  | [] => rfl
  | [(name, value)] =>
    rw [writeMembers, prettyMembers, write_indented]
    simp [indented]
  | (name, value) :: next :: rest =>
    rw [writeMembers, prettyMembers, write_indented, writeMembers_indented]
    simp [indented]

end

/-! ## Reading back -/

/-- A document is read back from its text in a layout, whatever stands behind it that is no part of
a numeral. -/
def ReadsBack (layout : Layout) (j : Json) : Prop :=
  ∀ level fuel rest, EndsNumeral rest → (layout.write level j).length ≤ fuel →
    readValue (fuel + 1) (layout.write level j ++ rest) = some (j, rest)

theorem endsNumeral_mark {c : Char} (h : c = ',' ∨ c = ']' ∨ c = '}') (s : List Char) :
    EndsNumeral (c :: s) := by
  intro d hd
  obtain rfl : c = d := by simpa using hd
  rcases h with rfl | rfl | rfl
  · decide
  · decide
  · decide

theorem endsNumeral_append {gap : List Char} (h : IsGap gap) {s : List Char}
    (hs : EndsNumeral s) : EndsNumeral (gap ++ s) := by
  cases gap with
  | nil => exact hs
  | cons c gap =>
    intro d hd
    obtain rfl : c = d := by simpa using hd
    have hc := h c List.mem_cons_self
    simp only [isSpace, Bool.or_eq_true, beq_iff_eq] at hc
    rcases hc with ((rfl | rfl) | rfl) | rfl
    · decide
    · decide
    · decide
    · decide

theorem readItems_writeItems {layout : Layout} {items : List Json} (hne : items ≠ [])
    (hitems : ∀ item ∈ items, layout.ReadsBack item) (level : Nat) {gap : List Char}
    (hgap : IsGap gap) (rest : List Char) (fuel : Nat)
    (hfuel : (layout.writeItems level items).length ≤ fuel) :
    readItems (fuel + 2) (layout.writeItems level items ++ (gap ++ ']' :: rest)) =
      some (items, rest) := by
  induction items generalizing fuel with
  | nil => exact absurd rfl hne
  | cons item tail ih =>
    cases tail with
    | nil =>
      simp only [writeItems, List.append_assoc, List.length_append] at hfuel ⊢
      have hends := endsNumeral_append hgap (endsNumeral_mark (.inr (.inl rfl)) rest)
      have hread := hitems item List.mem_cons_self level fuel _ hends (by omega)
      rw [← readValue_append (layout.line_isGap level)] at hread
      exact readItems_last hread (by rw [skipSpace_append hgap, skipSpace_cons rfl])
    | cons next tail =>
      simp only [writeItems, List.append_assoc, List.length_append, List.length_cons,
        List.cons_append] at hfuel ⊢
      obtain ⟨fuel, rfl⟩ : ∃ f, fuel = f + 1 := ⟨fuel - 1, by omega⟩
      have hends := endsNumeral_mark (.inl rfl) (layout.writeItems level (next :: tail) ++
        (gap ++ ']' :: rest))
      have hread := hitems item List.mem_cons_self level (fuel + 1) _ hends (by omega)
      rw [← readValue_append (layout.line_isGap level)] at hread
      have htail := ih (List.cons_ne_nil next tail)
        (fun i hi => hitems i (List.mem_cons_of_mem item hi)) fuel (by omega)
      exact readItems_next hread (skipSpace_cons rfl _) htail

theorem readMembers_writeMembers {layout : Layout} {members : List (JsonText × Json)}
    (hne : members ≠ []) (hmembers : ∀ member ∈ members, layout.ReadsBack member.2) (level : Nat)
    {gap : List Char} (hgap : IsGap gap) (rest : List Char) (fuel : Nat)
    (hfuel : (layout.writeMembers level members).length ≤ fuel) :
    readMembers (fuel + 2) (layout.writeMembers level members ++ (gap ++ '}' :: rest)) =
      some (members, rest) := by
  induction members generalizing fuel with
  | nil => exact absurd rfl hne
  | cons member tail ih =>
    obtain ⟨name, value⟩ := member
    have hvalue : layout.ReadsBack value := hmembers (name, value) List.mem_cons_self
    cases tail with
    | nil =>
      simp only [writeMembers, List.append_assoc, List.length_append, List.length_cons,
        List.cons_append] at hfuel ⊢
      have hends := endsNumeral_append hgap (endsNumeral_mark (.inr (.inr rfl)) rest)
      have hread := hvalue level fuel _ hends (by omega)
      rw [← readValue_append layout.gap_isGap] at hread
      exact readMembers_last (readName_quote (layout.line_isGap level) name _) hread
        (by rw [skipSpace_append hgap, skipSpace_cons rfl])
    | cons next tail =>
      simp only [writeMembers, List.append_assoc, List.length_append, List.length_cons,
        List.cons_append] at hfuel ⊢
      obtain ⟨fuel, rfl⟩ : ∃ f, fuel = f + 1 := ⟨fuel - 1, by omega⟩
      have hends := endsNumeral_mark (.inl rfl) (layout.writeMembers level (next :: tail) ++
        (gap ++ '}' :: rest))
      have hread := hvalue level (fuel + 1) _ hends (by omega)
      rw [← readValue_append layout.gap_isGap] at hread
      have htail := ih (List.cons_ne_nil next tail)
        (fun m hm => hmembers m (List.mem_cons_of_mem _ hm)) fuel (by omega)
      exact readMembers_next (readName_quote (layout.line_isGap level) name _) hread
        (skipSpace_cons rfl _) htail

end Layout

/-- Every document is read back from its text in every layout. -/
theorem WellFormed.readsBack (layout : Layout) {j : Json} (h : j.WellFormed) :
    layout.ReadsBack j := by
  induction h with
  | null =>
    intro level fuel rest hrest hfuel
    rw [Layout.write]
    exact readValue_null fuel rest
  | bool b =>
    intro level fuel rest hrest hfuel
    rw [Layout.write]
    exact readValue_bool fuel b rest
  | number hn =>
    intro level fuel rest hrest hfuel
    rw [Layout.write, compact]
    exact readValue_numeral hn fuel hrest
  | string s =>
    intro level fuel rest hrest hfuel
    rw [Layout.write, compact]
    exact readValue_string fuel s rest
  | @array items hitems ih =>
    intro level fuel rest hrest hfuel
    cases items with
    | nil =>
      rw [Layout.write, compact, compactItems]
      rfl
    | cons item tail =>
      simp only [Layout.write, List.length_append, List.length_cons, List.cons_append,
        List.append_assoc] at hfuel ⊢
      obtain ⟨fuel, rfl⟩ : ∃ f, fuel = f + 2 := ⟨fuel - 2, by omega⟩
      exact readValue_array (Layout.readItems_writeItems (List.cons_ne_nil item tail) ih (level + 1)
        (layout.line_isGap level) rest fuel (by omega))
  | @object members hmembers ih =>
    intro level fuel rest hrest hfuel
    cases members with
    | nil =>
      rw [Layout.write, compact, compactMembers]
      rfl
    | cons member tail =>
      simp only [Layout.write, List.length_append, List.length_cons, List.cons_append,
        List.append_assoc] at hfuel ⊢
      obtain ⟨fuel, rfl⟩ : ∃ f, fuel = f + 2 := ⟨fuel - 2, by omega⟩
      exact readValue_object (Layout.readMembers_writeMembers (List.cons_ne_nil member tail) ih
        (level + 1) (layout.line_isGap level) rest fuel (by omega))

/-- A document is what its text in a layout stands for, also with blanks behind it. -/
theorem parse?_write (layout : Layout) {j : Json} (h : j.WellFormed) {gap : List Char}
    (hgap : IsGap gap) : parse? (String.ofList (layout.write 0 j ++ gap)) = some j := by
  have hend : EndsNumeral [] := by simp [EndsNumeral]
  have hends := Layout.endsNumeral_append hgap hend
  have hskip := skipSpace_append hgap []
  rw [List.append_nil] at hends hskip
  have hread := h.readsBack layout 0 (layout.write 0 j ++ gap).length gap hends
    (by rw [List.length_append]; omega)
  rw [parse?, String.toList_ofList, hread]
  simp only [hskip]
  rfl

/-- A document is read back from its text on one line. -/
theorem parse?_compactText {j : Json} (h : j.WellFormed) : parse? j.compactText = some j := by
  have hread := parse?_write .singleLine h isGap_nil
  rwa [List.append_nil, Layout.write_singleLine] at hread

/-- A document is read back from its indented text, also with blanks behind it. -/
theorem parse?_prettyText_append {j : Json} (h : j.WellFormed) {gap : String}
    (hgap : IsGap gap.toList) : parse? (j.prettyText ++ gap) = some j := by
  have hread := parse?_write .indented h hgap
  rwa [Layout.write_indented, String.ofList_append, String.ofList_toList] at hread

theorem parse?_prettyText {j : Json} (h : j.WellFormed) : parse? j.prettyText = some j := by
  have hread := parse?_write .indented h isGap_nil
  rwa [List.append_nil, Layout.write_indented] at hread

/-- Decoding undoes encoding item by item. -/
theorem mapM_map_eq_some {α β γ : Type} {encode : α → β} {decode : β → Option γ} {back : α → γ}
    {l : List α} (h : ∀ a ∈ l, decode (encode a) = some (back a)) :
    (l.map encode).mapM decode = some (l.map back) := by
  induction l with
  | nil => rfl
  | cons a l ih =>
    have ha := h a List.mem_cons_self
    have hl := ih fun b hb => h b (List.mem_cons_of_mem a hb)
    rw [List.map_cons, List.mapM_cons, ha, hl]
    rfl

end Json
end FormCheck
