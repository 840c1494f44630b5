import FormCheck.Proofs.JsonLayouts
import FormCheck.Terminal

/-!
# Escape codes

An escape code is the escape character, an opening bracket, digits and semicolons, and the letter
`m`. `Text.strip` takes every escape code out of a text. What is written with colours is, once
stripped, what is written without, unless an escape character is part of what is written. A document
in JSON has none, since it writes control characters in another way.
-/
namespace FormCheck

namespace Text

/-- Which characters stand between the bracket and the end of an escape code. -/
def isParameter (c : Char) : Bool := c.isDigit || c = ';'

/-- The length of the escape code that a text begins with, or zero. -/
def codeLength : List Char → Nat
  | '\x1b' :: '[' :: s =>
    if (s.dropWhile isParameter).head? = some 'm' then (s.takeWhile isParameter).length + 3 else 0
  | _ => 0

/-- A text without its escape codes, from behind a number of characters on. -/
def stripFrom : Nat → List Char → List Char
  | _, [] => []
  | n + 1, _ :: s => stripFrom n s
  | 0, c :: s =>
    match codeLength (c :: s) with
    | 0 => c :: stripFrom 0 s
    | n + 1 => stripFrom n s

/-- A text without its escape codes. -/
def strip (s : String) : String := String.ofList (stripFrom 0 s.toList)

theorem stripFrom_eq_drop (n : Nat) (s : List Char) : stripFrom n s = stripFrom 0 (s.drop n) := by
  induction n generalizing s with
  | zero => rfl
  | succ n ih =>
    cases s with
    | nil => rfl
    | cons c s => rw [stripFrom, List.drop_succ_cons, ih]

theorem codeLength_cons {c : Char} (h : c ≠ '\x1b') (s : List Char) : codeLength (c :: s) = 0 := by
  unfold codeLength
  split
  · rename_i heq
    exact absurd (List.cons.inj heq).1 h
  · rfl

/-- Without the escape character there is nothing to take out. -/
theorem stripFrom_append {t : List Char} (h : '\x1b' ∉ t) (s : List Char) :
    stripFrom 0 (t ++ s) = t ++ stripFrom 0 s := by
  induction t with
  | nil => rfl
  | cons c t ih =>
    rw [List.mem_cons, not_or] at h
    obtain ⟨hc, ht⟩ := h
    rw [List.cons_append, stripFrom, codeLength_cons (Ne.symm hc)]
    simp only
    rw [ih ht, List.cons_append]

/-- The escape code with given parameters. -/
def code (parameters : List Char) : List Char := '\x1b' :: '[' :: parameters ++ ['m']

theorem codeLength_code_append {parameters : List Char}
    (h : parameters.all isParameter = true) (s : List Char) :
    codeLength (code parameters ++ s) = parameters.length + 3 := by
  have hcode : code parameters ++ s = '\x1b' :: '[' :: (parameters ++ 'm' :: s) := by simp [code]
  have hm : isParameter 'm' = false := by decide
  rw [List.all_eq_true] at h
  rw [hcode, codeLength, List.dropWhile_append_of_pos h, List.takeWhile_append_of_pos h]
  simp [hm]

/-- An escape code is taken out as a whole. -/
theorem stripFrom_code_append {parameters : List Char}
    (h : parameters.all isParameter = true) (s : List Char) :
    stripFrom 0 (code parameters ++ s) = stripFrom 0 s := by
  have hlength := codeLength_code_append h s
  have hcode : code parameters ++ s = '\x1b' :: ('[' :: parameters ++ ['m'] ++ s) := by simp [code]
  rw [hcode] at hlength ⊢
  rw [stripFrom, hlength]
  simp only
  rw [stripFrom_eq_drop, List.drop_left' (by simp)]

/-- What only begins like an escape code stays. -/
example : strip "\x1b[1;31mno\x1b[0m \x1b[1x" = "no \x1b[1x" := by decide +kernel

/-- A text that no escape code can begin in. -/
def EscapeFree (s : String) : Prop := '\x1b' ∉ s.toList

instance (s : String) : Decidable (EscapeFree s) := inferInstanceAs (Decidable (_ ∉ _))

theorem escapeFree_ofList {s : List Char} (h : '\x1b' ∉ s) : EscapeFree (String.ofList s) := by
  rwa [EscapeFree, String.toList_ofList]

@[simp] theorem escapeFree_append {s t : String} :
    EscapeFree (s ++ t) ↔ EscapeFree s ∧ EscapeFree t := by
  simp [EscapeFree]

@[simp] theorem escapeFree_repr (n : Nat) : EscapeFree (Nat.repr n) := by
  intro hmem
  rw [Nat.toList_repr] at hmem
  exact absurd (Nat.isDigit_of_mem_toDigits (by decide) (by decide) hmem) (by decide)

theorem escapeFree_intercalate {sep : String} (hsep : EscapeFree sep) {l : List String}
    (h : ∀ s ∈ l, EscapeFree s) : EscapeFree (sep.intercalate l) := by
  rw [EscapeFree, String.toList_intercalate]
  induction l with
  | nil => simp
  | cons s rest ih =>
    have hs : '\x1b' ∉ s.toList := h s List.mem_cons_self
    have hrest := ih fun t ht => h t (List.mem_cons_of_mem s ht)
    cases rest with
    | nil => simpa using hs
    | cons t rest =>
      rw [List.map_cons, List.map_cons, List.intercalate_cons_cons, ← List.map_cons,
        List.mem_append, List.mem_append]
      rintro ((hmem | hmem) | hmem)
      · exact hs hmem
      · exact hsep hmem
      · exact hrest hmem

theorem escapeFree_join {l : List String} (h : ∀ s ∈ l, EscapeFree s) :
    EscapeFree (String.join l) := by
  rw [EscapeFree, String.toList_join, List.mem_flatMap]
  rintro ⟨s, hs, hmem⟩
  exact h s hs hmem

theorem toUpper_ne_escape {c : Char} (h : c ≠ '\x1b') : c.toUpper ≠ '\x1b' := by
  unfold Char.toUpper
  split
  next hlower =>
    have hge : 97 ≤ c.val.toNat := hlower.1
    have hle : c.val.toNat ≤ 122 := hlower.2
    intro heq
    have hval := congrArg Char.toNat heq
    rw [Char.toNat, UInt32.toNat_add] at hval
    have hshift : ('A'.val - 'a'.val).toNat = 4294967264 := by decide
    have hescape : '\x1b'.toNat = 27 := by decide
    omega
  next => exact h

/-- Taking the escape codes out of one text leaves another, whatever stands behind the two. -/
def StripsTo (colored bare : String) : Prop :=
  ∀ rest, stripFrom 0 (colored.toList ++ rest) = bare.toList ++ stripFrom 0 rest

theorem EscapeFree.stripsTo {s : String} (h : EscapeFree s) : StripsTo s s :=
  stripFrom_append h

namespace StripsTo

theorem strip_eq {colored bare : String} (h : StripsTo colored bare) : strip colored = bare := by
  have hnil := h []
  rw [List.append_nil] at hnil
  rw [strip, hnil, stripFrom, List.append_nil, String.ofList_toList]

theorem append {c₁ c₂ b₁ b₂ : String} (h₁ : StripsTo c₁ b₁) (h₂ : StripsTo c₂ b₂) :
    StripsTo (c₁ ++ c₂) (b₁ ++ b₂) := by
  intro rest
  rw [String.toList_append, String.toList_append, List.append_assoc, h₁, h₂, List.append_assoc]

theorem join {α : Type} {l : List α} {colored bare : α → String}
    (h : ∀ a ∈ l, StripsTo (colored a) (bare a)) :
    StripsTo (String.join (l.map colored)) (String.join (l.map bare)) := by
  induction l with
  | nil => exact EscapeFree.stripsTo (s := "") (by decide)
  | cons a l ih =>
    rw [List.map_cons, List.map_cons, String.join_cons, String.join_cons]
    exact (h a List.mem_cons_self).append (ih fun b hb => h b (List.mem_cons_of_mem a hb))

end StripsTo
end Text

open Text

/-! ## Text for a terminal -/

namespace Style

theorem all_isParameter_codes (style : Style) : style.codes.toList.all isParameter = true := by
  cases style <;> decide

/-- In a text without the escape character no style has to begin again. -/
theorem resume_of_notMem (style : Style) {s : List Char} (h : '\x1b' ∉ s) :
    style.resume s = s := by
  induction s with
  | nil => rfl
  | cons c s ih =>
    rw [List.mem_cons, not_or] at h
    obtain ⟨hc, hs⟩ := h
    unfold resume
    split
    · rename_i heq
      exact absurd (List.cons.inj heq).1 (Ne.symm hc)
    · rename_i heq
      obtain ⟨rfl, rfl⟩ := List.cons.inj heq
      rw [ih hs]
    · rename_i heq
      cases heq

/-- A style is the escape code in front of a text and the escape code behind it. -/
theorem toList_paint (style : Style) {text : String} (h : EscapeFree text) :
    (style.paint text).toList = code style.codes.toList ++ text.toList ++ code ['0'] := by
  rw [paint, String.toList_ofList, resume_of_notMem style h]
  rfl

theorem stripsTo_paint (style : Style) {text : String} (h : EscapeFree text) :
    StripsTo (style.paint text) text := by
  intro rest
  rw [toList_paint style h, List.append_assoc, List.append_assoc,
    stripFrom_code_append style.all_isParameter_codes, stripFrom_append h,
    stripFrom_code_append (by decide)]

end Style

theorem Span.stripsTo_render (color : Bool) {span : Span} (h : EscapeFree span.text) :
    StripsTo (span.render color) span.text := by
  rw [render]
  cases span.style with
  | none => exact h.stripsTo
  | some style =>
    cases color with
    | true => exact style.stripsTo_paint h
    | false => exact h.stripsTo

namespace Line

/-- A line whose spans have no escape character in them. -/
def EscapeFree (line : Line) : Prop := ∀ span ∈ line, Text.EscapeFree span.text

theorem stripsTo_render (color : Bool) {line : Line} (h : line.EscapeFree) :
    StripsTo (line.render color) (line.render false) := by
  refine StripsTo.join fun span hspan => ?_
  rw [Span.render_false]
  exact Span.stripsTo_render color (h span hspan)

/-- Lines with colours are the lines without, but for the escape codes. -/
theorem stripsTo_renderAll (color : Bool) {lines : List Line}
    (h : ∀ line ∈ lines, line.EscapeFree) :
    StripsTo (renderAll color lines) (renderAll false lines) := by
  refine StripsTo.join fun line hline => (stripsTo_render color (h line hline)).append ?_
  exact Text.EscapeFree.stripsTo (by decide)

end Line

/-! ## Documents -/

namespace Json

theorem esc_notMem_escape (c : Char) : '\x1b' ∉ escape c := by
  by_cases hc : c.toNat < 0x20
  · have hcontrol : ∀ n < 0x20, '\x1b' ∉ escape (Char.ofNat n) := by decide
    have hescape := hcontrol c.toNat hc
    rwa [Char.ofNat_toNat] at hescape
  · have hne : '\x1b' ≠ c := by
      rintro rfl
      exact hc (by decide)
    unfold escape
    split_ifs <;> simp [hne]

theorem esc_notMem_quote (s : JsonText) : '\x1b' ∉ quote s := by
  cases s with
  | none => decide
  | some s => simp [quote_some, esc_notMem_escape]

theorem esc_notMem_chars {n : Numeral} (h : n.WellFormed) : '\x1b' ∉ n.chars := by
  have hwhole : '\x1b' ∉ n.whole := fun hmem => absurd (h.whole_digits _ hmem) (by decide)
  have hfraction : '\x1b' ∉ n.fraction := fun hmem => absurd (h.fraction_digits _ hmem) (by decide)
  have hexponent : '\x1b' ∉ Numeral.exponentChars n.exponent := by
    cases n.exponent with
    | none => simp [Numeral.exponentChars]
    | some e =>
      have hdigits : '\x1b' ∉ Nat.toDigits 10 e.natAbs := fun hmem =>
        absurd (Nat.isDigit_of_mem_toDigits (by decide) (by decide) hmem) (by decide)
      rw [Numeral.exponentChars]
      split_ifs <;> simp [hdigits]
  rw [Numeral.chars]
  split_ifs <;> simp [hwhole, hfraction, hexponent]

theorem IsGap.esc_notMem {gap : List Char} (h : IsGap gap) : '\x1b' ∉ gap :=
  fun hmem => absurd (h _ hmem) (by decide)

namespace Layout

theorem esc_notMem_writeItems {layout : Layout} {items : List Json}
    (h : ∀ item ∈ items, ∀ level, '\x1b' ∉ layout.write level item) (level : Nat) :
    '\x1b' ∉ layout.writeItems level items := by
  have hline := (layout.line_isGap level).esc_notMem
  induction items with
  | nil => simp [writeItems]
  | cons item tail ih =>
    have hitem := h item List.mem_cons_self level
    have htail := ih fun i hi => h i (List.mem_cons_of_mem item hi)
    cases tail with
    | nil => simp [writeItems, hline, hitem]
    | cons next rest => simp [writeItems, hline, hitem, htail]

theorem esc_notMem_writeMembers {layout : Layout} {members : List (JsonText × Json)}
    (h : ∀ member ∈ members, ∀ level, '\x1b' ∉ layout.write level member.2) (level : Nat) :
    '\x1b' ∉ layout.writeMembers level members := by
  have hline := (layout.line_isGap level).esc_notMem
  have hgap := layout.gap_isGap.esc_notMem
  induction members with
  | nil => simp [writeMembers]
  | cons member tail ih =>
    obtain ⟨name, value⟩ := member
    have hname := esc_notMem_quote name
    have hvalue := h (name, value) List.mem_cons_self level
    have htail := ih fun m hm => h m (List.mem_cons_of_mem (name, value) hm)
    cases tail with
    | nil => simp [writeMembers, hline, hgap, hname, hvalue]
    | cons next rest => simp [writeMembers, hline, hgap, hname, hvalue, htail]

end Layout

/-- A document is written without the escape character, whatever the texts in it hold. -/
theorem WellFormed.esc_notMem_write {j : Json} (h : j.WellFormed) (layout : Layout) (level : Nat) :
    '\x1b' ∉ layout.write level j := by
  induction h generalizing level with
  | null => simp [Layout.write, compact]
  | bool b => cases b <;> simp [Layout.write, compact]
  | number hn =>
    rw [Layout.write, compact]
    exact esc_notMem_chars hn
  | string s =>
    rw [Layout.write, compact]
    exact esc_notMem_quote s
  | @array items hitems ih =>
    have hline := (layout.line_isGap level).esc_notMem
    cases items with
    | nil => simp [Layout.write, compact, compactItems]
    | cons item tail =>
      have hwritten := Layout.esc_notMem_writeItems ih (level + 1)
      simp [Layout.write, hline, hwritten]
  | @object members hmembers ih =>
    have hline := (layout.line_isGap level).esc_notMem
    cases members with
    | nil => simp [Layout.write, compact, compactMembers]
    | cons member tail =>
      have hwritten := Layout.esc_notMem_writeMembers ih (level + 1)
      simp [Layout.write, hline, hwritten]

theorem WellFormed.escapeFree_prettyText {j : Json} (h : j.WellFormed) :
    EscapeFree j.prettyText := by
  rw [EscapeFree, prettyText, String.toList_ofList, ← Layout.write_indented]
  exact h.esc_notMem_write .indented 0

end Json
end FormCheck
