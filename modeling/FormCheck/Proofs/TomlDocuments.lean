import FormCheck.Proofs.EmailAddresses
import FormCheck.Toml.Parser
import Mathlib.Data.List.Nodup

/-!
# Documents that were read

A name is defined once. Every way of adding to a table looks the name up before it appends an entry,
and otherwise puts a node in the place of another. So in a document that was read, at every depth,
no table has two entries of one name, and what a name stands for does not depend on the order of the
entries. A text of nothing but blanks defines nothing.
-/
namespace FormCheck.Toml

/-- Whatever is read has a property. -/
def Yields {α : Type} (P : α → Prop) (read : Option α) : Prop := ∀ a, read = some a → P a

namespace Yields

variable {α β : Type} {P : β → Prop}

theorem none : Yields P none := nofun

theorem some {b : β} (h : P b) : Yields P (some b) := fun _ hb => Option.some.inj hb ▸ h

theorem bind {x : Option α} {f : α → Option β} (h : ∀ a, x = .some a → Yields P (f a)) :
    Yields P (x >>= f) := by
  intro b hb
  obtain ⟨a, ha, hfa⟩ := Option.bind_eq_some_iff.mp hb
  exact h a ha b hfa

theorem map {x : Option α} {f : α → β} (h : ∀ a, P (f a)) : Yields P (x.map f) := by
  intro b hb
  obtain ⟨a, -, rfl⟩ := Option.map_eq_some_iff.mp hb
  exact h a

theorem orElse {x y : Option β} (hx : Yields P x) (hy : Yields P y) : Yields P (x <|> y) := by
  cases x with
  | none => exact hy
  | some b => exact hx

end Yields

namespace Node

/-- A node that is no array and no table. -/
def IsScalar : Node → Prop
  | string _ | integer _ | float _ | boolean _ | moment _ => True
  | array _ | table _ _ | tables _ => False

/-- A node whose tables, at every depth, have a name once. -/
inductive HasDistinctNames : Node → Prop where
  | scalar {node : Node} (h : node.IsScalar) : HasDistinctNames node
  | array {items : List Node} (h : ∀ item ∈ items, HasDistinctNames item) :
    HasDistinctNames (array items)
  | table {kind : TableKind} {entries : List (String × Node)}
    (names : (entries.map Prod.fst).Nodup) (nodes : ∀ e ∈ entries, HasDistinctNames e.2) :
    HasDistinctNames (table kind entries)
  | tables {elements : List Node} (h : ∀ element ∈ elements, HasDistinctNames element) :
    HasDistinctNames (tables elements)

end Node

namespace Entries

theorem lookup_eq_none_iff {entries : Entries} {name : String} :
    entries.lookup name = none ↔ name ∉ entries.map Prod.fst := by
  rw [lookup, Option.map_eq_none_iff, List.find?_eq_none]
  simp only [decide_eq_true_eq, List.mem_map, not_exists, not_and]

theorem mem_of_lookup {entries : Entries} {name : String} {node : Node}
    (h : entries.lookup name = some node) : (name, node) ∈ entries := by
  obtain ⟨e, hfind, rfl⟩ := Option.map_eq_some_iff.mp h
  have hname : e.1 = name := by simpa using List.find?_some hfind
  rw [← hname]
  exact List.mem_of_find?_eq_some hfind

/-- Entries that have a name once, with nodes of which the same holds. -/
structure Distinct (entries : Entries) : Prop where
  names : (entries.map Prod.fst).Nodup
  nodes : ∀ e ∈ entries, e.2.HasDistinctNames

variable {entries entries' : Entries} {name : String} {node : Node}

theorem Distinct.nil : Distinct [] := ⟨List.nodup_nil, nofun⟩

theorem Distinct.table (h : entries.Distinct) (kind : TableKind) :
    (Node.table kind entries).HasDistinctNames :=
  .table h.names h.nodes

theorem distinct_of_table {kind : TableKind} (h : (Node.table kind entries).HasDistinctNames) :
    entries.Distinct := by
  cases h with
  | scalar h => cases h
  | table names nodes => exact ⟨names, nodes⟩

theorem hasDistinctNames_of_tables {elements : List Node}
    (h : (Node.tables elements).HasDistinctNames) :
    ∀ element ∈ elements, element.HasDistinctNames := by
  cases h with
  | scalar h => cases h
  | tables h => exact h

/-- One more table of a name. -/
theorem hasDistinctNames_tables_append {elements : List Node} {last : Node}
    (h : ∀ element ∈ elements, element.HasDistinctNames) (hlast : last.HasDistinctNames) :
    (Node.tables (elements ++ [last])).HasDistinctNames :=
  .tables (List.forall_mem_append.mpr ⟨h, List.forall_mem_singleton.mpr hlast⟩)

theorem Distinct.of_lookup (h : entries.Distinct) (hname : entries.lookup name = some node) :
    node.HasDistinctNames :=
  h.nodes _ (mem_of_lookup hname)

theorem Distinct.append (h : entries.Distinct) (hnew : entries.lookup name = none)
    (hnode : node.HasDistinctNames) : (entries.append name node).Distinct where
  names := by
    change ((entries ++ [(name, node)]).map Prod.fst).Nodup
    rw [List.map_append]
    exact List.Nodup.append h.names (List.nodup_singleton name)
      (List.disjoint_singleton.mpr (lookup_eq_none_iff.mp hnew))
  nodes e he := by
    rcases List.mem_append.mp he with he | he
    · exact h.nodes e he
    · rw [List.mem_singleton.mp he]
      exact hnode

theorem Distinct.replace (h : entries.Distinct) (hnode : node.HasDistinctNames) :
    (entries.replace name node).Distinct where
  names := by
    have hfst : (entries.replace name node).map Prod.fst = entries.map Prod.fst := by
      rw [Entries.replace, List.map_map]
      refine List.map_congr_left fun e _ => ?_
      by_cases he : e.1 = name
      · simp [he]
      · simp [he]
    rw [hfst]
    exact h.names
  nodes e he := by
    obtain ⟨old, hold, rfl⟩ := List.mem_map.mp he
    split
    · exact hnode
    · exact h.nodes old hold

/-- A change of entries that keeps their names distinct. -/
def KeepsDistinct (change : Entries → Option Entries) : Prop :=
  ∀ entries : Entries, entries.Distinct → Yields Distinct (change entries)

/-- A change at the end of a path is one inside tables of which nothing else changes. -/
theorem KeepsDistinct.update {made : TableKind} {change : TableKind → Entries → Option Entries}
    (hchange : ∀ kind, KeepsDistinct (change kind)) (path : List String) (kind : TableKind) :
    KeepsDistinct (update made change path kind) := by
  induction path generalizing kind with
  | nil => exact hchange kind
  | cons name path ih =>
    intro entries h
    rw [Entries.update]
    split
    -- A new name, a table, tables of one name, or a node that is not to be entered.
    case h_1 hnew =>
      exact .bind fun inner hinner =>
        .some (h.append hnew ((ih made [] .nil inner hinner).table made))
    case h_2 met inner hmet =>
      split
      · have hinner := distinct_of_table (h.of_lookup hmet)
        exact .bind fun changed hchanged =>
          .some (h.replace ((ih met inner hinner changed hchanged).table met))
      · exact .none
    case h_3 elements hmet =>
      have helements := hasDistinctNames_of_tables (h.of_lookup hmet)
      split
      case h_1 => exact .none
      case h_2 met inner _ hlast =>
        have hinner := distinct_of_table (helements _ (List.mem_of_getLast? hlast))
        have hinit := fun element hmem => helements element (List.dropLast_subset elements hmem)
        exact .bind fun changed hchanged => .some (h.replace
          (hasDistinctNames_tables_append hinit ((ih met inner hinner changed hchanged).table met)))
      case h_3 => exact .none
    case h_4 => exact .none

theorem KeepsDistinct.define (made : TableKind) (path : List String) (name : String) {node : Node}
    (hnode : node.HasDistinctNames) (kind : TableKind) :
    KeepsDistinct (define made path name node kind) := by
  refine .update (fun kind entries h => ?_) path kind
  split_ifs with hguard
  · exact .none
  · rw [Bool.or_eq_true, not_or, Option.not_isSome_iff_eq_none] at hguard
    exact .some (h.append hguard.2 hnode)

theorem KeepsDistinct.openTable (path : List String) (name : String) :
    KeepsDistinct (openTable path name) := by
  refine .update (fun kind entries h => ?_) path .header
  split
  case h_1 hnew => exact .some (h.append hnew (Distinct.nil.table .header))
  case h_2 inner hmet =>
    exact .some (h.replace ((distinct_of_table (h.of_lookup hmet)).table .header))
  case h_3 => exact .none

theorem KeepsDistinct.openElement (path : List String) (name : String) :
    KeepsDistinct (openElement path name) := by
  have hfresh := Distinct.nil.table .header
  refine .update (fun kind entries h => ?_) path .header
  split
  case h_1 hnew =>
    exact .some (h.append hnew (.tables (List.forall_mem_singleton.mpr hfresh)))
  case h_2 elements hmet =>
    have helements := hasDistinctNames_of_tables (h.of_lookup hmet)
    exact .some (h.replace (hasDistinctNames_tables_append helements hfresh))
  case h_3 => exact .none

theorem KeepsDistinct.defineUnder (header path : List String) (name : String) {node : Node}
    (hnode : node.HasDistinctNames) : KeepsDistinct (defineUnder header path name node) :=
  .update (fun kind => .define .dotted path name hnode kind) header .header

end Entries

/-! ## Readers -/

theorem readDateTime_yields_scalar (date : Date) (s : List Char) :
    Yields (fun r => r.1.IsScalar) (readDateTime date s) := by
  unfold readDateTime
  extract_lets time
  clear_value time
  split
  · exact .some trivial
  · exact .map fun _ => trivial

theorem readMoment_yields_scalar (s : List Char) :
    Yields (fun r => r.1.IsScalar) (readMoment s) := by
  unfold readMoment
  split
  · exact readDateTime_yields_scalar _ _
  · exact .map fun _ => trivial

theorem readDecimal_yields_scalar (s : List Char) :
    Yields (fun r => r.1.IsScalar) (readDecimal s) := by
  unfold readDecimal
  refine .bind fun (whole, s) _ => .bind fun (fraction, s) _ => .bind fun (exponent, s) _ => ?_
  dsimp only
  split_ifs
  · exact .none
  · exact .none
  · exact .some trivial

theorem readSpecial_yields_scalar (s : List Char) :
    Yields (fun r => r.1.IsScalar) (readSpecial s) := by
  unfold readSpecial
  split
  · exact .some trivial
  · exact .some trivial
  · exact .none

theorem readInBase_yields_scalar (base : Nat) (s : List Char) :
    Yields (fun r => r.1.IsScalar) (readInBase base s) :=
  .bind fun _ _ => .bind fun _ _ => .some trivial

theorem readInteger_yields_scalar (s : List Char) :
    Yields (fun r => r.1.IsScalar) (readInteger s) := by
  unfold readInteger
  split
  · exact readInBase_yields_scalar 16 _
  · exact readInBase_yields_scalar 8 _
  · exact readInBase_yields_scalar 2 _
  · exact .bind fun _ _ => .bind fun _ _ => .some trivial

theorem readScalar_yields_scalar (s : List Char) :
    Yields (fun r => r.1.IsScalar) (readScalar s) := by
  unfold readScalar
  split
  · exact .some trivial
  · exact .some trivial
  · exact .map fun _ => trivial
  · exact .map fun _ => trivial
  · exact (readMoment_yields_scalar s).orElse <| (readDecimal_yields_scalar s).orElse <|
      (readSpecial_yields_scalar s).orElse (readInteger_yields_scalar s)

/-- Values, items and pairs at a time, since their readers call each other. -/
theorem readers_yield_distinctNames (fuel : Nat) :
    (∀ room s, Yields (fun r => r.1.HasDistinctNames) (readValue room fuel s)) ∧
    (∀ room s, Yields (fun r => ∀ item ∈ r.1, item.HasDistinctNames) (readItems room fuel s)) ∧
    ∀ room (entries : Entries) s, entries.Distinct →
      Yields (fun r => r.1.Distinct) (readPairs room entries fuel s) := by
  induction fuel with
  | zero =>
    refine ⟨fun room s => ?_, fun room s => ?_, fun room entries s _ => ?_⟩
    · rw [readValue]
      exact .none
    · rw [readItems]
      exact .none
    · rw [readPairs]
      exact .none
  | succ fuel ih =>
    -- A value holds items or pairs of less fuel, and so do the items and pairs behind the first.
    obtain ⟨hvalue, hitems, hpairs⟩ := ih
    refine ⟨fun room s => ?_, fun room s => ?_, fun room entries s h => ?_⟩
    · unfold readValue
      split
      · exact .none
      · exact .none
      · refine .bind fun rest _ => ?_
        split
        · exact .some (.array nofun)
        · exact .bind fun r hr => .some (.array (hitems _ _ r hr))
      · split
        · exact .some (Entries.Distinct.nil.table .inline)
        · exact .bind fun r hr => .some ((hpairs _ _ _ .nil r hr).table .inline)
      · exact fun r hr => .scalar (readScalar_yields_scalar _ r hr)
    · unfold readItems
      refine .bind fun (item, rest) hitem => .bind fun lines _ => ?_
      have hitem := hvalue _ _ _ hitem
      split
      · exact .some (List.forall_mem_singleton.mpr hitem)
      · refine .bind fun lines _ => ?_
        split
        · exact .some (List.forall_mem_singleton.mpr hitem)
        · exact .bind fun r hr => .some (List.forall_mem_cons.mpr ⟨hitem, hitems _ _ r hr⟩)
      · exact .none
    · unfold readPairs
      refine .bind fun ((path, name), rest) _ => .bind fun (node, rest) hnode =>
        .bind fun changed hchanged => ?_
      have hdefine := Entries.KeepsDistinct.define .inlineDotted path name (hvalue _ _ _ hnode)
      have hchanged := hdefine .inline entries h changed hchanged
      split
      · exact .some hchanged
      · exact hpairs _ _ _ hchanged
      · exact .none

theorem readExpressions_yields_distinct (fuel : Nat) (header : List String) {root : Entries}
    (h : root.Distinct) (s : List Char) :
    Yields Entries.Distinct (readExpressions root header fuel s) := by
  induction fuel generalizing header root s with
  | zero => exact .none
  | succ fuel ih =>
    unfold readExpressions
    split
    · exact .some h
    · exact ih header h _
    · exact .bind fun rest _ => ih header h rest
    · refine .bind fun ((path, name), rest) _ => .bind fun root hroot => ih _ ?_ rest
      exact Entries.KeepsDistinct.openElement path name _ h root hroot
    · refine .bind fun ((path, name), rest) _ => .bind fun root hroot => ih _ ?_ rest
      exact Entries.KeepsDistinct.openTable path name _ h root hroot
    · refine .bind fun ((path, name), rest) _ => .bind fun (node, rest) hnode =>
        .bind fun root hroot => .bind fun rest _ => ih header ?_ rest
      have hnode := (readers_yield_distinctNames _).1 maxDepth _ _ hnode
      exact Entries.KeepsDistinct.defineUnder header path name hnode _ h root hroot

/-- A document that was read is a table, and none of its tables has two entries of one name. -/
theorem parse?_yields_distinct (content : String) :
    Yields (fun doc => ∃ entries : Entries, doc = .table .header entries ∧ entries.Distinct)
      (parse? content) := by
  intro doc hdoc
  obtain ⟨entries, hentries, rfl⟩ := Option.map_eq_some_iff.mp hdoc
  exact ⟨entries, rfl, readExpressions_yields_distinct _ [] .nil _ entries hentries⟩

/-! ## Blank texts -/

theorem isBlank_eq_false_of_isBare {c : Char} (h : isBare c = true) : Text.isBlank c = false := by
  rw [isBare, Bool.or_eq_true, Bool.or_eq_true, beq_iff_eq, beq_iff_eq] at h
  rcases h with (h | rfl) | rfl
  · exact (Email.isAlphanum_eq_true_iff.mp h).isBlank_eq_false
  · decide
  · decide

/-- No key begins with a blank. -/
theorem readPart_of_isBlank {s : List Char} (h : ∀ c ∈ s, Text.isBlank c = true) :
    readPart s = none := by
  cases s with
  | nil => rfl
  | cons c rest =>
    have hc := h c List.mem_cons_self
    have hbare : isBare c ≠ true := fun hbare => by
      rw [isBlank_eq_false_of_isBare hbare] at hc
      cases hc
    unfold readPart
    split
    case h_1 heq =>
      cases heq
      exact absurd hc (by decide)
    case h_2 heq =>
      cases heq
      exact absurd hc (by decide)
    case h_3 => simp [hbare]

theorem readKeySign_of_isBlank {s : List Char} (h : ∀ c ∈ s, Text.isBlank c = true) :
    readKeySign s = none := by
  have hskip : ∀ c ∈ skipSpace s, Text.isBlank c = true :=
    fun c hc => h c (List.dropWhile_subset _ hc)
  rw [readKeySign, readKey, readParts, readPart_of_isBlank hskip]
  rfl

/-- Lines of blanks define nothing, if they can be read at all. -/
theorem readExpressions_of_isBlank (root : Entries) (header : List String) (fuel : Nat)
    {s : List Char} (h : ∀ c ∈ s, Text.isBlank c = true) :
    Yields (· = root) (readExpressions root header fuel s) := by
  induction fuel generalizing s with
  | zero => exact .none
  | succ fuel ih =>
    have hskip : ∀ c ∈ skipSpace s, Text.isBlank c = true :=
      fun c hc => h c (List.dropWhile_subset _ hc)
    unfold readExpressions
    split
    case h_1 => exact .some rfl
    case h_2 rest hrest => exact ih fun c hc => hskip c (by simp [hrest, hc])
    case h_3 rest hrest => exact absurd (hskip '#' (by simp [hrest])) (by decide)
    case h_4 rest hrest => exact absurd (hskip '[' (by simp [hrest])) (by decide)
    case h_5 rest _ hrest => exact absurd (hskip '[' (by simp [hrest])) (by decide)
    case h_6 =>
      rw [readKeySign_of_isBlank hskip]
      exact .none

theorem normalizeLines_subset (s : List Char) : normalizeLines s ⊆ s := by
  fun_induction normalizeLines s with
  | case1 rest ih => exact List.subset_cons_of_subset _ (List.cons_subset_cons _ ih)
  | case2 c rest _ ih => exact List.cons_subset_cons c ih
  | case3 => exact List.Subset.refl _

theorem dropMark_subset (s : List Char) : dropMark s ⊆ s := by
  unfold dropMark
  split
  · exact List.subset_cons_self _ _
  · exact List.Subset.refl _

/-- A blank text that is a document at all is one without entries. -/
theorem parse?_of_isBlank {content : String} (h : ∀ c ∈ content.toList, Text.isBlank c = true) :
    Yields (· = .table .header []) (parse? content) := by
  intro doc hdoc
  obtain ⟨entries, hentries, rfl⟩ := Option.map_eq_some_iff.mp hdoc
  have hblank : ∀ c ∈ normalizeLines (dropMark content.toList), Text.isBlank c = true :=
    fun c hc => h c (dropMark_subset _ (normalizeLines_subset _ hc))
  rw [readExpressions_of_isBlank [] [] _ hblank entries hentries]

end FormCheck.Toml
