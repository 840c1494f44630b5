import FormCheck.Proofs.FieldMaps
import FormCheck.Proofs.JsonLayouts
import FormCheck.Proofs.ObjectMembers
import FormCheck.Record
import Mathlib.Logic.Relation

/-!
# Flat objects and records

A record is read from an object all of whose members are scalars, and from nothing else. A member
that another one of its name follows has no part in the record, but it has to be a scalar as well.
What is left under a name is the value of the last member of that name, so the order of members
does not matter as long as their names are distinct.
-/
namespace FormCheck

namespace Json

/-- A document that is no array and no object. -/
def IsScalar : Json → Prop
  | array _ | object _ => False
  | _ => True

/-- An object all of whose members are scalars. -/
def IsFlat (j : Json) : Prop := ∃ members, j = object members ∧ ∀ m ∈ members, m.2.IsScalar

/-- An item of an array or the value of a member. -/
inductive IsPart : Json → Json → Prop
  | item {items : List Json} {item : Json} (h : item ∈ items) : IsPart item (array items)
  | member {members : List (JsonText × Json)} {m : JsonText × Json} (h : m ∈ members) :
      IsPart m.2 (object members)

/-- An array or an object stands somewhere inside a flat object only if it is the object. -/
theorem IsFlat.isScalar_of_part {j part : Json} (h : j.IsFlat)
    (hpart : Relation.TransGen IsPart part j) : part.IsScalar := by
  have hmember {value : Json} (hvalue : IsPart value j) : value.IsScalar := by
    obtain ⟨members, rfl, hscalar⟩ := h
    cases hvalue with
    | member hm => exact hscalar _ hm
  cases hpart with
  | single hpart => exact hmember hpart
  | tail hinner hpart =>
    -- A member is a scalar, and a scalar has no parts.
    obtain ⟨_, -, hlast⟩ := Relation.TransGen.tail'_iff.mp hinner
    have hscalar := hmember hpart
    cases hlast <;> exact hscalar.elim

/-- A document whose texts and names stand for characters and whose numerals are in range, at every
depth. -/
inductive IsSound : Json → Prop
  | null : IsSound null
  | bool (b : Bool) : IsSound (bool b)
  | number {n : Numeral} {x : Binary64} (h : n.value? = some x) : IsSound (number n)
  | text (s : String) : IsSound (text s)
  | array {items : List Json} (h : ∀ item ∈ items, IsSound item) : IsSound (array items)
  | object {members : List (JsonText × Json)} (hnamed : AllNamed members)
      (h : ∀ m ∈ members, IsSound m.2) : IsSound (object members)

/-- The value of the last member of a name. -/
def LastValue (members : List (JsonText × Json)) (name : String) (value : Json) : Prop :=
  ∃ before after, members = before ++ (some name, value) :: after ∧
    ∀ m ∈ after, m.1 ≠ some name

variable {members members' : List (JsonText × Json)} {name : String} {value : Json}

/-- The last member of a name is found from the back. -/
theorem lastValue_iff :
    LastValue members name value ↔
      (members.reverse.find? fun m => m.1 = some name) = some (some name, value) := by
  rw [find?_reverse_eq_some_iff]
  simp [LastValue]

theorem LastValue.mem (h : LastValue members name value) : (some name, value) ∈ members := by
  obtain ⟨before, after, rfl, -⟩ := h
  simp

/-- A name that occurs has a last member. -/
theorem exists_lastValue_iff : (∃ value, LastValue members name value) ↔
    some name ∈ members.map Prod.fst := by
  constructor
  · rintro ⟨value, h⟩
    exact List.mem_map_of_mem h.mem
  · intro h
    obtain ⟨m, hm, hname⟩ := List.mem_map.mp h
    have hsome : (members.reverse.find? fun m => m.1 = some name).isSome := by
      rw [List.find?_isSome]
      exact ⟨m, List.mem_reverse.mpr hm, by simpa using hname⟩
    obtain ⟨⟨found, value⟩, hfound⟩ := Option.isSome_iff_exists.mp hsome
    obtain rfl : found = some name := by simpa using List.find?_some hfound
    exact ⟨value, lastValue_iff.mpr hfound⟩

/-- With distinct names every member is the last of its name. -/
theorem lastValue_iff_mem (h : (members.map Prod.fst).Nodup) :
    LastValue members name value ↔ (some name, value) ∈ members := by
  refine ⟨LastValue.mem, fun hmem => ?_⟩
  obtain ⟨before, after, rfl⟩ := List.append_of_mem hmem
  refine ⟨before, after, rfl, fun m hm hname => ?_⟩
  rw [List.map_append, List.map_cons, List.nodup_append, List.nodup_cons] at h
  exact h.2.1.1 (List.mem_map.mpr ⟨m, hm, hname⟩)

end Json

namespace Value

/-- The value that a scalar document stands for. -/
inductive Written : Json → Value → Prop
  | null : Written .null .null
  | bool (b : Bool) : Written (.bool b) (.bool b)
  | number {n : Numeral} {x : Binary64} (h : n.value? = some x) : Written (.number n) (.number x)
  | string (s : String) : Written (.text s) (.string s)

theorem ofJson?_eq_some_iff {j : Json} {v : Value} : ofJson? j = some v ↔ Written j v := by
  constructor
  · intro h
    cases j with
    | null =>
      obtain rfl := Option.some.inj h
      exact .null
    | bool b =>
      obtain rfl := Option.some.inj h
      exact .bool b
    | number n =>
      rw [ofJson?, Option.map_eq_some_iff] at h
      obtain ⟨x, hx, rfl⟩ := h
      exact .number hx
    | string s =>
      rw [ofJson?, Option.map_eq_some_iff] at h
      obtain ⟨s, rfl, rfl⟩ := h
      exact .string s
    | array items => cases h
    | object members => cases h
  · intro h
    cases h with
    | null => rfl
    | bool b => rfl
    | number h => rw [ofJson?, h, Option.map_some]
    | string s => rfl

/-- The documents of values are the sound scalars. -/
theorem exists_written_iff {j : Json} : (∃ v, Written j v) ↔ j.IsSound ∧ j.IsScalar := by
  constructor
  · rintro ⟨v, h⟩
    cases h with
    | null => exact ⟨.null, trivial⟩
    | bool b => exact ⟨.bool b, trivial⟩
    | number h => exact ⟨.number h, trivial⟩
    | string s => exact ⟨.text s, trivial⟩
  · rintro ⟨hsound, hscalar⟩
    cases hsound with
    | null => exact ⟨_, .null⟩
    | bool b => exact ⟨_, .bool b⟩
    | number h => exact ⟨_, .number h⟩
    | text s => exact ⟨_, .string s⟩
    | array => exact hscalar.elim
    | object => exact hscalar.elim

end Value

namespace Record

variable {members members' : List (JsonText × Json)} {entries : List (String × Value)}

/-- A member and the entry that it stands for. -/
def IsEntry (m : JsonText × Json) (e : String × Value) : Prop :=
  m.1 = some e.1 ∧ Value.Written m.2 e.2

theorem exists_isEntry_iff {m : JsonText × Json} :
    (∃ e, IsEntry m e) ↔ m.1 ≠ none ∧ m.2.IsSound ∧ m.2.IsScalar := by
  rw [← Value.exists_written_iff, Option.ne_none_iff_exists']
  constructor
  · rintro ⟨e, hname, hvalue⟩
    exact ⟨⟨e.1, hname⟩, e.2, hvalue⟩
  · rintro ⟨⟨name, hname⟩, v, hvalue⟩
    exact ⟨(name, v), hname, hvalue⟩

theorem mapM_entryOfMember?_eq_some_iff :
    members.mapM entryOfMember? = some entries ↔ List.Forall₂ IsEntry members entries := by
  rw [mapM_eq_some_iff_forall₂]
  refine Iff.of_eq (congrArg (List.Forall₂ · members entries) ?_)
  funext m e
  simp [entryOfMember?, IsEntry, Option.bind_eq_some_iff, Value.ofJson?_eq_some_iff, Prod.ext_iff]

/-- The members of a sound and flat object have entries, and of no other. -/
theorem exists_entries_iff : (∃ entries, List.Forall₂ IsEntry members entries) ↔
    (Json.object members).IsSound ∧ (Json.object members).IsFlat := by
  rw [exists_forall₂_iff]
  simp only [exists_isEntry_iff]
  constructor
  · intro h
    exact ⟨.object (fun m hm => (h m hm).1) fun m hm => (h m hm).2.1,
      members, rfl, fun m hm => (h m hm).2.2⟩
  · rintro ⟨⟨⟩, _, ⟨⟩, hscalar⟩
    rename_i hnamed hsound
    exact fun m hm => ⟨hnamed m hm, hsound m hm, hscalar m hm⟩

/-- What is found among the entries is written in what is found among the members. -/
theorem find?_entries_iff (h : List.Forall₂ IsEntry members entries) {name : String} {v : Value} :
    (entries.find? fun e => e.1 = name).map Prod.snd = some v ↔
      ∃ value, (members.find? fun m => m.1 = some name) = some (some name, value) ∧
        Value.Written value v := by
  simp only [← Value.ofJson?_eq_some_iff]
  induction h with
  | nil => simp
  | @cons m e members entries hm _ ih =>
    obtain ⟨_, j⟩ := m
    obtain ⟨other, w⟩ := e
    obtain ⟨rfl, hvalue⟩ := hm
    by_cases h : other = name
    · subst h
      simp [Value.ofJson?_eq_some_iff.mpr hvalue]
    · rw [List.find?_cons_of_neg (by simpa using h), List.find?_cons_of_neg (by simpa using h), ih]

/-- A record holds under a name what is written in the last member of the name. -/
theorem get?_ofList_iff (h : List.Forall₂ IsEntry members entries) {name : String} {v : Value} :
    (FieldMap.ofList entries).get? name = some v ↔
      ∃ value, Json.LastValue members name value ∧ Value.Written value v := by
  rw [FieldMap.get?_ofList, find?_entries_iff (List.forall₂_reverse_iff.mpr h)]
  simp only [Json.lastValue_iff]

theorem ofJson?_eq_some_iff {j : Json} {record : Record} :
    ofJson? j = some record ↔ ∃ members entries, j = .object members ∧
      List.Forall₂ IsEntry members entries ∧ FieldMap.ofList entries = record := by
  cases j with
  | object members =>
    simp only [ofJson?, Option.map_eq_some_iff, mapM_entryOfMember?_eq_some_iff]
    simp
  | _ => simp [ofJson?]

theorem parse_of_ofJson?_eq_none {content : String} {j : Json}
    (hread : Json.parse? content = some j) (h : ofJson? j = none) :
    parse content = .error (.during .parsingRecord .json) := by
  rw [parse, hread, Option.bind_some, h]

theorem parse_eq_ok_iff {content : String} {j : Json} (hread : Json.parse? content = some j)
    {record : Record} : parse content = .ok record ↔ ofJson? j = some record := by
  rw [parse, hread, Option.bind_some]
  cases ofJson? j with
  | none => simp
  | some found => simp

/-- A record is read from flat and sound objects only. -/
theorem exists_ofJson?_iff {j : Json} :
    (∃ record, ofJson? j = some record) ↔ j.IsSound ∧ j.IsFlat := by
  constructor
  · rintro ⟨record, h⟩
    obtain ⟨members, entries, rfl, hentries, -⟩ := ofJson?_eq_some_iff.mp h
    exact exists_entries_iff.mp ⟨entries, hentries⟩
  · rintro ⟨hsound, members, rfl, hscalar⟩
    obtain ⟨entries, hentries⟩ := exists_entries_iff.mpr ⟨hsound, members, rfl, hscalar⟩
    exact ⟨_, ofJson?_eq_some_iff.mpr ⟨members, entries, rfl, hentries, rfl⟩⟩

/-- The members of an object with distinct names may stand in any order. -/
theorem ofJson?_of_perm (h : members.Perm members') (hnames : (members.map Prod.fst).Nodup)
    {record : Record} (hrecord : ofJson? (.object members) = some record) :
    ofJson? (.object members') = some record := by
  have hnames' : (members'.map Prod.fst).Nodup := (h.map Prod.fst).nodup_iff.mp hnames
  obtain ⟨_, entries, ⟨⟩, hentries, rfl⟩ := ofJson?_eq_some_iff.mp hrecord
  have hentry := exists_forall₂_iff.mp ⟨entries, hentries⟩
  obtain ⟨entries', hentries'⟩ :=
    exists_forall₂_iff.mpr fun m hm => hentry m (h.mem_iff.mpr hm)
  refine ofJson?_eq_some_iff.mpr ⟨members', entries', rfl, hentries', ?_⟩
  refine FieldMap.ext_get? fun name => Option.ext fun v => ?_
  rw [get?_ofList_iff hentries', get?_ofList_iff hentries]
  simp only [Json.lastValue_iff_mem hnames, Json.lastValue_iff_mem hnames', h.mem_iff]

/-- A text that is a document is read as a record exactly if the document is sound and flat: an
array or an object anywhere inside refuses the whole text, and so does a member that another one of
its name follows if it is no scalar. The names of the record are those of the members, and each has
the value of its last member. Members with distinct names may stand in any order. -/
theorem parse_accepts_flat_objects {content : String} {j : Json}
    (hread : Json.parse? content = some j) :
    ((∃ record, parse content = .ok record) ↔ j.IsSound ∧ j.IsFlat) ∧
    (¬ (j.IsSound ∧ j.IsFlat) → parse content = .error (.during .parsingRecord .json)) ∧
    (∀ part, Relation.TransGen Json.IsPart part j → ¬ part.IsScalar →
      parse content = .error (.during .parsingRecord .json)) ∧
    (∀ members record, j = .object members → parse content = .ok record →
      (∀ name, (∃ v, record.get? name = some v) ↔ some name ∈ members.map Prod.fst) ∧
      ∀ name v, record.get? name = some v ↔
        ∃ value, Json.LastValue members name value ∧ Value.Written value v) ∧
    ∀ members members' content', j = .object members → members.Perm members' →
      (members.map Prod.fst).Nodup → Json.parse? content' = some (.object members') →
      parse content' = parse content := by
  have hrefused (h : ¬ (j.IsSound ∧ j.IsFlat)) :
      parse content = .error (.during .parsingRecord .json) := by
    refine parse_of_ofJson?_eq_none hread (Option.eq_none_iff_forall_ne_some.mpr fun record => ?_)
    exact fun hrecord => h (exists_ofJson?_iff.mp ⟨record, hrecord⟩)
  refine ⟨?_, hrefused, ?_, ?_, ?_⟩
  · simp only [parse_eq_ok_iff hread, exists_ofJson?_iff]
  · exact fun part hpart hscalar => hrefused fun h => hscalar (h.2.isScalar_of_part hpart)
  · rintro members record rfl hrecord
    obtain ⟨_, entries, ⟨⟩, hentries, rfl⟩ :=
      ofJson?_eq_some_iff.mp ((parse_eq_ok_iff hread).mp hrecord)
    refine ⟨fun name => ?_, fun name v => get?_ofList_iff hentries⟩
    rw [← Json.exists_lastValue_iff]
    constructor
    · rintro ⟨v, hv⟩
      obtain ⟨value, hlast, -⟩ := (get?_ofList_iff hentries).mp hv
      exact ⟨value, hlast⟩
    · rintro ⟨value, hlast⟩
      obtain ⟨e, -, hvalue⟩ := exists_forall₂_iff.mp ⟨entries, hentries⟩ _ hlast.mem
      exact ⟨e.2, (get?_ofList_iff hentries).mpr ⟨value, hlast, hvalue⟩⟩
  · rintro members members' content' rfl hperm hnames hread'
    have hnames' : (members'.map Prod.fst).Nodup := (hperm.map Prod.fst).nodup_iff.mp hnames
    have hsame : ofJson? (.object members') = ofJson? (.object members) :=
      Option.ext fun _ => ⟨ofJson?_of_perm hperm.symm hnames', ofJson?_of_perm hperm hnames⟩
    rw [parse, parse, hread, hread', Option.bind_some, Option.bind_some, hsame]

/-- Members of which two have one name. -/
def shadowed (first : Json) : List (JsonText × Json) :=
  [(some "a", first), (some "b", .bool true), (some "a", .text "x")]

/-- The last member of a name counts, an array before it refuses the text, and without it the
others may change places. -/
theorem parse_accepts_flat_objects_shadowed :
    let flat : Json := .object (shadowed .null)
    let nested : Json := .object (shadowed (.array []))
    let apart : Json := .object (shadowed .null).tail
    let moved : Json := .object (shadowed .null).tail.reverse
    (Json.parse? flat.compactText = some flat ∧ flat.IsSound ∧ flat.IsFlat ∧
      parse flat.compactText = .ok (.ofList [("a", .string "x"), ("b", .bool true)]) ∧
      some "a" ∈ (shadowed .null).map Prod.fst ∧
      ∃ value, Json.LastValue (shadowed .null) "a" value ∧ Value.Written value (.string "x")) ∧
    (Json.parse? nested.compactText = some nested ∧ ¬ (nested.IsSound ∧ nested.IsFlat) ∧
      Json.IsPart (.array []) nested ∧ ¬ (Json.array []).IsScalar ∧
      parse nested.compactText = .error (.during .parsingRecord .json)) ∧
    Json.parse? apart.compactText = some apart ∧ Json.parse? moved.compactText = some moved ∧
    parse moved.compactText = parse apart.compactText := by
  intro flat nested apart moved
  have hread {members : List (JsonText × Json)} (h : ∀ m ∈ members, m.2.WellFormed) :
      Json.parse? (Json.object members).compactText = some (.object members) :=
    Json.parse?_compactText (.object h)
  have hmembers {first : Json} (h : first.WellFormed) : ∀ m ∈ shadowed first, m.2.WellFormed := by
    simp [shadowed, h, Json.wellFormed_text, Json.WellFormed.bool]
  have htail := fun m hm => hmembers .null m (List.mem_of_mem_tail hm)
  have hflat := hread (hmembers .null)
  have hnested := hread (hmembers (.array fun _ h => absurd h List.not_mem_nil))
  have hapart := hread htail
  have hmoved := hread fun m hm => htail m (List.mem_reverse.mp hm)
  have hrecord : parse flat.compactText =
      .ok (.ofList [("a", .string "x"), ("b", .bool true)]) := by
    decide +kernel
  have hpart : Json.IsPart (.array []) nested := .member (List.mem_cons_self (a := (some "a", _)))
  have harray : ¬ (Json.array []).IsScalar := id
  obtain ⟨haccepted, -, -, hvalues, -⟩ := parse_accepts_flat_objects hflat
  obtain ⟨hshape, -, hinside, -, -⟩ := parse_accepts_flat_objects hnested
  obtain ⟨-, -, -, -, horder⟩ := parse_accepts_flat_objects hapart
  obtain ⟨hsound, hscalars⟩ := haccepted.mp ⟨_, hrecord⟩
  obtain ⟨hnames, hlast⟩ := hvalues _ _ rfl hrecord
  have hrefused := hinside _ (.single hpart) harray
  refine ⟨⟨hflat, hsound, hscalars, hrecord, (hnames "a").mp ⟨.string "x", by decide +kernel⟩,
    (hlast "a" _).mp (by decide +kernel)⟩, ⟨hnested, fun h => ?_, hpart, harray, hrefused⟩, hapart,
    hmoved, ?_⟩
  · obtain ⟨record, haccept⟩ := hshape.mpr h
    rw [hrefused] at haccept
    cases haccept
  · exact horder _ _ _ rfl (List.reverse_perm _).symm (by decide) hmoved

end Record
end FormCheck
