import FormCheck.Proofs.Settings
import FormCheck.Proofs.TomlDocuments

/-!
# Settings over defaults

Each setting has one place in a settings file, a key in a section, and one default. The file is used
just if every setting whose place holds something can be made out from it. Then a setting is what
its place holds, or its default, whatever else the file says. A file that is missing or blank is
never parsed. It gives the settings that a document without any setting gives.
-/
namespace FormCheck

variable {β : Type}

/-- Among distinct names the entry of a name is the only one. -/
theorem Toml.Entries.filter_of_nodup {entries : Toml.Entries}
    (h : (entries.map Prod.fst).Nodup) (name : String) :
    entries.filter (fun e => [name].contains e.1) =
      ((entries.lookup name).map fun node => (name, node)).toList := by
  induction entries with
  | nil => rfl
  | cons e entries ih =>
    obtain ⟨hnew, hrest⟩ := List.nodup_cons.mp h
    by_cases he : e.1 = name
    · have hnone : Entries.lookup entries name = none :=
        Entries.lookup_eq_none_iff.mpr (he ▸ hnew)
      have hlookup : Entries.lookup (e :: entries) name = some e.2 := by simp [Entries.lookup, he]
      rw [List.filter_cons_of_pos (by simp [he]), ih hrest, hnone, hlookup, ← he]
      rfl
    · have hlookup : Entries.lookup (e :: entries) name = Entries.lookup entries name := by
        simp [Entries.lookup, he]
      rw [List.filter_cons_of_neg (by simp [he]), ih hrest, hlookup]

namespace Fields

/-- With distinct names a field is what stands at its name. -/
theorem get?_of_nodup {entries : Toml.Entries} (h : (entries.map Prod.fst).Nodup) (name : String)
    (position : Nat) :
    (named entries).get? [name] position = some (Toml.Entries.lookup entries name) := by
  rw [get?, Toml.Entries.filter_of_nodup h]
  cases Toml.Entries.lookup entries name with
  | none => rfl
  | some node => rfl

end Fields

/-! ## Places in a document -/

namespace Toml.Node

def isTable : Node → Bool
  | table _ _ => true
  | _ => false

/-- What stands at a name of a table. -/
def child? (name : String) : Node → Option Node
  | table _ entries => Entries.lookup entries name
  | _ => none

/-- What stands at a key of a section. -/
def setting? (doc : Node) (sectionName key : String) : Option Node :=
  (doc.child? sectionName).bind (child? key)

/-- The value that a node is decoded to, if there is a node. -/
def decodeAny (decode : Node → Option β) : Option Node → Option (Option β)
  | none => some none
  | some node => (decode node).map some

@[simp] theorem decodeAny_none (decode : Node → Option β) : decodeAny decode none = some none := rfl

@[simp] theorem decodeAny_some (decode : Node → Option β) (node : Node) :
    decodeAny decode (some node) = (decode node).map some := rfl

end Toml.Node

open Toml (Node Entries)

theorem Fields.optional_of_nodup {entries : Entries} (h : (entries.map Prod.fst).Nodup)
    (decode : Node → Option β) (name : String) (position : Nat) :
    (named entries).optional decode [name] position =
      Node.decodeAny decode (entries.lookup name) := by
  rw [optional, withDefault, get?_of_nodup h]
  cases entries.lookup name with
  | none => rfl
  | some node => rfl

namespace Config

/-- The sections are tables, and the settings that are picked from a list are not. -/
def IsPlain (doc : Node) : Prop :=
  (∀ name ∈ sectionNames, (doc.child? name).all Node.isTable) ∧
  (doc.setting? "validation" "email_pattern").all (!·.isTable) ∧
  (doc.setting? "output" "format").all (!·.isTable)

instance (doc : Node) : Decidable (IsPlain doc) := inferInstanceAs (Decidable (_ ∧ _ ∧ _))

/-- What may stand at the name of a section: nothing, or a table with distinct names. -/
inductive IsSection : Option Node → Prop where
  | absent : IsSection none
  | table (kind : Toml.TableKind) {entries : Entries} (h : (entries.map Prod.fst).Nodup) :
    IsSection (some (.table kind entries))

theorem isSection_child? {kind : Toml.TableKind} {entries : Entries} (h : entries.Distinct)
    (hplain : IsPlain (.table kind entries)) {name : String} (hname : name ∈ sectionNames) :
    IsSection ((Node.table kind entries).child? name) := by
  have htable := hplain.1 name hname
  cases hnode : (Node.table kind entries).child? name with
  | none => exact .absent
  | some node =>
    rw [hnode, Option.all_some] at htable
    cases node with
    | table kind inner => exact .table kind (Entries.distinct_of_table (h.of_lookup hnode)).names
    | _ => cases htable

variable {node : Option Node}

/-- A section with one setting states what stands at its key. -/
theorem decodeAny_section_iff (hnode : IsSection node) (decode : Node → Option β) (key : String)
    {value : Option β} :
    (∃ found, Node.decodeAny
      (fun node => do (← Toml.format.fields? 1 node).optional decode [key] 0) node = some found ∧
        found.join = value) ↔
      Node.decodeAny decode (node.bind (Node.child? key)) = some value := by
  cases hnode with
  | absent => simp [eq_comm]
  | table kind h => simp [fields?_table, Fields.optional_of_nodup h, Node.child?]

/-- The section on output states what stands at its two keys. -/
theorem decodeAny_outputSection_iff (hnode : IsSection node) {format : Option OutputFormat}
    {color : Option Bool} :
    (∃ found, Node.decodeAny (Stated.outputSection Toml.format) node = some found ∧
      found.bind Prod.fst = format ∧ found.bind Prod.snd = color) ↔
      Node.decodeAny (decodeName Toml.format OutputFormat.ofName?)
        (node.bind (Node.child? "format")) = some format ∧
      Node.decodeAny Toml.format.bool? (node.bind (Node.child? "color")) = some color := by
  cases hnode with
  | absent => simp [eq_comm]
  | table kind h =>
    simp only [Stated.outputSection, fields?_table, Fields.optional_of_nodup h, Node.child?,
      Node.decodeAny_some, Option.bind_some, Option.bind_eq_bind]
    cases Node.decodeAny (decodeName _ OutputFormat.ofName?) (Entries.lookup _ "format") with
    | none => simp
    | some format =>
      cases Node.decodeAny Toml.format.bool? (Entries.lookup _ "color") with
      | none => simp
      | some color => simp

/-- A document states what stands at the four places. -/
theorem stated_decode_iff {kind : Toml.TableKind} {entries : Entries} (h : entries.Distinct)
    (hplain : IsPlain (.table kind entries)) {stated : Stated} :
    let doc := Node.table kind entries
    Stated.decode Toml.format doc = some stated ↔
      Node.decodeAny Toml.format.text? (doc.setting? "schema" "path") = some stated.schemaPath ∧
      Node.decodeAny (decodeName Toml.format EmailPattern.ofName?)
        (doc.setting? "validation" "email_pattern") = some stated.emailPattern ∧
      Node.decodeAny (decodeName Toml.format OutputFormat.ofName?)
        (doc.setting? "output" "format") = some stated.format ∧
      Node.decodeAny Toml.format.bool? (doc.setting? "output" "color") = some stated.color := by
  intro doc
  obtain ⟨path, pattern, format, color⟩ := stated
  have hschema : IsSection (doc.child? "schema") := isSection_child? h hplain (by decide)
  have hvalidation : IsSection (doc.child? "validation") := isSection_child? h hplain (by decide)
  have houtput : IsSection (doc.child? "output") := isSection_child? h hplain (by decide)
  rw [Node.setting?, Node.setting?, Node.setting?, Node.setting?,
    ← decodeAny_section_iff hschema, ← decodeAny_section_iff hvalidation,
    ← decodeAny_outputSection_iff houtput, Stated.decode, fields?_table]
  simp only [Option.bind_eq_bind, Option.bind_some, Fields.optional_of_nodup h.names,
    Option.bind_eq_some_iff]
  constructor
  · rintro ⟨path, hpath, pattern, hpattern, output, houtput, hstated⟩
    cases hstated
    exact ⟨⟨path, hpath, rfl⟩, ⟨pattern, hpattern, rfl⟩, output, houtput, rfl, rfl⟩
  · rintro ⟨⟨path, hpath, rfl⟩, ⟨pattern, hpattern, rfl⟩, output, houtput, rfl, rfl⟩
    exact ⟨path, hpath, pattern, hpattern, output, houtput, rfl⟩

/-! ## Settings and their defaults -/

/-- The value of a setting: what is written at its place, or the default if nothing stands there. -/
def Overrides (default : β) (write : β → Node) : Option Node → β → Prop
  | none, value => value = default
  | some node, value => node = write value

/-- Something stands at the place of a setting that is none of its values. -/
def IsMistaken (write : β → Node) (node : Option Node) : Prop :=
  ∃ found, node = some found ∧ ∀ value, found ≠ write value

theorem exists_overrides_iff (default : β) (write : β → Node) (node : Option Node) :
    (∃ value, Overrides default write node value) ↔ ¬IsMistaken write node := by
  cases node with
  | none => simp [Overrides, IsMistaken]
  | some node => simp [Overrides, IsMistaken]

theorem overrides_iff {default : β} {write : β → Node} {decode : Node → Option β}
    {node : Option Node}
    (h : ∀ found ∈ node, ∀ value, decode found = some value ↔ found = write value) {value : β} :
    (∃ found, Node.decodeAny decode node = some found ∧ found.getD default = value) ↔
      Overrides default write node value := by
  cases node with
  | none => simp [Overrides, eq_comm]
  | some node => simp [Overrides, h node rfl]

/-- Each setting is what stands at its place in a document, or its default. -/
structure IsGivenBy (config : Config) (doc : Node) : Prop where
  schemaPath : Overrides ({} : Config).schemaPath .string (doc.setting? "schema" "path")
    config.schemaPath
  emailPattern : Overrides ({} : Config).emailPattern (fun pattern => .string pattern.name)
    (doc.setting? "validation" "email_pattern") config.emailPattern
  format : Overrides ({} : Config).format (fun format => .string format.name)
    (doc.setting? "output" "format") config.format
  color : Overrides ({} : Config).color .boolean (doc.setting? "output" "color") config.color

/-- Something stands at the place of one of the settings that is none of its values. -/
def HasMistake (doc : Node) : Prop :=
  IsMistaken .string (doc.setting? "schema" "path") ∨
  IsMistaken (fun pattern : EmailPattern => .string pattern.name)
    (doc.setting? "validation" "email_pattern") ∨
  IsMistaken (fun format : OutputFormat => .string format.name)
    (doc.setting? "output" "format") ∨
  IsMistaken .boolean (doc.setting? "output" "color")

theorem exists_isGivenBy_iff (doc : Node) :
    (∃ config, IsGivenBy config doc) ↔ ¬HasMistake doc := by
  rw [HasMistake, not_or, not_or, not_or, ← exists_overrides_iff ({} : Config).schemaPath,
    ← exists_overrides_iff ({} : Config).emailPattern, ← exists_overrides_iff ({} : Config).format,
    ← exists_overrides_iff ({} : Config).color]
  constructor
  · rintro ⟨config, hpath, hpattern, hformat, hcolor⟩
    exact ⟨⟨_, hpath⟩, ⟨_, hpattern⟩, ⟨_, hformat⟩, _, hcolor⟩
  · rintro ⟨⟨path, hpath⟩, ⟨pattern, hpattern⟩, ⟨format, hformat⟩, color, hcolor⟩
    exact ⟨⟨path, pattern, format, color⟩, hpath, hpattern, hformat, hcolor⟩

theorem text?_eq_some_iff {node : Option Node} :
    ∀ found ∈ node, ∀ s, Toml.format.text? found = some s ↔ found = .string s := by
  intro found _ s
  cases found <;> simp [Format.text?, Toml.format, Node.view]

theorem bool?_eq_some_iff {node : Option Node} :
    ∀ found ∈ node, ∀ b, Toml.format.bool? found = some b ↔ found = .boolean b := by
  intro found _ b
  cases found <;> simp [Format.bool?, Toml.format, Node.view]

/-- A name on a list is written as a text. -/
theorem decodeName_eq_some_iff {ofName? : String → Except NameError β} {name : β → String}
    (h : ∀ s value, ofName? s = .ok value ↔ s = name value) {node : Option Node}
    (hnode : node.all (!·.isTable)) :
    ∀ found ∈ node, ∀ value,
      decodeName Toml.format ofName? found = some value ↔ found = .string (name value) := by
  intro found hfound value
  have htable := (Option.all_eq_true _ _).mp hnode found hfound
  cases found with
  | string s =>
    change (ofName? s).toOption = some value ↔ _
    rw [Node.string.injEq, ← h]
    cases ofName? s with
    | error e => simp [Except.toOption]
    | ok found => simp [Except.toOption]
  | table kind entries => cases htable
  | _ => simp [decodeName, Toml.format, Node.choice?]

/-- A document without any setting gives the defaults. -/
theorem isGivenBy_default {doc : Node}
    (h : ∀ name ∈ sectionNames, ∀ key ∈ settingsOf name, doc.setting? name key = none) :
    IsGivenBy {} doc where
  schemaPath := by rw [h "schema" (by decide) "path" (by decide)]; rfl
  emailPattern := by rw [h "validation" (by decide) "email_pattern" (by decide)]; rfl
  format := by rw [h "output" (by decide) "format" (by decide)]; rfl
  color := by rw [h "output" (by decide) "color" (by decide)]; rfl

/-- A document is decoded to the settings that it gives. -/
theorem decode_eq_some_iff {kind : Toml.TableKind} {entries : Entries} (h : entries.Distinct)
    (hplain : IsPlain (.table kind entries)) {config : Config} :
    decode Toml.format {} (.table kind entries) = some config ↔
      config.IsGivenBy (.table kind entries) := by
  obtain ⟨-, hpattern, hformat⟩ := id hplain
  have pattern := decodeName_eq_some_iff EmailPattern.ofName?_eq_ok_iff hpattern
  have format := decodeName_eq_some_iff OutputFormat.ofName?_eq_ok_iff hformat
  rw [decode_eq, Option.map_eq_some_iff]
  simp only [stated_decode_iff h hplain]
  constructor
  · rintro ⟨stated, ⟨hpath, hpattern, hformat, hcolor⟩, rfl⟩
    exact {
      schemaPath := (overrides_iff text?_eq_some_iff).mp ⟨_, hpath, rfl⟩
      emailPattern := (overrides_iff pattern).mp ⟨_, hpattern, rfl⟩
      format := (overrides_iff format).mp ⟨_, hformat, rfl⟩
      color := (overrides_iff bool?_eq_some_iff).mp ⟨_, hcolor, rfl⟩ }
  · rintro ⟨hpath, hpattern, hformat, hcolor⟩
    obtain ⟨path, hpath, hpath'⟩ := (overrides_iff text?_eq_some_iff).mpr hpath
    obtain ⟨pattern, hpattern, hpattern'⟩ := (overrides_iff pattern).mpr hpattern
    obtain ⟨format, hformat, hformat'⟩ := (overrides_iff format).mpr hformat
    obtain ⟨color, hcolor, hcolor'⟩ := (overrides_iff bool?_eq_some_iff).mpr hcolor
    refine ⟨⟨path, pattern, format, color⟩, ⟨hpath, hpattern, hformat, hcolor⟩, ?_⟩
    rw [Stated.upon, hpath', hpattern', hformat', hcolor']

/-! ## Files -/

theorem ofFile_text_of_isBlank (path : String) {content : String}
    (h : ∀ c ∈ content.toList, Text.isBlank c = true) : ofFile path (.text content) = .ok {} :=
  if_pos (List.all_eq_true.mpr h)

theorem ofFile_text_of_not_isBlank (path : String) {content : String}
    (h : ¬∀ c ∈ content.toList, Text.isBlank c = true) :
    ofFile path (.text content) = match parse? content with
      | some config => .ok config
      | none => .error ⟨.toml, .parsingConfig path, []⟩ :=
  if_neg (mt List.all_eq_true.mp h)

/-- A text that is a document gives the settings of that document, also if it is blank and so is not
parsed. -/
theorem ofFile_text_eq_ok_iff (path : String) {content : String} {doc : Node}
    (hdoc : Toml.parse? content = some doc) (hplain : IsPlain doc) (config : Config) :
    ofFile path (.text content) = .ok config ↔ config.IsGivenBy doc := by
  obtain ⟨entries, rfl, hentries⟩ := Toml.parse?_yields_distinct content doc hdoc
  rw [← decode_eq_some_iff hentries hplain]
  by_cases hblank : ∀ c ∈ content.toList, Text.isBlank c = true
  · rw [ofFile_text_of_isBlank path hblank, Toml.parse?_of_isBlank hblank _ hdoc]
    change _ ↔ some {} = some config
    simp
  · rw [ofFile_text_of_not_isBlank path hblank, parse?, hdoc, Option.bind_some]
    cases decode Toml.format {} (.table .header entries) with
    | none => simp
    | some found => simp

theorem ofFile_text_eq_ok_or_error (path content : String) :
    (∃ config, ofFile path (.text content) = .ok config) ∨
      ofFile path (.text content) = .error ⟨.toml, .parsingConfig path, []⟩ := by
  rw [ofFile]
  split_ifs
  · exact .inl ⟨_, rfl⟩
  · split
    · exact .inl ⟨_, rfl⟩
    · exact .inr rfl

/-- Settings are loaded without a file and from a blank one, where they are the defaults, and not
from what is no text or no document. A document is put over the defaults setting by setting: the
settings loaded are those that it gives, and none are loaded if one of its settings is mistaken. A
document without any setting is as good as no file. -/
theorem file_overrides_defaults (path : String) :
    ofFile path .missing = .ok {} ∧
    (∀ content : String, (∀ c ∈ content.toList, Text.isBlank c = true) →
      ofFile path (.text content) = .ok {}) ∧
    (∀ state, state = .directory ∨ state = .binary →
      ofFile path state = .error ⟨.unreadable, .readingConfig path, []⟩) ∧
    (∀ content : String, (∃ c ∈ content.toList, Text.isBlank c = false) →
      Toml.parse? content = none →
      ofFile path (.text content) = .error ⟨.toml, .parsingConfig path, []⟩) ∧
    ∀ (content : String) (doc : Node), Toml.parse? content = some doc → IsPlain doc →
      (∀ config, ofFile path (.text content) = .ok config ↔ config.IsGivenBy doc) ∧
      (ofFile path (.text content) = .error ⟨.toml, .parsingConfig path, []⟩ ↔ HasMistake doc) ∧
      ((∀ name ∈ sectionNames, ∀ key ∈ settingsOf name, doc.setting? name key = none) →
        ofFile path (.text content) = ofFile path .missing) := by
  refine ⟨rfl, fun content => ofFile_text_of_isBlank path, ?_, ?_, ?_⟩
  · rintro _ (rfl | rfl)
    · rfl
    · rfl
  · rintro content ⟨c, hc, hblank⟩ hnone
    rw [ofFile_text_of_not_isBlank path fun h => by simp [h c hc] at hblank, parse?, hnone]
    rfl
  · intro content doc hdoc hplain
    have hok := ofFile_text_eq_ok_iff path hdoc hplain
    refine ⟨hok, ⟨fun herror => ?_, fun hmistake => ?_⟩, fun hnone => ?_⟩
    · by_contra hmistake
      obtain ⟨config, hconfig⟩ := (exists_isGivenBy_iff doc).mpr hmistake
      cases herror.symm.trans ((hok config).mpr hconfig)
    · refine (ofFile_text_eq_ok_or_error path content).resolve_left ?_
      rintro ⟨config, hconfig⟩
      exact (exists_isGivenBy_iff doc).mp ⟨config, (hok config).mp hconfig⟩ hmistake
    · exact (hok {}).mpr (isGivenBy_default hnone)

/-- A file with settings of one section only, and with keys that are no settings where they are. -/
def partialSettings : String :=
  "color = 1\n[output]\ncolor = false\nformat = \"json\"\n[notes]\npath = 2\n"

theorem file_overrides_defaults_partialSettings :
    let config : Config := { format := .json, color := false }
    let mistaken := partialSettings ++ "[schema]\npath = 1\n"
    (ofFile "a.toml" (.text partialSettings) = .ok config ∧
      ∃ doc, Toml.parse? partialSettings = some doc ∧ IsPlain doc ∧ config.IsGivenBy doc) ∧
    (ofFile "a.toml" (.text mistaken) = .error ⟨.toml, .parsingConfig "a.toml", []⟩ ∧
      ∃ doc, Toml.parse? mistaken = some doc ∧ IsPlain doc ∧ HasMistake doc) ∧
    ofFile "a.toml" (.text "\u2003") = .ok {} := by
  intro config mistaken
  obtain ⟨-, hblank, -, -, hdocument⟩ := file_overrides_defaults "a.toml"
  have hload : ofFile "a.toml" (.text partialSettings) = .ok config := by decide +kernel
  have hrefuse : ofFile "a.toml" (.text mistaken) =
      .error ⟨.toml, .parsingConfig "a.toml", []⟩ := by decide +kernel
  have hspace : "\u2003".toList.all Text.isBlank = true := by decide +kernel
  have hplain : (Toml.parse? partialSettings).any (IsPlain ·) = true := by decide +kernel
  have hplain' : (Toml.parse? mistaken).any (IsPlain ·) = true := by decide +kernel
  obtain ⟨doc, hdoc, hplain⟩ := (Option.any_eq_true _ _).mp hplain
  obtain ⟨doc', hdoc', hplain'⟩ := (Option.any_eq_true _ _).mp hplain'
  rw [decide_eq_true_iff] at hplain hplain'
  refine ⟨⟨hload, doc, hdoc, hplain, ?_⟩, ⟨hrefuse, doc', hdoc', hplain', ?_⟩,
    hblank _ (List.all_eq_true.mp hspace)⟩
  · exact ((hdocument _ doc hdoc hplain).1 config).mp hload
  · exact (hdocument _ doc' hdoc' hplain').2.1.mp hrefuse

end Config
end FormCheck
