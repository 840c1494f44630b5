import FormCheck.Config
import Mathlib.Data.List.Basic

/-!
# What a settings file states

A settings file states some of the settings, and each of the others has its default. Which settings
are stated depends on the entries with known names only, in the sections with known names. So the
settings of a file are those stated put over the defaults, and entries of other names change
nothing.
-/
namespace FormCheck

variable {α β γ : Type}

namespace Fields

/-- Decodes a field that may be left out; then there is no value. -/
def optional (decode : α → Option β) (names : List String) (position : Nat) (fields : Fields α) :
    Option (Option β) :=
  fields.withDefault none (fun node => (decode node).map some) names position

/-- Decoding with a default is decoding what is there, and then putting in the default. -/
theorem withDefault_eq_map {default : γ} {decode : α → Option β} {decode' : α → Option γ}
    (f : Option β → γ) (hnone : f none = default)
    (hsome : ∀ node, decode' node = (decode node).map fun b => f (some b)) (names : List String)
    (position : Nat) (fields : Fields α) :
    fields.withDefault default decode' names position =
      (fields.optional decode names position).map f := by
  rw [optional, withDefault, withDefault]
  cases fields.get? names position with
  | none => rfl
  | some found =>
    cases found with
    | none => exact congrArg some hnone.symm
    | some node =>
      change decode' node = ((decode node).map some).map f
      rw [hsome, Option.map_map]
      rfl

/-- A field with a default is the field if it is there, and else the default. -/
theorem withDefault_eq_getD (default : β) (decode : α → Option β) (names : List String)
    (position : Nat) (fields : Fields α) :
    fields.withDefault default decode names position =
      (fields.optional decode names position).map fun found => found.getD default :=
  withDefault_eq_map (fun found => found.getD default) rfl (fun _ => Option.map_id'.symm) names
    position fields

/-- Fields of other names have no part in what is decoded. -/
theorem optional_named_filter {names known : List String} (h : names ⊆ known)
    (decode : α → Option β) (position : Nat) (members : List (String × α)) :
    (named (members.filter fun m => known.contains m.1)).optional decode names position =
      (named members).optional decode names position := by
  have hfilter : (members.filter fun m => known.contains m.1).filter
      (fun m => names.contains m.1) = members.filter fun m => names.contains m.1 := by
    rw [List.filter_filter]
    refine List.filter_congr fun m _ => ?_
    by_cases hm : m.1 ∈ names
    · simp [hm, h hm]
    · simp [hm]
  rw [optional, withDefault, get?, hfilter, optional, withDefault, get?]

/-- With the nodes changed, the changed node is found. -/
theorem get?_named_map (f : String → α → α) (name : String) (position : Nat)
    (members : List (String × α)) :
    (named (members.map fun m => (m.1, f m.1 m.2))).get? [name] position =
      ((named members).get? [name] position).map (Option.map (f name)) := by
  have hfilter : (members.map fun m => (m.1, f m.1 m.2)).filter (fun m => [name].contains m.1) =
      (members.filter fun m => [name].contains m.1).map fun m => (m.1, f name m.2) := by
    rw [List.filter_map]
    refine List.map_congr_left fun m hm => ?_
    have hname : m.1 = name := by simpa using (List.mem_filter.mp hm).2
    rw [hname]
  rw [get?, hfilter, get?]
  generalize members.filter (fun m => [name].contains m.1) = found
  match found with
  | [] => rfl
  | [m] => rfl
  | _ :: _ :: _ => rfl

/-- A node may be changed as long as it is decoded to the same. -/
theorem optional_named_map (f : String → α → α) {decode : α → Option β} {name : String}
    (h : ∀ node, decode (f name node) = decode node) (position : Nat)
    (members : List (String × α)) :
    (named (members.map fun m => (m.1, f m.1 m.2))).optional decode [name] position =
      (named members).optional decode [name] position := by
  rw [optional, optional, withDefault, withDefault, get?_named_map]
  cases (named members).get? [name] position with
  | none => rfl
  | some found =>
    cases found with
    | none => rfl
    | some node =>
      change (decode (f name node)).map some = (decode node).map some
      rw [h]

end Fields

namespace Config

/-- What is stated of each setting, if anything. -/
structure Stated where
  schemaPath : Option String := none
  emailPattern : Option EmailPattern := none
  format : Option OutputFormat := none
  color : Option Bool := none
deriving DecidableEq

namespace Stated

/-- The settings stated, and those of another kind of settings for the rest. -/
def upon (base : Config) (stated : Stated) : Config where
  schemaPath := stated.schemaPath.getD base.schemaPath
  emailPattern := stated.emailPattern.getD base.emailPattern
  format := stated.format.getD base.format
  color := stated.color.getD base.color

@[simp] theorem emailPattern_upon (base : Config) (stated : Stated) :
    (stated.upon base).emailPattern = stated.emailPattern.getD base.emailPattern := rfl

@[simp] theorem format_upon (base : Config) (stated : Stated) :
    (stated.upon base).format = stated.format.getD base.format := rfl

@[simp] theorem color_upon (base : Config) (stated : Stated) :
    (stated.upon base).color = stated.color.getD base.color := rfl

/-- What the section on the schema states. -/
def schemaSection (format : Format α) (node : α) : Option (Option String) := do
  (← format.fields? 1 node).optional format.text? ["path"] 0

/-- What the section on validation states. -/
def validationSection (format : Format α) (node : α) : Option (Option EmailPattern) := do
  (← format.fields? 1 node).optional (decodeName format EmailPattern.ofName?) ["email_pattern"] 0

/-- What the section on output states. -/
def outputSection (format : Format α) (node : α) :
    Option (Option OutputFormat × Option Bool) := do
  let fields ← format.fields? 2 node
  return (← fields.optional (decodeName format OutputFormat.ofName?) ["format"] 0,
    ← fields.optional format.bool? ["color"] 1)

/-- What a document states. -/
def decode (format : Format α) (node : α) : Option Stated := do
  let sections ← format.fields? 3 node
  let path ← sections.optional (schemaSection format) ["schema"] 0
  let pattern ← sections.optional (validationSection format) ["validation"] 1
  let output ← sections.optional (outputSection format) ["output"] 2
  return {
    schemaPath := path.join
    emailPattern := pattern.join
    format := output.bind Prod.fst
    color := output.bind Prod.snd }

end Stated

variable (format : Format α) (base : Config) (sections : Fields α)

/-- A section with one setting puts it into the settings, and the default if it is not stated. -/
theorem withDefault_section {β : Type} (put : β → Config) (default : β) (decode : α → Option β)
    (key name : String) (position : Nat) :
    sections.withDefault (put default) (fun node => do
      let fields ← format.fields? 1 node
      return put (← fields.withDefault default decode [key] 0)) [name] position =
      (sections.optional (fun node => do (← format.fields? 1 node).optional decode [key] 0)
        [name] position).map fun found => put (found.join.getD default) := by
  refine Fields.withDefault_eq_map _ ?_ (fun node => ?_) _ _ sections
  · rfl
  cases format.fields? 1 node with
  | none => rfl
  | some fields =>
    simp only [Fields.withDefault_eq_getD, Option.pure_def, Option.bind_eq_bind, Option.bind_some]
    cases fields.optional decode [key] 0 with
    | none => rfl
    | some found => rfl

theorem withDefault_schemaSection :
    sections.withDefault base (fun node => do
      let fields ← format.fields? 1 node
      return { base with
        schemaPath := ← fields.withDefault base.schemaPath format.text? ["path"] 0 })
      ["schema"] 0 =
      (sections.optional (Stated.schemaSection format) ["schema"] 0).map fun path =>
        { base with schemaPath := path.join.getD base.schemaPath } :=
  withDefault_section format sections (fun path => { base with schemaPath := path })
    base.schemaPath format.text? "path" "schema" 0

theorem withDefault_validationSection :
    sections.withDefault base (fun node => do
      let fields ← format.fields? 1 node
      return { base with
        emailPattern := ← fields.withDefault base.emailPattern
          (decodeName format EmailPattern.ofName?) ["email_pattern"] 0 })
      ["validation"] 1 =
      (sections.optional (Stated.validationSection format) ["validation"] 1).map fun pattern =>
        { base with emailPattern := pattern.join.getD base.emailPattern } :=
  withDefault_section format sections (fun pattern => { base with emailPattern := pattern })
    base.emailPattern (decodeName format EmailPattern.ofName?) "email_pattern" "validation" 1

theorem withDefault_outputSection :
    sections.withDefault base (fun node => do
      let fields ← format.fields? 2 node
      return { base with
        format := ← fields.withDefault base.format
          (decodeName format OutputFormat.ofName?) ["format"] 0
        color := ← fields.withDefault base.color format.bool? ["color"] 1 })
      ["output"] 2 =
      (sections.optional (Stated.outputSection format) ["output"] 2).map fun output =>
        { base with
          format := (output.bind Prod.fst).getD base.format
          color := (output.bind Prod.snd).getD base.color } := by
  refine Fields.withDefault_eq_map _ ?_ (fun node => ?_) _ _ sections
  · rfl
  rw [Stated.outputSection]
  cases format.fields? 2 node with
  | none => rfl
  | some fields =>
    simp only [Fields.withDefault_eq_getD, Option.pure_def, Option.bind_eq_bind, Option.bind_some]
    cases fields.optional (decodeName format OutputFormat.ofName?) ["format"] 0 with
    | none => rfl
    | some name =>
      cases fields.optional format.bool? ["color"] 1 with
      | none => rfl
      | some color => rfl

/-- The settings of a document are those that it states over those given. -/
theorem decode_eq (node : α) :
    decode format base node = (Stated.decode format node).map (Stated.upon base) := by
  simp only [decode, Stated.decode, withDefault_schemaSection, withDefault_validationSection,
    withDefault_outputSection]
  cases format.fields? 3 node with
  | none => rfl
  | some sections =>
    simp only [Option.bind_eq_bind, Option.bind_some]
    cases sections.optional (Stated.schemaSection format) ["schema"] 0 with
    | none => rfl
    | some path =>
      cases sections.optional (Stated.validationSection format) ["validation"] 1 with
      | none => rfl
      | some pattern =>
        cases sections.optional (Stated.outputSection format) ["output"] 2 with
        | none => rfl
        | some output => rfl

/-- The document in a settings file. No file and a blank one are a document without entries. -/
def document? : FileState → Option Toml.Node
  | .missing => some (.table .header [])
  | .text content =>
    if content.toList.all Text.isBlank then some (.table .header []) else Toml.parse? content
  | .directory | .binary => none

/-- What a settings file states, if it can be loaded. -/
def Stated.ofFile? (state : FileState) : Option Stated :=
  (document? state).bind (Stated.decode Toml.format)

/-- The settings of a file are those that it states over the defaults. -/
theorem toOption_ofFile (path : String) (state : FileState) :
    (ofFile path state).toOption = (Stated.ofFile? state).map (Stated.upon {}) := by
  cases state with
  | missing => rfl
  | directory => rfl
  | binary => rfl
  | text content =>
    rw [ofFile, Stated.ofFile?, document?]
    split_ifs with hblank
    · rfl
    · rw [parse?]
      cases Toml.parse? content with
      | none => rfl
      | some node =>
        simp only [Option.bind_some, decode_eq]
        cases Stated.decode Toml.format node with
        | none => rfl
        | some stated => rfl

end Config

namespace Toml.Node

/-- A table without the entries of other names. -/
def keep (names : List String) : Node → Node
  | table _ entries => table .header (entries.filter fun e => names.contains e.1)
  | node => node

end Toml.Node

namespace Config

/-- The settings that a section may hold. -/
def settingsOf : String → List String
  | "schema" => ["path"]
  | "validation" => ["email_pattern"]
  | "output" => ["format", "color"]
  | _ => []

/-- The sections of a settings file. -/
def sectionNames : List String := ["schema", "validation", "output"]

/-- The sections, each without what is none of its settings. -/
def knownEntries (entries : Toml.Entries) : Toml.Entries :=
  (entries.filter fun e => sectionNames.contains e.1).map fun e =>
    (e.1, e.2.keep (settingsOf e.1))

/-- A document without the entries whose names are those of no section or setting. -/
def knownPart : Toml.Node → Toml.Node
  | .table _ entries => .table .header (knownEntries entries)
  | node => node

theorem fields?_table (count : Nat) (kind : Toml.TableKind) (entries : Toml.Entries) :
    Toml.format.fields? count (.table kind entries) = some (.named entries) :=
  Format.fields?_of_view rfl count

/-- What is made of the fields of a section may be made of those kept, if it only needs these. -/
theorem bind_fields?_keep {decode : Fields Toml.Node → Option β} {names : List String}
    (h : ∀ entries : Toml.Entries,
      decode (.named (entries.filter fun e => names.contains e.1)) = decode (.named entries))
    (count : Nat) (node : Toml.Node) :
    (Toml.format.fields? count (node.keep names)).bind decode =
      (Toml.format.fields? count node).bind decode := by
  cases node with
  | table kind entries =>
    rw [Toml.Node.keep, fields?_table, fields?_table, Option.bind_some, Option.bind_some, h]
  | _ => rfl

namespace Stated

theorem schemaSection_keep (node : Toml.Node) :
    schemaSection Toml.format (node.keep (settingsOf "schema")) = schemaSection Toml.format node :=
  bind_fields?_keep (Fields.optional_named_filter (List.Subset.refl _) _ _) 1 node

theorem validationSection_keep (node : Toml.Node) :
    validationSection Toml.format (node.keep (settingsOf "validation")) =
      validationSection Toml.format node :=
  bind_fields?_keep (Fields.optional_named_filter (List.Subset.refl _) _ _) 1 node

theorem outputSection_keep (node : Toml.Node) :
    outputSection Toml.format (node.keep (settingsOf "output")) =
      outputSection Toml.format node := by
  refine bind_fields?_keep (fun entries => ?_) 2 node
  have hformat : ["format"] ⊆ settingsOf "output" := by decide
  have hcolor : ["color"] ⊆ settingsOf "output" := by decide
  rw [Fields.optional_named_filter hformat, Fields.optional_named_filter hcolor]

/-- A section states the same among the known entries. -/
theorem optional_knownEntries {decode : Toml.Node → Option β} {name : String}
    (hname : [name] ⊆ sectionNames)
    (hdecode : ∀ node, decode (node.keep (settingsOf name)) = decode node) (position : Nat)
    (entries : Toml.Entries) :
    (Fields.named (knownEntries entries)).optional decode [name] position =
      (Fields.named entries).optional decode [name] position := by
  let change (name : String) (node : Toml.Node) : Toml.Node := node.keep (settingsOf name)
  rw [knownEntries, Fields.optional_named_map change hdecode, Fields.optional_named_filter hname]

/-- A document states what its known part states. -/
theorem decode_knownPart (node : Toml.Node) :
    decode Toml.format (knownPart node) = decode Toml.format node := by
  cases node with
  | table kind entries =>
    have hschema := optional_knownEntries (by decide) schemaSection_keep 0 entries
    have hvalidation := optional_knownEntries (by decide) validationSection_keep 1 entries
    have houtput := optional_knownEntries (by decide) outputSection_keep 2 entries
    simp only [knownPart, decode, fields?_table, Option.bind_eq_bind, Option.bind_some, hschema,
      hvalidation, houtput]
  | _ => rfl

end Stated

end Config
end FormCheck
