import FormCheck.Schema.Load
import Mathlib.Data.List.Forall2

/-!
# Schema files by their names

Which reader a schema file gets is settled by the name that its path ends in, before the content is
looked at: JSON if the name has that extension, and TOML otherwise. What the reader says of the
content is final. A text that the other reader would take is refused all the same.
-/
namespace FormCheck

/-- A text goes on behind the last occurrence of a character. -/
theorem Text.exists_last {sep : Char} {s : List Char} (h : sep ∈ s) :
    ∃ before after, s = before ++ sep :: after ∧ sep ∉ after := by
  obtain ⟨after, before, hs, hafter⟩ := List.eq_append_cons_of_mem (List.mem_reverse.mpr h)
  refine ⟨before.reverse, after.reverse, ?_, mt List.mem_reverse.mp hafter⟩
  simpa using congrArg List.reverse hs

namespace Path

/-! ## The name at the end of a path -/

/-- The name that a path ends in. Directories before it do not matter, and neither do slashes and
single dots behind it. -/
inductive EndsIn : List Char → List Char → Prop where
  | name {name : List Char} (hslash : '/' ∉ name) (hempty : name ≠ []) (hdot : name ≠ ['.']) :
    EndsIn name name
  | inside (directory : List Char) {path name : List Char} :
    EndsIn path name → EndsIn (directory ++ '/' :: path) name
  | slash {path name : List Char} : EndsIn path name → EndsIn (path ++ ['/']) name
  | dot {path name : List Char} : EndsIn path name → EndsIn (path ++ ['/', '.']) name

theorem steps_append (s t : List Char) :
    steps (.ofList (s ++ '/' :: t)) = steps (.ofList s) ++ steps (.ofList t) := by
  simp [steps, Text.split_append_cons]

theorem steps_of_notMem {s : List Char} (h : '/' ∉ s) :
    steps (.ofList s) = if s = [] ∨ s = ['.'] then [] else [s] := by
  rw [steps, String.toList_ofList, Text.split_eq_singleton h]
  by_cases hempty : s = []
  · simp [hempty]
  · by_cases hdot : s = ['.']
    · simp [hdot]
    · simp [hempty, hdot]

theorem getLast?_steps_of_endsIn {path name : List Char} (h : EndsIn path name) :
    (steps (.ofList path)).getLast? = some name := by
  induction h with
  | name hslash hempty hdot => simp [steps_of_notMem hslash, hempty, hdot]
  | inside directory _ ih => rw [steps_append, List.getLast?_append, ih, Option.some_or]
  | slash _ ih =>
    have hempty : steps (.ofList []) = [] := rfl
    rw [steps_append, hempty, List.append_nil, ih]
  | dot _ ih =>
    have hdot : steps (.ofList ['.']) = [] := rfl
    rw [steps_append, hdot, List.append_nil, ih]

/-- The last step of a path is the name it ends in. The last slash parts it into shorter ones. -/
theorem endsIn_of_getLast?_steps {path name : List Char}
    (h : (steps (.ofList path)).getLast? = some name) : EndsIn path name := by
  by_cases hslash : '/' ∈ path
  -- Behind the last slash stands the name, or nothing that counts.
  · obtain ⟨before, last, hpath, hlast⟩ := Text.exists_last hslash
    rw [hpath, steps_append, steps_of_notMem hlast] at h
    rw [hpath]
    split_ifs at h with hidle
    · have hbefore : EndsIn before name :=
        endsIn_of_getLast?_steps (by simpa using h)
      rcases hidle with rfl | rfl
      · exact .slash hbefore
      · exact .dot hbefore
    · obtain rfl : last = name := by simpa using h
      rw [not_or] at hidle
      exact .inside before (.name hlast hidle.1 hidle.2)
  · rw [steps_of_notMem hslash] at h
    split_ifs at h with hidle
    · cases h
    · obtain rfl : path = name := by simpa using h
      rw [not_or] at hidle
      exact .name hslash hidle.1 hidle.2
termination_by path.length
decreasing_by simp [hpath]

theorem name?_eq_some_iff {path : String} {name : List Char} :
    name? path = some name ↔ EndsIn path.toList name ∧ name ≠ ['.', '.'] := by
  have hlast : (steps path).getLast? = some name ↔ EndsIn path.toList name := by
    constructor
    · intro h
      exact endsIn_of_getLast?_steps (by rwa [String.ofList_toList])
    · intro h
      simpa only [String.ofList_toList] using getLast?_steps_of_endsIn h
  rw [name?, Option.filter_eq_some_iff, hlast, decide_eq_true_iff]

/-! ## Its extension -/

/-- The extension of a name: what stands behind its last dot, which does not come first. -/
def HasExtension (name ext : List Char) : Prop :=
  ∃ stem, stem ≠ [] ∧ '.' ∉ ext ∧ name = stem ++ '.' :: ext

theorem extensionOf?_append {stem ext : List Char} (h : '.' ∉ ext) :
    extensionOf? (stem ++ '.' :: ext) = if stem = [] then none else some ext := by
  rw [extensionOf?, Text.split_append_cons, Text.split_eq_singleton h]
  have hstem := Text.join_split '.' stem
  match hsplit : Text.split '.' stem with
  | [] => exact absurd hsplit (Text.split_ne_nil '.' stem)
  | [[]] =>
    obtain rfl : [] = stem := by simpa [hsplit, Text.join] using hstem
    rfl
  | [c :: p] =>
    obtain rfl : c :: p = stem := by simpa [hsplit, Text.join] using hstem
    rfl
  | p :: q :: rest =>
    have hne : stem ≠ [] := by
      rintro rfl
      simp at hsplit
    rw [if_neg hne]
    simp [List.getLast?_append, List.getLast?_cons]

theorem extensionOf?_eq_some_iff {name ext : List Char} :
    extensionOf? name = some ext ↔ HasExtension name ext := by
  constructor
  · intro h
    by_cases hdot : '.' ∈ name
    · obtain ⟨stem, last, rfl, hlast⟩ := Text.exists_last hdot
      rw [extensionOf?_append hlast] at h
      split_ifs at h with hstem
      obtain rfl := Option.some.inj h
      exact ⟨stem, hstem, hlast, rfl⟩
    · rw [extensionOf?, Text.split_eq_singleton hdot] at h
      cases h
  · rintro ⟨stem, hstem, hext, rfl⟩
    rw [extensionOf?_append hext, if_neg hstem]

/-! ## Paths of JSON files -/

/-- The letters of `json`, each in either case. -/
def SpellsJson (ext : List Char) : Prop :=
  List.Forall₂ (fun c letters => c ∈ letters) ext [['j', 'J'], ['s', 'S'], ['o', 'O'], ['n', 'N']]

/-- A path that ends in a name with the extension `json`, in letters of either case. -/
def NamesJson (path : String) : Prop :=
  ∃ name ext, EndsIn path.toList name ∧ HasExtension name ext ∧ SpellsJson ext

theorem toNat_toLower (c : Char) :
    c.toLower.toNat = if 'A' ≤ c ∧ c ≤ 'Z' then c.toNat + 32 else c.toNat := by
  unfold Char.toLower
  split_ifs with hval hle hle
  · have hZ : c.toNat ≤ 'Z'.toNat := hle.2
    have hletter : 'Z'.toNat = 90 := rfl
    change (c.val + ('a'.val - 'A'.val)).toNat = c.toNat + 32
    rw [UInt32.toNat_add]
    change (c.toNat + 32) % 2 ^ 32 = _
    omega
  · exact absurd hval hle
  · exact absurd hle hval
  · rfl

/-- A character in lower case is a given letter just if it is that letter in either case. -/
theorem toLower_eq_iff {c lower upper : Char} (hupper : 'A' ≤ upper ∧ upper ≤ 'Z')
    (hlower : lower.toNat = upper.toNat + 32) :
    c.toLower = lower ↔ c ∈ [lower, upper] := by
  have hA : 'A'.toNat = 65 := rfl
  have hZ : 'Z'.toNat = 90 := rfl
  have hle (a b : Char) : a ≤ b ↔ a.toNat ≤ b.toNat := Iff.rfl
  simp only [List.mem_cons, List.not_mem_nil, or_false, ← Char.toNat_inj, toNat_toLower,
    hle] at hupper ⊢
  split_ifs <;> omega

theorem map_toLower_eq_json_iff {ext : List Char} :
    ext.map Char.toLower = "json".toList ↔ SpellsJson ext := by
  have hj (c : Char) : c.toLower = 'j' ↔ c ∈ ['j', 'J'] := toLower_eq_iff (by decide) rfl
  have hs (c : Char) : c.toLower = 's' ↔ c ∈ ['s', 'S'] := toLower_eq_iff (by decide) rfl
  have ho (c : Char) : c.toLower = 'o' ↔ c ∈ ['o', 'O'] := toLower_eq_iff (by decide) rfl
  have hn (c : Char) : c.toLower = 'n' ↔ c ∈ ['n', 'N'] := toLower_eq_iff (by decide) rfl
  change ext.map Char.toLower = ['j', 's', 'o', 'n'] ↔ _
  rw [← List.forall₂_eq_eq_eq, List.forall₂_map_left_iff]
  simp only [SpellsJson, List.forall₂_cons_right_iff, List.forall₂_nil_right_iff, hj, hs, ho, hn]

theorem isJson_iff (path : String) : isJson path = true ↔ NamesJson path := by
  rw [isJson, Option.any_eq_true]
  constructor
  · rintro ⟨e, he, hjson⟩
    obtain ⟨ext, hext, rfl⟩ := Option.map_eq_some_iff.mp he
    obtain ⟨name, hname, hext⟩ := Option.bind_eq_some_iff.mp hext
    rw [String.toList_ofList, beq_iff_eq, map_toLower_eq_json_iff] at hjson
    exact ⟨name, ext, (name?_eq_some_iff.mp hname).1, extensionOf?_eq_some_iff.mp hext, hjson⟩
  · rintro ⟨name, ext, hname, hext, hjson⟩
    -- A step upwards has an extension in this sense, but an empty one.
    have hup : name ≠ ['.', '.'] := by
      rintro rfl
      obtain rfl : [] = ext :=
        Option.some.inj ((by decide : extensionOf? ['.', '.'] = some []).symm.trans
          (extensionOf?_eq_some_iff.mpr hext))
      cases hjson
    refine ⟨.ofList ext, ?_, ?_⟩
    · rw [extension?, name?_eq_some_iff.mpr ⟨hname, hup⟩, Option.bind_some,
        extensionOf?_eq_some_iff.mpr hext, Option.map_some]
    · rwa [String.toList_ofList, beq_iff_eq, map_toLower_eq_json_iff]

/-- Of several dots the last one counts, a leading one does not, and directories have no part. -/
example :
    (["b.json", "..json", "a.toml/b.c.Json", "../b.JSON/./"].all fun path => isJson path) ∧
    [".json", "b.json.toml", "b.json/c", "b.json/..", "json", "b.json ", ""].all fun path =>
      !isJson path := by
  decide +kernel

end Path

namespace FormSchema

/-- The formats of a schema file. -/
inductive FileFormat where
  | json
  | toml
deriving DecidableEq

namespace FileFormat

/-- Whether a path asks for a format. -/
def IsOf (path : String) : FileFormat → Prop
  | json => Path.NamesJson path
  | toml => ¬Path.NamesJson path

/-- The schema in a text of a format. -/
def read : FileFormat → String → Except LoadError FormSchema
  | json => parseJson
  | toml => parseToml

/-- Why a text of a format could not be used. -/
def cause : FileFormat → Cause
  | json => .json
  | toml => .toml

/-- What is done with a text of a format. -/
def step : FileFormat → Step
  | json => .parsingJsonSchema
  | toml => .parsingTomlSchema

/-- A reader has one error. -/
theorem read_eq_ok_or_error (format : FileFormat) (content : String) :
    (∃ schema, format.read content = .ok schema) ∨
      format.read content = .error ⟨format.cause, format.step, []⟩ := by
  cases format with
  | json =>
    change (∃ schema, parseJson content = _) ∨ parseJson content = _
    rw [parseJson]
    split
    · exact .inl ⟨_, rfl⟩
    · exact .inr rfl
  | toml =>
    change (∃ schema, parseToml content = _) ∨ parseToml content = _
    rw [parseToml]
    split
    · exact .inl ⟨_, rfl⟩
    · exact .inr rfl

theorem parseAt_eq_read {path : String} {format : FileFormat} (h : format.IsOf path)
    (content : String) : parseAt path content = format.read content := by
  cases format with
  | json => exact if_pos ((Path.isJson_iff path).mpr h)
  | toml => exact if_neg (mt (Path.isJson_iff path).mp h)

end FileFormat

/-- A file that cannot be read is reported as such, with nothing but its path. Any other file is
read in the format that its path asks for, whatever its text: it holds a schema just if that reader
finds one, and then this one. Otherwise the error names the path first and the format second, also
for a text of the other format. -/
theorem file_format_from_name (path : String) :
    (∀ state, (∀ content, state ≠ .text content) →
      ofFile path state = .error ⟨.unreadable, .readingSchema path, []⟩) ∧
    ∀ format : FileFormat, format.IsOf path → ∀ content,
      (∀ schema, ofFile path (.text content) = .ok schema ↔ format.read content = .ok schema) ∧
      (∀ e, ofFile path (.text content) = .error e ↔
        format.read content = .error ⟨format.cause, format.step, []⟩ ∧
          e = ⟨format.cause, .loadingSchema path, [format.step]⟩) ∧
      ∀ (other : FileFormat) (schema : FormSchema), other.read content = .ok schema →
        (∀ schema, format.read content ≠ .ok schema) →
        ofFile path (.text content) =
          .error ⟨format.cause, .loadingSchema path, [format.step]⟩ := by
  constructor
  · intro state hstate
    cases state with
    | text content => exact absurd rfl (hstate content)
    | missing => rfl
    | directory => rfl
    | binary => rfl
  · intro format hformat content
    rw [ofFile, format.parseAt_eq_read hformat]
    rcases format.read_eq_ok_or_error content with ⟨found, hread⟩ | hread
    · rw [hread]
      exact ⟨fun schema => Iff.rfl, fun e => ⟨nofun, fun h => nomatch h.1⟩,
        fun _ _ _ hnone => absurd rfl (hnone found)⟩
    · rw [hread]
      refine ⟨fun schema => ⟨nofun, nofun⟩, fun e => ⟨?_, ?_⟩, fun _ _ _ _ => rfl⟩
      · intro h
        exact ⟨rfl, (Except.error.inj h).symm⟩
      · rintro ⟨-, rfl⟩
        rfl

/-- A text of comments is an empty schema in one format and an error in the other. -/
theorem file_format_from_name_comment :
    let content := "# no fields\n"
    ofFile "forms.json/contact" (.text content) = .ok ⟨[]⟩ ∧
    ofFile "forms/contact.JSON/." (.text content) =
      .error ⟨.json, .loadingSchema "forms/contact.JSON/.", [.parsingJsonSchema]⟩ ∧
    ofFile "forms.json" .directory = .error ⟨.unreadable, .readingSchema "forms.json", []⟩ := by
  intro content
  have htoml : parseToml content = .ok ⟨[]⟩ := by decide +kernel
  have hjson : parseJson content = .error ⟨.json, .parsingJsonSchema, []⟩ := by decide +kernel
  have hfile : FileFormat.toml.IsOf "forms.json/contact" :=
    mt (Path.isJson_iff _).mpr (by decide +kernel)
  have hupper : FileFormat.json.IsOf "forms/contact.JSON/." :=
    (Path.isJson_iff _).mp (by decide +kernel)
  refine ⟨?_, ?_, ?_⟩
  · exact (((file_format_from_name _).2 .toml hfile content).1 ⟨[]⟩).mpr htoml
  · refine ((file_format_from_name _).2 .json hupper content).2.2 .toml ⟨[]⟩ htoml ?_
    intro schema h
    cases hjson.symm.trans h
  · exact (file_format_from_name _).1 .directory nofun

end FormSchema
end FormCheck
