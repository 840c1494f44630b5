import FormCheck.Proofs.Runs
import FormCheck.Proofs.Settings

/-!
# Settings in force

A flag comes before the settings file, and the file before the default. What a run prints and its
exit status depend on nothing of flags and file but the schema, the email check, the format and the
use of colours that are in force in the end. So a setting may be moved between a flag and the file,
a flag covers whatever the file states, and what the file holds besides the settings changes
nothing.
-/
namespace FormCheck

open Config (Stated)

/-- The schema file in force, unless the form is the one to sign up with: that of a flag, else that
of the settings file, else the default. -/
def SchemaSource.pathInForce? (stated : Option String) : SchemaSource → Option String
  | signUp => none
  | file path => some path
  | configured => some (stated.getD "form.toml")

/-- The schema in force. -/
def SchemaSource.inForce (look : String → FileState) (stated : Stated) (source : SchemaSource) :
    Except LoadError FormSchema :=
  match source.pathInForce? stated.schemaPath with
  | some path => FormSchema.ofFile path (look path)
  | none => .ok .signUp

/-- Commands of one kind on the same record file or the same value, each with what is stated beside
its flags, for which the same settings are in force. -/
inductive Command.SameInForce (look look' : String → FileState) (stated stated' : Stated) :
    Command → Command → Prop
  | check {source source' : SchemaSource} {path path' : String}
      {format format' : Option OutputFormat} {pattern pattern' : Option EmailPattern}
      (hschema : (source.inForce look stated).toOption = (source'.inForce look' stated').toOption)
      (hrecord : look path = look' path')
      (hformat : (format.or stated.format).getD .text = (format'.or stated'.format).getD .text)
      (hpattern : (pattern.or stated.emailPattern).getD .html =
        (pattern'.or stated'.emailPattern).getD .html) :
      SameInForce look look' stated stated' (.check source path format pattern)
        (.check source' path' format' pattern')
  | fields {source source' : SchemaSource}
      (hschema : (source.inForce look stated).toOption =
        (source'.inForce look' stated').toOption) :
      SameInForce look look' stated stated' (.fields source) (.fields source')
  | rule {rules label : String} {value : Option String} {pattern pattern' : Option EmailPattern}
      (hpattern : (pattern.or stated.emailPattern).getD .html =
        (pattern'.or stated'.emailPattern).getD .html) :
      SameInForce look look' stated stated' (.rule rules label value pattern)
        (.rule rules label value pattern')

/-- The same is printed, with the same exit status. -/
def Outcome.SamePrinted (a b : Outcome) : Prop := a.output = b.output ∧ a.exit = b.exit

theorem SchemaSource.schema_upon (look : String → FileState) (stated : Stated)
    (source : SchemaSource) : source.schema look (stated.upon {}) = source.inForce look stated := by
  cases source with
  | configured => rfl
  | file path => rfl
  | signUp => rfl

theorem toOption_bind {ε α β : Type} (x : Except ε α) (f : α → Except ε β) :
    (x >>= f).toOption = x.toOption.bind fun a => (f a).toOption := by
  cases x with
  | error e => rfl
  | ok a => rfl

/-- The path of a file shows in its error only. -/
theorem Record.toOption_ofFile (path path' : String) (state : FileState) :
    (ofFile path state).toOption = (ofFile path' state).toOption := by
  cases state with
  | text content =>
    rw [ofFile, ofFile]
    cases parse content with
    | error e => rfl
    | ok record => rfl
  | _ => rfl

/-- With the same settings in force the same task is loaded, or none on either side. -/
theorem Command.SameInForce.task_eq {look look' : String → FileState} {stated stated' : Stated}
    {a b : Command} (h : SameInForce look look' stated stated' a b) :
    (a.task look (stated.upon {})).toOption = (b.task look' (stated'.upon {})).toOption := by
  cases h with
  | @check _ _ path path' _ _ _ _ hschema hrecord hformat hpattern =>
    have hload := Record.toOption_ofFile path path' (look' path')
    rw [Option.getD_or, Option.getD_or] at hformat hpattern
    simp only [task, toOption_bind, SchemaSource.schema_upon, Stated.format_upon,
      Stated.emailPattern_upon, hschema, hrecord, hload, hformat, hpattern]
  | fields hschema => simp only [task, toOption_bind, SchemaSource.schema_upon, hschema]
  | rule hpattern =>
    rw [Option.getD_or, Option.getD_or] at hpattern
    simp only [task, Stated.emailPattern_upon, hpattern]

namespace Invocation

variable {look look' : String → FileState} {a b : Invocation}

/-- Runs that load the same task and use colours alike print the same. If neither loads a task,
neither prints anything. -/
theorem samePrinted_of_task_eq {config config' : Config}
    (hconfig : Config.ofFile a.configPath (look a.configPath) = .ok config)
    (hconfig' : Config.ofFile b.configPath (look' b.configPath) = .ok config')
    (htask : (a.command.task look config).toOption = (b.command.task look' config').toOption)
    {color color' : Bool} (hcolor : (color && config.color) = (color' && config'.color)) :
    Outcome.SamePrinted (a.run (m := Id) look color) (b.run (m := Id) look' color') := by
  rw [run_eq, run_eq, task_of_config_ok hconfig, task_of_config_ok hconfig']
  cases hcommand : a.command.task look config with
  | error e =>
    cases hcommand' : b.command.task look' config' with
    | error e' => exact ⟨rfl, rfl⟩
    | ok task =>
      rw [hcommand, hcommand'] at htask
      cases htask
  | ok task =>
    cases hcommand' : b.command.task look' config' with
    | error e =>
      rw [hcommand, hcommand'] at htask
      cases htask
    | ok task' =>
      rw [hcommand, hcommand'] at htask
      obtain rfl : task = task' := Option.some.inj htask
      simp only [Except.map, hcolor]
      exact ⟨rfl, rfl⟩

end Invocation

/-- The files that a command reads besides the settings file. -/
def Command.reads (stated : Stated) : Command → List String
  | .check source path _ _ => path :: (source.pathInForce? stated.schemaPath).toList
  | .fields source => (source.pathInForce? stated.schemaPath).toList
  | .rule .. => []

/-- The schema file that is given as a flag. -/
def SchemaSource.flag? : SchemaSource → Option String
  | file path => some path
  | configured | signUp => none

/-- The source without a schema file given as a flag. -/
def SchemaSource.bare : SchemaSource → SchemaSource
  | configured | file _ => configured
  | signUp => signUp

/-- The command without the flags that a settings file may stand for. -/
def Command.bare : Command → Command
  | .check source path _ _ => .check source.bare path none none
  | .fields source => .fields source.bare
  | .rule rules label value _ => .rule rules label value none

/-- What is stated in the end when the flags of a command are moved into the settings file. -/
def Config.Stated.withFlags (stated : Stated) : Command → Stated
  | .check source _ format pattern =>
    { stated with
      schemaPath := source.flag?.or stated.schemaPath
      emailPattern := pattern.or stated.emailPattern
      format := format.or stated.format }
  | .fields source => { stated with schemaPath := source.flag?.or stated.schemaPath }
  | .rule _ _ _ pattern => { stated with emailPattern := pattern.or stated.emailPattern }

/-- A schema file given as a flag may as well be stated. -/
theorem SchemaSource.pathInForce?_bare (stated : Option String) (source : SchemaSource) :
    source.bare.pathInForce? (source.flag?.or stated) = source.pathInForce? stated := by
  cases source with
  | configured => rfl
  | file path => rfl
  | signUp => rfl

/-- Sources with the same schema file in force have the same schema. -/
theorem SchemaSource.inForce_congr {look look' : String → FileState} {stated stated' : Stated}
    {source source' : SchemaSource} (hbare : source.bare = source'.bare)
    (hstated : source.flag?.or stated.schemaPath = source'.flag?.or stated'.schemaPath)
    (hlook : ∀ path ∈ (source.pathInForce? stated.schemaPath).toList, look path = look' path) :
    source.inForce look stated = source'.inForce look' stated' := by
  have hpath : source.pathInForce? stated.schemaPath =
      source'.pathInForce? stated'.schemaPath := by
    rw [← pathInForce?_bare, hbare, hstated, pathInForce?_bare]
  rw [inForce, inForce, ← hpath]
  cases h : source.pathInForce? stated.schemaPath with
  | none => rfl
  | some path =>
    have hsame : look path = look' path := hlook path (by simp [h])
    exact congrArg (FormSchema.ofFile path) hsame

/-- Commands that differ in their flags only, and with the flags state the same, have the same
settings in force. -/
theorem Command.sameInForce_of_bare_eq {look look' : String → FileState} {stated stated' : Stated}
    {a b : Command} (hbare : a.bare = b.bare) (hstated : stated.withFlags a = stated'.withFlags b)
    (hlook : ∀ path ∈ a.reads stated, look path = look' path) :
    SameInForce look look' stated stated' a b := by
  have hpath := congrArg Stated.schemaPath hstated
  have hformat := congrArg Stated.format hstated
  have hpattern := congrArg Stated.emailPattern hstated
  cases a with
  | check source path format pattern =>
    cases b with
    | check source' path' format' pattern' =>
      obtain ⟨hsource, rfl⟩ : source.bare = source'.bare ∧ path = path' := by
        simpa [bare] using hbare
      have hschema := SchemaSource.inForce_congr hsource hpath fun p hp =>
        hlook p (List.mem_cons_of_mem _ hp)
      exact .check (congrArg _ hschema) (hlook path List.mem_cons_self)
        (congrArg (fun f => f.getD .text) hformat) (congrArg (fun p => p.getD .html) hpattern)
    | fields source' => cases hbare
    | rule rules label value pattern' => cases hbare
  | fields source =>
    cases b with
    | check source' path' format' pattern' => cases hbare
    | fields source' =>
      have hsource : source.bare = source'.bare := by simpa [bare] using hbare
      exact .fields (congrArg _ (SchemaSource.inForce_congr hsource hpath hlook))
    | rule rules label value pattern' => cases hbare
  | rule rules label value pattern =>
    cases b with
    | check source' path' format' pattern' => cases hbare
    | fields source' => cases hbare
    | rule rules' label' value' pattern' =>
      obtain ⟨rfl, rfl, rfl⟩ : rules = rules' ∧ label = label' ∧ value = value' := by
        simpa [bare] using hbare
      exact .rule (congrArg (fun p => p.getD .html) hpattern)

/-- Flags say nothing about colours. -/
theorem Config.Stated.color_withFlags (stated : Stated) (command : Command) :
    (stated.withFlags command).color = stated.color := by
  cases command with
  | check source path format pattern => rfl
  | fields source => rfl
  | rule rules label value pattern => rfl

/-- Settings files that differ in entries of other names only state the same. -/
theorem Config.Stated.ofFile?_congr {state state' : FileState}
    (h : (document? state).map knownPart = (document? state').map knownPart) :
    ofFile? state = ofFile? state' := by
  have hknown (state : FileState) :
      ofFile? state = ((document? state).map knownPart).bind (decode Toml.format) := by
    rw [ofFile?, Option.bind_map]
    simp only [Function.comp_def, decode_knownPart]
  rw [hknown, hknown, h]

namespace Invocation

variable {look look' : String → FileState} {a b : Invocation} {color color' : Bool}

theorem ofFile_of_stated {stated : Stated} (path : String)
    (h : Stated.ofFile? (look path) = some stated) :
    Config.ofFile path (look path) = .ok (stated.upon {}) := by
  have hload := Config.toOption_ofFile path (look path)
  rw [h, Option.map_some] at hload
  cases hfile : Config.ofFile path (look path) with
  | error e =>
    rw [hfile] at hload
    cases hload
  | ok config =>
    rw [hfile] at hload
    exact congrArg _ (Option.some.inj hload)

/-- A settings file that cannot be loaded ends a run without output. -/
theorem run_of_stated_none (color : Bool) (h : Stated.ofFile? (look a.configPath) = none) :
    ∃ e, a.run (m := Id) look color = .ofError e := by
  have hload := Config.toOption_ofFile a.configPath (look a.configPath)
  rw [h, Option.map_none] at hload
  cases hfile : Config.ofFile a.configPath (look a.configPath) with
  | error e => exact ⟨e, run_of_task_error (task_of_config_error hfile) color⟩
  | ok config =>
    rw [hfile] at hload
    cases hload

theorem samePrinted_of_sameInForce {stated stated' : Stated}
    (hstated : Stated.ofFile? (look a.configPath) = some stated)
    (hstated' : Stated.ofFile? (look' b.configPath) = some stated')
    (h : a.command.SameInForce look look' stated stated' b.command)
    (hcolor : (color && stated.color.getD true) = (color' && stated'.color.getD true)) :
    Outcome.SamePrinted (a.run (m := Id) look color) (b.run (m := Id) look' color') :=
  samePrinted_of_task_eq (ofFile_of_stated _ hstated) (ofFile_of_stated _ hstated') h.task_eq hcolor

end Invocation

/-- Runs print the same with the same exit status if the same schema, email check and format are in
force and colours are used alike. So a setting may move between a flag and the settings file, and a
flag covers what the file states; entries of other names may come into the file; and asking for more
events changes nothing at all. -/
theorem run_by_settings_in_force {arguments arguments' : List String} {a b : Invocation}
    (ha : Invocation.ofArguments arguments = .ok a)
    (hb : Invocation.ofArguments arguments' = .ok b) (look look' : String → FileState)
    (color : Bool) :
    let first : Outcome := run (m := Id) look color arguments
    let second (color' : Bool) : Outcome := run (m := Id) look' color' arguments'
    (∀ stated stated' color', Stated.ofFile? (look a.configPath) = some stated →
      Stated.ofFile? (look' b.configPath) = some stated' →
      a.command.SameInForce look look' stated stated' b.command →
      (color && stated.color.getD true) = (color' && stated'.color.getD true) →
      first.SamePrinted (second color')) ∧
    (∀ stated stated', Stated.ofFile? (look a.configPath) = some stated →
      Stated.ofFile? (look' b.configPath) = some stated' →
      a.command.bare = b.command.bare →
      stated.withFlags a.command = stated'.withFlags b.command →
      (∀ path ∈ a.command.reads stated, look path = look' path) →
      first.SamePrinted (second color)) ∧
    (a.command = b.command →
      (Config.document? (look a.configPath)).map Config.knownPart =
        (Config.document? (look' b.configPath)).map Config.knownPart →
      (∀ stated, Stated.ofFile? (look a.configPath) = some stated →
        ∀ path ∈ a.command.reads stated, look path = look' path) →
      first.SamePrinted (second color)) ∧
    (look = look' → b = { a with verbose := b.verbose } → second color = first) := by
  intro first second
  have hfirst : first = a.run (m := Id) look color := run_of_arguments ha look color
  have hsecond (color' : Bool) : second color' = b.run (m := Id) look' color' :=
    run_of_arguments hb look' color'
  simp only [hfirst, hsecond]
  refine ⟨?_, ?_, ?_, ?_⟩
  · intro stated stated' color' hstated hstated' hsame hcolor
    exact Invocation.samePrinted_of_sameInForce hstated hstated' hsame hcolor
  · intro stated stated' hstated hstated' hbare hflags hlook
    have hcolor : stated.color = stated'.color := by
      rw [← Stated.color_withFlags stated a.command, hflags, Stated.color_withFlags]
    exact Invocation.samePrinted_of_sameInForce hstated hstated'
      (Command.sameInForce_of_bare_eq hbare hflags hlook) (by rw [hcolor])
  · intro hcommand hknown hlook
    have hsame := Stated.ofFile?_congr hknown
    cases hstated : Stated.ofFile? (look a.configPath) with
    | none =>
      obtain ⟨e, he⟩ := Invocation.run_of_stated_none color hstated
      obtain ⟨e', he'⟩ := Invocation.run_of_stated_none color (hsame ▸ hstated)
      rw [he, he']
      exact ⟨rfl, rfl⟩
    | some stated =>
      have hforce : a.command.SameInForce look look' stated stated b.command := by
        refine Command.sameInForce_of_bare_eq ?_ ?_ (hlook stated hstated)
        · rw [hcommand]
        · rw [hcommand]
      exact Invocation.samePrinted_of_sameInForce hstated (hsame ▸ hstated) hforce rfl
  · rintro rfl hverbose
    rw [hverbose]
    rfl

/-- Three settings files; the last holds no setting. -/
def threeSettings (path : String) : FileState :=
  if path = "simple.toml" then .text "[validation]\nemail_pattern = \"simple\"\n"
  else if path = "html.toml" then .text "[validation]\nemail_pattern = \"html\"\n"
  else if path = "other.toml" then .text "extra = 1\n[notes]\nemail_pattern = \"simple\"\n"
  else .missing

/-- Whether a document is an empty table. -/
def isEmptyTable : Toml.Node → Bool
  | .table .header [] => true
  | _ => false

theorem eq_of_isEmptyTable {node : Toml.Node} (h : isEmptyTable node = true) :
    node = .table .header [] := by
  unfold isEmptyTable at h
  split at h
  · rfl
  · cases h

/-- An address that only one of the email checks accepts, with that check in force by a flag over
another one in the file, by the file, and by default. -/
theorem run_by_settings_in_force_threeSettings :
    let value := ["rule", "email", "--value=a@b"]
    let byFlag := "--config=simple.toml" :: value ++ ["--email-pattern=html"]
    let byFile := "--config=html.toml" :: value
    let outcome (arguments : List String) : Outcome := run (m := Id) threeSettings false arguments
    (outcome byFlag).output = "✓ Value passes email\n" ∧
    (outcome byFlag).SamePrinted (outcome byFile) ∧
    (outcome value).SamePrinted (outcome ("--config=other.toml" :: value)) ∧
    outcome ("-v" :: value) = outcome value := by
  intro value byFlag byFile outcome
  let flagged : Command := .rule "email" "Value" (some "a@b") (some .html)
  let plain : Command := .rule "email" "Value" (some "a@b") none
  have hflag : Invocation.ofArguments byFlag =
      .ok { command := flagged, configPath := "simple.toml" } := by decide +kernel
  have hfile : Invocation.ofArguments byFile =
      .ok { command := plain, configPath := "html.toml" } := by decide +kernel
  have hvalue : Invocation.ofArguments value = .ok { command := plain } := by decide +kernel
  have hother : Invocation.ofArguments ("--config=other.toml" :: value) =
      .ok { command := plain, configPath := "other.toml" } := by decide +kernel
  have hverbose : Invocation.ofArguments ("-v" :: value) =
      .ok { command := plain, verbose := true } := by decide +kernel
  have hsimple : Stated.ofFile? (threeSettings "simple.toml") =
      some { emailPattern := some .simple } := by decide +kernel
  have hhtml : Stated.ofFile? (threeSettings "html.toml") =
      some { emailPattern := some .html } := by decide +kernel
  have hunknown : (Config.document? (threeSettings "other.toml")).map Config.knownPart =
      some (.table .header []) := by
    have hempty : ((Config.document? (threeSettings "other.toml")).map Config.knownPart).any
        isEmptyTable = true := by decide +kernel
    obtain ⟨node, hnode, htable⟩ := (Option.any_eq_true _ _).mp hempty
    exact hnode.trans (congrArg some (eq_of_isEmptyTable htable))
  have hnothing : (Config.document? (threeSettings Config.defaultPath)).map Config.knownPart =
      some (.table .header []) := by
    have hmissing : threeSettings Config.defaultPath = .missing := by decide +kernel
    rw [hmissing]
    rfl
  obtain ⟨hforce, hmoved, -⟩ :=
    run_by_settings_in_force hflag hfile threeSettings threeSettings false
  obtain ⟨-, -, hadded, -⟩ :=
    run_by_settings_in_force hvalue hother threeSettings threeSettings false
  obtain ⟨-, -, -, hmore⟩ :=
    run_by_settings_in_force hvalue hverbose threeSettings threeSettings false
  have hsame := hforce _ _ false hsimple hhtml (.rule rfl) rfl
  have hsame' := hmoved _ _ hsimple hhtml rfl rfl (by simp [Command.reads, flagged])
  refine ⟨by decide +kernel, hsame, ?_, hmore rfl rfl⟩
  exact hadded rfl (hnothing.trans hunknown.symm) (by simp [Command.reads, plain])

end FormCheck
