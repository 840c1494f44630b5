import FormCheck.Command.Run
import FormCheck.Proofs.FieldMaps
import FormCheck.Proofs.Validation

/-!
# Runs

What a command needs is loaded first: the settings, then its schema, then its record. With all of it
loaded a command is a task, and nothing of a task can fail any more. So a run either ends with the
report of the first load that fails, and has printed nothing, or it prints what comes of its task.
Something is always printed then, and the exit status is that of the verdict.
-/
namespace FormCheck

/-- The file that a schema is loaded from, if there is one. -/
def SchemaSource.path? (config : Config) : SchemaSource → Option String
  | configured => some config.schemaPath
  | file path => some path
  | signUp => none

/-- Loads the schema of a source. -/
def SchemaSource.schema (look : String → FileState) (config : Config) (source : SchemaSource) :
    Except LoadError FormSchema :=
  match source.path? config with
  | some path => FormSchema.ofFile path (look path)
  | none => .ok .signUp

/-- A command with all that it needs. -/
inductive Task where
  | check (schema : FormSchema) (record : Record) (format : OutputFormat) (pattern : EmailPattern)
  | fields (schema : FormSchema)
  | rule (rules : String) (label : String) (value : Option String) (pattern : EmailPattern)
deriving DecidableEq

namespace Task

/-- What comes of a task. -/
def finding (color : Bool) : Task → Traced Finding
  | check schema record format pattern => Command.checkRecord schema record pattern format color
  | fields schema => Command.listFields schema color
  | rule rules label value pattern => Command.checkValue rules label value pattern color

/-- Some field of the record, or the value, is rejected. -/
def Rejects : Task → Prop
  | check schema record _ pattern =>
    ∃ name message, (Validator.compile schema.fields pattern).value.validateField name
      (record.get? name) = some message
  | fields _ => False
  | rule rules _ value pattern =>
    ∃ rule ∈ (RuleSet.parse rules).value.rules, rule.accepts pattern (value.map .string) = false

end Task

/-- Loads what a command needs under given settings. -/
def Command.task (look : String → FileState) (config : Config) : Command → Except LoadError Task
  | .check source path format pattern => do
    let schema ← source.schema look config
    let record ← Record.ofFile path (look path)
    return .check schema record (format.getD config.format) (pattern.getD config.emailPattern)
  | .fields source => return .fields (← source.schema look config)
  | .rule rules label value pattern =>
    return .rule rules label value (pattern.getD config.emailPattern)

/-- Loads the settings and what the command needs under them. -/
def Invocation.task (look : String → FileState) (invocation : Invocation) :
    Except LoadError (Config × Task) := do
  let config ← Config.ofFile invocation.configPath (look invocation.configPath)
  return (config, ← invocation.command.task look config)

namespace Command

theorem load_eq {α : Type} (look : String → FileState)
    (read : String → FileState → Except LoadError α) (path : String) :
    load (m := Id) look read path = ExceptT.mk (m := Id) (read path (look path)) := rfl

theorem loadSchema_eq (look : String → FileState) (config : Config) (source : SchemaSource) :
    loadSchema (m := Id) look config source = ExceptT.mk (m := Id) (source.schema look config) := by
  cases source with
  | configured => rfl
  | file path => rfl
  | signUp => rfl

/-- A command loads its task and carries it out. -/
theorem perform_eq (look : String → FileState) (color : Bool) (config : Config)
    (command : Command) :
    perform (m := Id) look color config command =
      ExceptT.mk (m := Id) ((command.task look config).map (Task.finding color)) := by
  cases command with
  | check source path format pattern =>
    rw [perform, loadSchema_eq, load_eq, task]
    cases source.schema look config with
    | error e => rfl
    | ok schema =>
      cases Record.ofFile path (look path) with
      | error e => rfl
      | ok record => rfl
  | fields source =>
    rw [perform, loadSchema_eq, task]
    cases source.schema look config with
    | error e => rfl
    | ok schema => rfl
  | rule rules label value pattern => rfl

end Command

namespace Invocation

variable {look : String → FileState} {invocation : Invocation}

theorem task_of_config_error {e : LoadError}
    (h : Config.ofFile invocation.configPath (look invocation.configPath) = .error e) :
    invocation.task look = .error e := by
  rw [task, h]
  rfl

theorem task_of_config_ok {config : Config}
    (h : Config.ofFile invocation.configPath (look invocation.configPath) = .ok config) :
    invocation.task look =
      (invocation.command.task look config).map fun task => (config, task) := by
  rw [task, h]
  change (do return (config, ← invocation.command.task look config)) = _
  cases invocation.command.task look config with
  | error e => rfl
  | ok task => rfl

/-- A run is what comes of its task, unless that cannot be loaded. -/
theorem run_eq (look : String → FileState) (color : Bool) (invocation : Invocation) :
    invocation.run (m := Id) look color =
      match invocation.task look with
      | .ok (config, task) => .ofFinding (task.finding (color && config.color))
      | .error e => .ofError e := by
  rw [run, Command.load_eq]
  cases hconfig : Config.ofFile invocation.configPath (look invocation.configPath) with
  | error e =>
    rw [task_of_config_error hconfig]
    rfl
  | ok config =>
    rw [task_of_config_ok hconfig]
    -- With the settings at hand the run is a match on what the command performs.
    change (match Command.perform (m := Id) look (color && config.color) config
        invocation.command with
      | .ok finding => Outcome.ofFinding finding
      | .error e => .ofError e) = _
    rw [Command.perform_eq]
    cases invocation.command.task look config with
    | error e => rfl
    | ok task => rfl

theorem run_of_task_ok {config : Config} {task : Task}
    (h : invocation.task look = .ok (config, task)) (color : Bool) :
    invocation.run (m := Id) look color =
      .ofFinding (task.finding (color && config.color)) := by
  rw [run_eq, h]

theorem run_of_task_error {e : LoadError} (h : invocation.task look = .error e) (color : Bool) :
    invocation.run (m := Id) look color = .ofError e := by
  rw [run_eq, h]

end Invocation

/-- The error of a load, if it fails. -/
def errorsOf {α : Type} : Except LoadError α → List LoadError
  | .ok _ => []
  | .error e => [e]

/-- The errors of the loads that a command asks for under given settings, in their order. -/
def Command.loadErrors (look : String → FileState) (config : Config) : Command → List LoadError
  | .check source path _ _ =>
    errorsOf (source.schema look config) ++ errorsOf (Record.ofFile path (look path))
  | .fields source => errorsOf (source.schema look config)
  | .rule .. => []

/-- The errors of the loads that an invocation asks for, in their order. Without settings it is not
known what else to load. -/
def Invocation.loadErrors (look : String → FileState) (invocation : Invocation) : List LoadError :=
  match Config.ofFile invocation.configPath (look invocation.configPath) with
  | .ok config => invocation.command.loadErrors look config
  | .error e => [e]

/-- Either some load fails and the first error is all that is left, or none does. -/
theorem Command.task_cases (look : String → FileState) (config : Config) (command : Command) :
    (∃ e rest, command.loadErrors look config = e :: rest ∧ command.task look config = .error e) ∨
    command.loadErrors look config = [] ∧ ∃ task, command.task look config = .ok task := by
  cases command with
  | check source path format pattern =>
    rw [loadErrors, task]
    cases source.schema look config with
    | error e => exact .inl ⟨e, _, rfl, rfl⟩
    | ok schema =>
      cases Record.ofFile path (look path) with
      | error e => exact .inl ⟨e, [], rfl, rfl⟩
      | ok record => exact .inr ⟨rfl, _, rfl⟩
  | fields source =>
    rw [loadErrors, task]
    cases source.schema look config with
    | error e => exact .inl ⟨e, [], rfl, rfl⟩
    | ok schema => exact .inr ⟨rfl, _, rfl⟩
  | rule rules label value pattern => exact .inr ⟨rfl, _, rfl⟩

theorem Invocation.task_cases (look : String → FileState) (invocation : Invocation) :
    (∃ e rest, invocation.loadErrors look = e :: rest ∧ invocation.task look = .error e) ∨
    invocation.loadErrors look = [] ∧ ∃ config task, invocation.task look = .ok (config, task) := by
  rw [loadErrors]
  cases hconfig : Config.ofFile invocation.configPath (look invocation.configPath) with
  | error e => exact .inl ⟨e, [], rfl, task_of_config_error hconfig⟩
  | ok config =>
    rw [task_of_config_ok hconfig]
    rcases invocation.command.task_cases look config with
      ⟨e, rest, herrors, htask⟩ | ⟨herrors, task, htask⟩
    · rw [htask]
      exact .inl ⟨e, rest, herrors, rfl⟩
    · rw [htask]
      exact .inr ⟨herrors, config, task, rfl⟩

/-- An error map is valid if no name has an error in it. -/
theorem ErrorMap.isValid_iff (errors : ErrorMap) :
    errors.isValid = true ↔ ∀ name message, errors.get? name ≠ some message := by
  rw [isValid, FieldMap.isEmpty, List.isEmpty_iff, List.eq_nil_iff_forall_not_mem]
  constructor
  · intro h name message hget
    exact h _ ((errors.get?_eq_some_iff).mp hget)
  · rintro h ⟨name, message⟩ hmem
    exact h name message ((errors.get?_eq_some_iff).mpr hmem)

/-- Lines are written as some text, as each has its line end. -/
theorem Line.renderAll_ne_empty (color : Bool) {lines : List Line} (h : lines ≠ []) :
    Line.renderAll color lines ≠ "" := by
  obtain ⟨line, rest, rfl⟩ := List.exists_cons_of_ne_nil h
  simp [renderAll]

/-- The lines of the fields one after the other, or a line that says that there are none. -/
theorem Report.value_schemaLines (schema : FormSchema) :
    (schemaLines schema).value =
      if schema.fields = [] then [[Style.yellow.span "Schema has no fields"]]
      else schema.fields.flatMap fun field => fieldLines field field.rules.value := by
  rw [schemaLines]
  by_cases h : schema.fields = []
  · simp [h]
  · simp [h, Traced.value_mapM, List.flatMap]

theorem Report.schemaLines_ne_nil (schema : FormSchema) : (schemaLines schema).value ≠ [] := by
  rw [value_schemaLines]
  split_ifs with h
  · exact List.cons_ne_nil _ _
  · obtain ⟨field, rest, hfields⟩ := List.exists_cons_of_ne_nil h
    simp [hfields, fieldLines]

namespace Command

@[simp] theorem value_checkRecord (schema : FormSchema) (record : Record) (pattern : EmailPattern)
    (format : OutputFormat) (color : Bool) :
    (checkRecord schema record pattern format color).value =
      let validator := (Validator.compile schema.fields pattern).value
      let errors := validator.errors record
      ⟨errors.isValid, Report.ofRecord format color validator errors⟩ := rfl

@[simp] theorem value_listFields (schema : FormSchema) (color : Bool) :
    (listFields schema color).value =
      ⟨true, Line.renderAll color (Report.schemaLines schema).value⟩ := rfl

@[simp] theorem value_checkValue (rules label : String) (value : Option String)
    (pattern : EmailPattern) (color : Bool) :
    (checkValue rules label value pattern color).value =
      let set := (RuleSet.parse rules).value
      let failure := set.firstFailure pattern (value.map .string)
      ⟨failure.isNone, Line.renderAll color [Report.valueLine label set failure]⟩ := rfl

end Command

namespace Task

/-- A task passes unless something is rejected. -/
theorem passed_iff (task : Task) (color : Bool) :
    (task.finding color).value.passed = true ↔ ¬task.Rejects := by
  cases task with
  | check schema record format pattern =>
    have hnodup := Validator.nodup_names_compile schema.fields pattern
    rw [finding, Command.value_checkRecord, ErrorMap.isValid_iff, Rejects]
    simp only [Validator.get?_errors hnodup, not_exists, ne_eq]
  | fields schema => simp [finding, Rejects]
  | rule rules label value pattern => simp [finding, Rejects, RuleSet.firstFailure]

/-- Whatever comes of a task, something is printed. -/
theorem output_ne_empty (task : Task) (color : Bool) : (task.finding color).value.output ≠ "" := by
  cases task with
  | check schema record format pattern =>
    cases format with
    | text => exact Line.renderAll_ne_empty color (by simp [Report.recordLines])
    | json => simp [finding, Report.ofRecord]
  | fields schema => exact Line.renderAll_ne_empty color (Report.schemaLines_ne_nil schema)
  | rule rules label value pattern => exact Line.renderAll_ne_empty color (List.cons_ne_nil _ _)

end Task

theorem run_of_arguments {arguments : List String} {invocation : Invocation}
    (h : Invocation.ofArguments arguments = .ok invocation) (look : String → FileState)
    (color : Bool) :
    run (m := Id) look color arguments = invocation.run (m := Id) look color := by
  rw [run, h]

/-- Listing fields rejects nothing. -/
theorem Invocation.not_rejects_of_fields {look : String → FileState} {invocation : Invocation}
    {source : SchemaSource} {config : Config} {task : Task}
    (hcommand : invocation.command = .fields source)
    (htask : invocation.task look = .ok (config, task)) : ¬task.Rejects := by
  cases hconfig : Config.ofFile invocation.configPath (look invocation.configPath) with
  | error e =>
    rw [task_of_config_error hconfig] at htask
    cases htask
  | ok settings =>
    rw [task_of_config_ok hconfig, hcommand, Command.task] at htask
    cases hschema : source.schema look settings with
    | error e =>
      rw [hschema] at htask
      cases htask
    | ok schema =>
      rw [hschema] at htask
      cases htask
      exact not_false

/-- A run whose arguments can be read ends with a report if one of its loads fails, and reports the
first that does. It has printed nothing then, and its exit status is 1. Otherwise it prints
something, and its exit status is that of the verdict; listing fields has no other verdict than 0.
So an exit status of 1 without any output means that something could not be loaded, and with some
output that something was rejected. -/
theorem run_reports_first_load_error {arguments : List String} {invocation : Invocation}
    (h : Invocation.ofArguments arguments = .ok invocation) (look : String → FileState)
    (color : Bool) :
    let outcome : Outcome := run (m := Id) look color arguments
    let errors := invocation.loadErrors look
    outcome.report = errors.head?.map LoadError.report ∧
    (outcome.report ≠ none ↔ errors ≠ []) ∧
    (errors ≠ [] → outcome.exit = 1 ∧ outcome.output = "") ∧
    (errors = [] → outcome.output ≠ "" ∧
      ∃ config task, invocation.task look = .ok (config, task) ∧
        (task.Rejects ∧ outcome.exit = 1 ∨ ¬task.Rejects ∧ outcome.exit = 0)) ∧
    (∀ source, invocation.command = .fields source → errors = [] → outcome.exit = 0) ∧
    (outcome.exit = 1 ∧ outcome.output = "" ↔ errors ≠ []) ∧
    (outcome.exit = 1 ∧ outcome.output ≠ "" ↔
      ∃ config task, invocation.task look = .ok (config, task) ∧ task.Rejects) := by
  intro outcome errors
  have hrun : outcome = invocation.run (m := Id) look color := run_of_arguments h look color
  rcases invocation.task_cases look with ⟨e, rest, herrors, htask⟩ | ⟨herrors, config, task, htask⟩
  · have herrors : errors = e :: rest := herrors
    rw [Invocation.run_of_task_error htask] at hrun
    simp [hrun, herrors, htask, Outcome.ofError]
  · have herrors : errors = [] := herrors
    have houtput := task.output_ne_empty (color && config.color)
    have hpassed := task.passed_iff (color && config.color)
    rw [Invocation.run_of_task_ok htask] at hrun
    have hreport : outcome.report = none := by rw [hrun, Outcome.ofFinding]
    have hprinted : outcome.output ≠ "" := by rwa [hrun]
    have hverdict : task.Rejects ∧ outcome.exit = 1 ∨ ¬task.Rejects ∧ outcome.exit = 0 := by
      by_cases hrejects : task.Rejects
      · have hfailed := eq_false_of_ne_true (mt hpassed.mp (not_not_intro hrejects))
        exact .inl ⟨hrejects, by simp [hrun, Outcome.ofFinding, hfailed]⟩
      · exact .inr ⟨hrejects, by simp [hrun, Outcome.ofFinding, hpassed.mpr hrejects]⟩
    have hexit : outcome.exit = 1 ↔ task.Rejects := by
      rcases hverdict with ⟨hrejects, h⟩ | ⟨hrejects, h⟩
      · simp [h, hrejects]
      · simp [h, hrejects]
    refine ⟨by rw [hreport, herrors]; rfl, by simp [hreport, herrors], by simp [herrors],
      fun _ => ⟨hprinted, config, task, htask, hverdict⟩, ?_, by simp [herrors, hprinted], ?_⟩
    · intro source hcommand _
      have hpasses := Invocation.not_rejects_of_fields hcommand htask
      exact (hverdict.resolve_left fun h => hpasses h.1).2
    · rw [hexit, htask]
      constructor
      · rintro ⟨hrejects, -⟩
        exact ⟨config, task, rfl, hrejects⟩
      · rintro ⟨_, _, heq, hrejects⟩
        cases heq
        exact ⟨hrejects, hprinted⟩

/-- A schema file that is no document, and a directory in the place of a record. -/
def brokenFiles (path : String) : FileState :=
  if path = "form.json" then .text "["
  else if path = "record.json" then .directory
  else .missing

theorem run_reports_first_load_error_brokenFiles :
    let arguments := ["check", "--schema=form.json", "record.json"]
    let invocation : Invocation :=
      { command := .check (.file "form.json") "record.json" none none }
    let outcome : Outcome := run (m := Id) brokenFiles false arguments
    let listing : Invocation := { command := .fields .signUp }
    (Invocation.ofArguments arguments = .ok invocation ∧
      (invocation.loadErrors brokenFiles).map LoadError.report =
        ["Invalid schema file: \"form.json\"", "Failed to read record file: \"record.json\""] ∧
      outcome.report = some "Invalid schema file: \"form.json\"" ∧
      outcome.exit = 1 ∧ outcome.output = "") ∧
    Invocation.ofArguments ["fields", "--example"] = .ok listing ∧
      listing.loadErrors brokenFiles = [] ∧
      (run (m := Id) brokenFiles false ["fields", "--example"] : Outcome).exit = 0 := by
  intro arguments invocation outcome listing
  have hcheck : Invocation.ofArguments arguments = .ok invocation := by decide +kernel
  have herrors : (invocation.loadErrors brokenFiles).map LoadError.report =
      ["Invalid schema file: \"form.json\"", "Failed to read record file: \"record.json\""] := by
    decide +kernel
  obtain ⟨hreport, -, hfailed, -⟩ := run_reports_first_load_error hcheck brokenFiles false
  have hfields : Invocation.ofArguments ["fields", "--example"] = .ok listing := by decide +kernel
  have hnone : listing.loadErrors brokenFiles = [] := by decide +kernel
  obtain ⟨-, -, -, -, hlisted, -⟩ := run_reports_first_load_error hfields brokenFiles false
  have hne : invocation.loadErrors brokenFiles ≠ [] := by
    intro h
    rw [h] at herrors
    cases herrors
  refine ⟨⟨hcheck, herrors, ?_, hfailed hne⟩, hfields, hnone, hlisted _ rfl hnone⟩
  rw [hreport, ← List.head?_map, herrors]
  rfl

end FormCheck
