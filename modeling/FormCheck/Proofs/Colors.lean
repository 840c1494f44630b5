import FormCheck.Proofs.ErrorDocuments
import FormCheck.Proofs.HelpPages
import FormCheck.Proofs.Runs
import FormCheck.Proofs.RuleStrings
import FormCheck.Proofs.TokenAccounts

/-!
# Colours

What a run prints with colours is what it prints without, but for escape codes, unless a text that
it shows holds the escape character. Nothing else of a run depends on colours, and settings that
refuse them leave nothing to take out. What the program adds to the texts that it shows has no
escape character in it, and a report in JSON never has one.
-/
namespace FormCheck

open Text

/-! ## What the program adds -/

@[simp] theorem Rule.escapeFree_token (rule : Rule) : EscapeFree rule.token :=
  rule.notMem_token (by decide)

theorem Rule.escapeFree_message {label : String} (h : EscapeFree label) (rule : Rule) :
    EscapeFree (rule.message label) := by
  cases rule with
  | required => simp +decide [message, h]
  | email => simp +decide [message, h]
  | min n => simp +decide [message, h]

/-- A rule string has bars between the tokens. -/
theorem RuleSet.text_eq_intercalate (set : RuleSet) :
    set.text = "|".intercalate (set.rules.map Rule.token) := by
  rw [← String.toList_inj, toList_intercalate_bar, text, String.toList_ofList, List.map_map]
  rfl

@[simp] theorem RuleSet.escapeFree_text (set : RuleSet) : EscapeFree set.text := by
  rw [text_eq_intercalate]
  refine escapeFree_intercalate (by decide) fun token htoken => ?_
  obtain ⟨rule, -, rfl⟩ := List.mem_map.mp htoken
  exact rule.escapeFree_token

@[simp] theorem FieldKind.escapeFree_name (kind : FieldKind) : EscapeFree kind.name := by
  cases kind <;> decide

/-- The texts of a choice. -/
def SelectOption.shown (option : SelectOption) : List String := [option.value, option.label]

/-- The texts of a field. -/
def FieldDescriptor.shown (field : FieldDescriptor) : List String :=
  field.name :: field.label :: field.options.flatMap SelectOption.shown

namespace Report

/-- The texts of a verdict. -/
def Verdict.shown (verdict : Verdict) : List String := verdict.name :: verdict.error.toList

theorem Verdict.escapeFree_line {verdict : Verdict}
    (h : ∀ text ∈ verdict.shown, EscapeFree text) : verdict.line.EscapeFree := by
  have hname := h verdict.name List.mem_cons_self
  rw [line, Line.EscapeFree]
  cases herror : verdict.error with
  | none => simp +decide [hname]
  | some message =>
    have hmessage := h message (by simp [shown, herror])
    simp +decide [hname, hmessage]

theorem escapeFree_summary (errors : ErrorMap) : (summary errors).EscapeFree := by
  rw [summary, Line.EscapeFree]
  split_ifs <;> simp +decide

theorem escapeFree_recordLines {validator : Validator} {errors : ErrorMap}
    (h : ∀ verdict ∈ verdicts validator errors, ∀ text ∈ verdict.shown, EscapeFree text) :
    ∀ line ∈ recordLines validator errors, line.EscapeFree := by
  intro line hline
  rcases List.mem_append.mp hline with hline | hline
  · obtain ⟨verdict, hverdict, rfl⟩ := List.mem_map.mp hline
    exact Verdict.escapeFree_line (h verdict hverdict)
  · rcases List.mem_pair.mp hline with rfl | rfl
    · exact List.forall_mem_nil _
    · exact escapeFree_summary errors

theorem escapeFree_optionList {options : List SelectOption}
    (h : ∀ text ∈ options.flatMap SelectOption.shown, EscapeFree text) :
    EscapeFree (optionList options) := by
  refine escapeFree_intercalate (by decide) fun text htext => ?_
  obtain ⟨option, hoption, rfl⟩ := List.mem_map.mp htext
  have hshown : ∀ text ∈ option.shown, EscapeFree text := fun text htext =>
    h text (List.mem_flatMap.mpr ⟨option, hoption, htext⟩)
  have hvalue := hshown option.value (by simp [SelectOption.shown])
  have hlabel := hshown option.label (by simp [SelectOption.shown])
  simp +decide [hvalue, hlabel]

theorem escapeFree_fieldLines {field : FieldDescriptor}
    (h : ∀ text ∈ field.shown, EscapeFree text) (rules : RuleSet) :
    ∀ line ∈ fieldLines field rules, line.EscapeFree := by
  rw [FieldDescriptor.shown, List.forall_mem_cons, List.forall_mem_cons] at h
  obtain ⟨hname, hlabel, hshown⟩ := h
  have hoptions := escapeFree_optionList hshown
  intro line hline
  rcases List.mem_append.mp hline with hline | hline
  · rcases List.mem_pair.mp hline with rfl | rfl
    · simp +decide [Line.EscapeFree, hname, hlabel]
    · split_ifs <;> simp +decide [Line.EscapeFree]
  · split_ifs at hline
    · cases hline
    · rw [List.mem_singleton.mp hline]
      simp +decide [Line.EscapeFree, hoptions]

theorem escapeFree_schemaLines {schema : FormSchema}
    (h : ∀ field ∈ schema.fields, ∀ text ∈ field.shown, EscapeFree text) :
    ∀ line ∈ (schemaLines schema).value, line.EscapeFree := by
  rw [value_schemaLines]
  split_ifs
  · simp +decide [Line.EscapeFree]
  · intro line hline
    obtain ⟨field, hfield, hline⟩ := List.mem_flatMap.mp hline
    exact escapeFree_fieldLines (h field hfield) _ line hline

theorem escapeFree_valueLine {label : String} (h : EscapeFree label) (rules : RuleSet)
    (failure : Option Rule) : (valueLine label rules failure).EscapeFree := by
  rw [Line.EscapeFree]
  cases failure with
  | some rule => simp +decide [valueLine, rule.escapeFree_message h]
  | none =>
    rw [valueLine]
    split_ifs <;> simp +decide [h]

end Report

/-! ## Tasks and runs -/

namespace Task

/-- The texts of the schema, the record and the arguments that a task shows as they are. In JSON
none is. -/
def shown : Task → List String
  | check schema record .text pattern =>
    let validator := (Validator.compile schema.fields pattern).value
    (Report.verdicts validator (validator.errors record)).flatMap Report.Verdict.shown
  | check _ _ .json _ => []
  | fields schema => schema.fields.flatMap FieldDescriptor.shown
  | rule _ label _ _ => [label]

/-- The output with colours is the output without, but for escape codes. -/
theorem stripsTo_output {task : Task} (h : ∀ text ∈ task.shown, EscapeFree text) (color : Bool) :
    StripsTo (task.finding color).value.output (task.finding false).value.output := by
  cases task with
  | check schema record format pattern =>
    cases format with
    | text =>
      refine Line.stripsTo_renderAll color (Report.escapeFree_recordLines ?_)
      intro verdict hverdict text htext
      exact h text (List.mem_flatMap.mpr ⟨verdict, hverdict, htext⟩)
    | json =>
      -- A document holds no escape character, whatever the names and messages in it are.
      have hend : EscapeFree "\n" := by decide
      have hprinted := (ErrorMap.wellFormed_toJson
        ((Validator.compile schema.fields pattern).value.errors record)).escapeFree_prettyText
      exact (escapeFree_append.mpr ⟨hprinted, hend⟩).stripsTo
  | fields schema =>
    refine Line.stripsTo_renderAll color (Report.escapeFree_schemaLines ?_)
    intro field hfield text htext
    exact h text (List.mem_flatMap.mpr ⟨field, hfield, htext⟩)
  | rule rules label value pattern =>
    have hlabel := h label List.mem_cons_self
    refine Line.stripsTo_renderAll color fun line hline => ?_
    rw [List.mem_singleton.mp hline]
    exact Report.escapeFree_valueLine hlabel _ _

theorem passed_eq (task : Task) (color color' : Bool) :
    (task.finding color).value.passed = (task.finding color').value.passed := by
  rw [Bool.eq_iff_iff, passed_iff, passed_iff]

theorem events_eq (task : Task) (color color' : Bool) :
    (task.finding color).events = (task.finding color').events := by
  cases task with
  | check schema record format pattern => simp [finding, Command.checkRecord]
  | fields schema => simp [finding, Command.listFields]
  | rule rules label value pattern => simp [finding, Command.checkValue]

/-- The outcome of a task depends on colours in its output alone. -/
theorem outcome_eq (task : Task) (color : Bool) :
    Outcome.ofFinding (task.finding color) =
      { Outcome.ofFinding (task.finding false) with
        output := (task.finding color).value.output } := by
  rw [Outcome.ofFinding, Outcome.ofFinding, task.passed_eq color false, task.events_eq color false]

end Task

/-- The texts that a run shows as they are. -/
def shownBy (look : String → FileState) (arguments : List String) : List String :=
  match Invocation.ofArguments arguments with
  | .error _ => []
  | .ok invocation =>
    match invocation.task look with
    | .error _ => []
    | .ok (_, task) => task.shown

theorem Notice.escapeFree_output (notice : Notice) : EscapeFree notice.outcome.output := by
  cases notice with
  | version => exact escapeFree_ofList (by decide)
  | help topic => exact topic.escapeFree_page
  | misuse => exact escapeFree_ofList List.not_mem_nil

/-- Without the consent of the settings there are no colours. -/
theorem Invocation.run_of_color_refused {look : String → FileState} {invocation : Invocation}
    {config : Config}
    (h : Config.ofFile invocation.configPath (look invocation.configPath) = .ok config)
    (hcolor : config.color = false) (color : Bool) :
    invocation.run (m := Id) look color = invocation.run (m := Id) look false := by
  rw [run_eq, run_eq, task_of_config_ok h]
  cases invocation.command.task look config with
  | error e => rfl
  | ok task => simp [Except.map, hcolor]

/-- What a run prints in colours is what it prints without, but for escape codes, if the escape
character is in no text that it shows. The rest of its outcome is always the same, and so is what it
prints if the settings refuse colours. -/
theorem colors_change_escape_codes_only (look : String → FileState) (color : Bool)
    (arguments : List String) :
    let colored : Outcome := run (m := Id) look color arguments
    let bare : Outcome := run (m := Id) look false arguments
    colored.exit = bare.exit ∧ colored.report = bare.report ∧ colored.events = bare.events ∧
    ((∀ text ∈ shownBy look arguments, EscapeFree text) → strip colored.output = bare.output) ∧
    ∀ invocation config, Invocation.ofArguments arguments = .ok invocation →
      Config.ofFile invocation.configPath (look invocation.configPath) = .ok config →
      config.color = false → colored = bare := by
  intro colored bare
  cases harguments : Invocation.ofArguments arguments with
  | error notice =>
    have hrun (color : Bool) : run (m := Id) look color arguments = notice.outcome := by
      rw [run, harguments]
      rfl
    have hcolored : colored = notice.outcome := hrun color
    have hbare : bare = notice.outcome := hrun false
    have hstrip := notice.escapeFree_output.stripsTo.strip_eq
    simp [hcolored, hbare, hstrip]
  | ok invocation =>
    have hcolored : colored = invocation.run (m := Id) look color := run_of_arguments harguments ..
    have hbare : bare = invocation.run (m := Id) look false := run_of_arguments harguments ..
    cases htask : invocation.task look with
    | error e =>
      rw [Invocation.run_of_task_error htask] at hcolored hbare
      rw [hcolored, hbare]
      exact ⟨rfl, rfl, rfl, fun _ => rfl, fun _ _ _ _ _ => rfl⟩
    | ok loaded =>
      -- Loading knows nothing of colours, so it is one task that is carried out twice.
      obtain ⟨config, task⟩ := loaded
      have hshown : shownBy look arguments = task.shown := by simp [shownBy, harguments, htask]
      have hrefused : ∀ settings,
          Config.ofFile invocation.configPath (look invocation.configPath) = .ok settings →
          settings.color = false → colored = bare := by
        intro settings hconfig hcolor
        rw [hcolored, hbare, Invocation.run_of_color_refused hconfig hcolor]
      rw [Invocation.run_of_task_ok htask, Task.outcome_eq] at hcolored
      rw [Invocation.run_of_task_ok htask, Bool.false_and] at hbare
      refine ⟨by rw [hcolored, hbare], by rw [hcolored, hbare], by rw [hcolored, hbare], ?_, ?_⟩
      · intro hfree
        rw [hshown] at hfree
        rw [hcolored, hbare]
        exact (Task.stripsTo_output hfree _).strip_eq
      · rintro _ settings ⟨⟩ hconfig hcolor
        exact hrefused settings hconfig hcolor

/-- An empty record, and settings that refuse colours. -/
def bareFiles (path : String) : FileState :=
  if path = "record.json" then .text "\x7b\x7d"
  else if path = "bare.toml" then .text "[output]\ncolor = false\n"
  else .missing

theorem colors_change_escape_codes_only_bareFiles :
    let checking := ["check", "--example", "record.json"]
    let refusing := "--config=bare.toml" :: checking
    let outcome (color : Bool) (arguments : List String) : Outcome :=
      run (m := Id) bareFiles color arguments
    (outcome true checking).output =
      "\x1b[31m✗\x1b[0m \x1b[1memail\x1b[0m: \x1b[31mEmail Address is required\x1b[0m\n" ++
      "\x1b[31m✗\x1b[0m \x1b[1mpassword\x1b[0m: \x1b[31mPassword is required\x1b[0m\n" ++
      "\x1b[31m✗\x1b[0m \x1b[1mrole\x1b[0m: \x1b[31mRole is required\x1b[0m\n\n" ++
      "\x1b[1;31m3 field(s) failed validation\x1b[0m\n" ∧
    strip (outcome true checking).output = (outcome false checking).output ∧
    (outcome true checking).exit = (outcome false checking).exit ∧
    outcome true refusing = outcome false refusing := by
  intro checking refusing outcome
  have hfree : ∀ text ∈ shownBy bareFiles checking, EscapeFree text := by decide +kernel
  have hrefusing : Invocation.ofArguments refusing = .ok
      { command := .check .signUp "record.json" none none, configPath := "bare.toml" } := by
    decide +kernel
  have hconfig : Config.ofFile "bare.toml" (bareFiles "bare.toml") = .ok { color := false } := by
    decide +kernel
  obtain ⟨hexit, -, -, hstrip, -⟩ := colors_change_escape_codes_only bareFiles true checking
  obtain ⟨-, -, -, -, hrefused⟩ := colors_change_escape_codes_only bareFiles true refusing
  exact ⟨by decide +kernel, hstrip hfree, hexit, hrefused _ _ hrefusing hconfig rfl⟩

end FormCheck
