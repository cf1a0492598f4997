import PrintFormat.Proofs.Program.Shared

/-!
Settings over the life of a program. A cell that is read for the first time takes
the value that the environment gives its setting at that moment, and every later
reading answers this value (`Setting.Lawful.need_eq`). So the cells of a program
are told by the environments in which its settings were first needed: one action
adds the environment of this moment for what it needs and was not needed before
(`act_settings`), and a run does so action by action (`perform_settings`). What
an action answers and puts out depends on the values of the settings that it
needs and on no other part of the environment (`act_effect`).
-/
namespace PrintFormat

/-! ## One setting -/

namespace Setting

variable {α : Type} {s : Setting α}

/-- The value that a setting has in an environment. -/
def valueIn (s : Setting α) (env : Environment) : α :=
  ((env.text? s.variableName).map s.parse).getD s.default

/-- A setting whose cells tell its values and are neither of the two marks. -/
structure Lawful (s : Setting α) : Prop where
  decode_code : ∀ a, s.decode (s.code a) = a
  code_lt : ∀ a, (s.code a).toNat < 254

theorem lawful_rounding : rounding.Lawful := by
  constructor <;> intro a <;> cases a <;> decide

theorem lawful_intWidth : intWidth.Lawful := by
  constructor <;> intro a <;> cases a <;> decide

theorem lawful_logLevel : logLevel.Lawful := by
  constructor <;> intro a <;> cases a <;> decide

/-- The cell of a setting, by the environment in which it was first needed. -/
def cellFor (s : Setting α) : Option Environment → UInt8
  | none => unread
  | some env => s.code (s.valueIn env) + 1

/-- The code of a value, one more and one less. -/
theorem Lawful.code_succ (h : s.Lawful) (a : α) :
    s.code a + 1 ≠ unread ∧ s.code a + 1 ≠ pending ∧ s.code a + 1 - 1 = s.code a := by
  have hcode := h.code_lt a
  simp only [unread, pending, ne_eq, ← UInt8.toNat_inj, UInt8.toNat_sub, UInt8.toNat_add,
    UInt8.reduceToNat]
  omega

theorem Lawful.cellFor_some_ne (h : s.Lawful) (env : Environment) :
    s.cellFor (some env) ≠ unread ∧ s.cellFor (some env) ≠ pending :=
  ⟨(h.code_succ _).1, (h.code_succ _).2.1⟩

/-- A setting that is needed has the value of the environment in which it was
first needed, which is the one of now if it was not needed before. -/
theorem Lawful.need_eq (h : s.Lawful) (env : Environment) (known : Option Environment) :
    s.need env (s.cellFor known) =
      (s.valueIn (known.getD env), s.cellFor (some (known.getD env))) := by
  cases known with
  | none =>
    show (s.decode (s.code (s.valueIn env)), s.code (s.valueIn env) + 1) = _
    rw [h.decode_code]
    rfl
  | some first =>
    obtain ⟨hunread, hpending, hback⟩ := h.code_succ (s.valueIn first)
    show s.need env (s.code (s.valueIn first) + 1) = _
    rw [need, if_neg hunread, if_neg hpending, hback, h.decode_code]
    rfl

/-- The settings of a program. -/
inductive Name
  | rounding | intWidth | logLevel
  deriving DecidableEq

end Setting

/-! ## The cells -/

/-- The environment in which each setting was first needed, if it was. -/
abbrev Origins := Setting.Name → Option Environment

/-- What is known once some settings are needed. -/
def Origins.after (known : Origins) (names : List Setting.Name) (env : Environment) : Origins :=
  fun name => if name ∈ names then some ((known name).getD env) else known name

theorem Origins.after_nil (known : Origins) (env : Environment) : known.after [] env = known := by
  funext name
  simp [Origins.after]

namespace Settings

/-- The cell of each setting. -/
def cell (s : Settings) : Setting.Name → UInt8
  | .rounding => s.rounding
  | .intWidth => s.intWidth
  | .logLevel => s.logLevel

/-- The cells of settings, by the environments in which they were first needed. -/
def ofOrigins (known : Origins) : Settings where
  rounding := Setting.rounding.cellFor (known .rounding)
  intWidth := Setting.intWidth.cellFor (known .intWidth)
  logLevel := Setting.logLevel.cellFor (known .logLevel)

/-- A cell is the mark of what is unread, or it holds the value of the environment
in which its setting was first needed and is neither mark. -/
theorem cell_ofOrigins (known : Origins) (name : Setting.Name) :
    (known name = none → (ofOrigins known).cell name = Setting.unread) ∧
      (known name ≠ none → (ofOrigins known).cell name ≠ Setting.unread) ∧
      (ofOrigins known).cell name ≠ Setting.pending := by
  have key {α : Type} {s : Setting α} (h : s.Lawful) (origin : Option Environment) :
      (origin = none → s.cellFor origin = Setting.unread) ∧
        (origin ≠ none → s.cellFor origin ≠ Setting.unread) ∧
        s.cellFor origin ≠ Setting.pending := by
    cases origin with
    | none => exact ⟨fun _ => rfl, fun hne => absurd rfl hne, by simp only [Setting.cellFor]; decide⟩
    | some env => exact ⟨nofun, fun _ => (h.cellFor_some_ne env).1, (h.cellFor_some_ne env).2⟩
  cases name with
  | rounding => exact key Setting.lawful_rounding _
  | intWidth => exact key Setting.lawful_intWidth _
  | logLevel => exact key Setting.lawful_logLevel _

/-- The values of all settings. -/
structure Values where
  rounding : Rounding
  intWidth : IntWidth
  logLevel : LogLevel

/-- The values of settings, each in an environment of its own. -/
def valuesIn (origin : Setting.Name → Environment) : Values where
  rounding := Setting.rounding.valueIn (origin .rounding)
  intWidth := Setting.intWidth.valueIn (origin .intWidth)
  logLevel := Setting.logLevel.valueIn (origin .logLevel)

/-- The options that calls without options have. -/
def Values.options (v : Values) : Options where
  rounding := v.rounding
  intWidth := v.intWidth

end Settings

/-! ## One action -/

namespace Program

/-- The settings that a call needs for its options: none, if it brings options. -/
def neededFor : Option Options → List Setting.Name
  | some _ => []
  | none => [.rounding, .intWidth]

/-- The settings that are needed to log: none, if the level is not shown. -/
def neededToLog (logger : Logger) (level : LogLevel) : List Setting.Name :=
  if logger.enabled level then [.rounding, .intWidth] else []

/-- The settings that an action needs. -/
def Action.needs : Action → List Setting.Name
  | .setVariable _ _ | .unsetVariable _ => []
  | .readRounding => [.rounding]
  | .readIntWidth => [.intWidth]
  | .readLogLevel => [.logLevel]
  | .readOptions => [.rounding, .intWidth]
  | .printOn _ options _ _ _ | .printOut _ options _ _ => neededFor options
  | .logTo logger _ level _ | .log logger level _ => neededToLog logger level

/-- What an action answers, and what it adds to the standard outputs. -/
structure Effect where
  reply : Reply
  output : Bytes := []
  errors : Bytes := []

/-- What an action comes to under given values of the settings. -/
def Action.effect (v : Settings.Values) (shared : Context) : Action → Effect
  | .setVariable _ _ | .unsetVariable _ => { reply := .done }
  | .readRounding => { reply := .rounding v.rounding }
  | .readIntWidth => { reply := .intWidth v.intWidth }
  | .readLogLevel => { reply := .logLevel v.logLevel }
  | .readOptions => { reply := .options v.options }
  | .printOn isShared options sink format args =>
      let context := if isShared then shared else {}
      { reply := .rendered (context.print sink format args (options.getD v.options)) }
  | .printOut isShared options format args =>
      let context := if isShared then shared else {}
      let r := context.print (.toWriter {}) format args (options.getD v.options)
      { reply := .count r.outcome, output := r.sink.contents }
  | .logTo logger w level m =>
      let (outcome, sink) := logger.logTo v.options w level m
      { reply := .logged outcome sink }
  | .log logger level m =>
      let (outcome, sink) := logger.logTo v.options {} level m
      { reply := .count outcome
        output := if level = .error then [] else sink.contents
        errors := if level = .error then sink.contents else [] }

/-- What an action did to a program. -/
structure Did (e : Effect) (known : Origins) (p : Program) (after : Reply × Program) : Prop where
  reply : after.1 = e.reply
  output : after.2.output = p.output ++ e.output
  errors : after.2.errors = p.errors ++ e.errors
  settings : after.2.settings = .ofOrigins known

variable {known : Origins} {p : Program}

theorem needRounding_eq (h : p.settings = .ofOrigins known) :
    needRounding p = (Setting.rounding.valueIn ((known .rounding).getD p.environment),
      { p with settings := .ofOrigins (known.after [.rounding] p.environment) }) := by
  have hneed := Setting.lawful_rounding.need_eq p.environment (known .rounding)
  unfold needRounding
  rw [h]
  simp only [Settings.ofOrigins, hneed]
  simp [Origins.after]

theorem needIntWidth_eq (h : p.settings = .ofOrigins known) :
    needIntWidth p = (Setting.intWidth.valueIn ((known .intWidth).getD p.environment),
      { p with settings := .ofOrigins (known.after [.intWidth] p.environment) }) := by
  have hneed := Setting.lawful_intWidth.need_eq p.environment (known .intWidth)
  unfold needIntWidth
  rw [h]
  simp only [Settings.ofOrigins, hneed]
  simp [Origins.after]

theorem needLogLevel_eq (h : p.settings = .ofOrigins known) :
    needLogLevel p = (Setting.logLevel.valueIn ((known .logLevel).getD p.environment),
      { p with settings := .ofOrigins (known.after [.logLevel] p.environment) }) := by
  have hneed := Setting.lawful_logLevel.need_eq p.environment (known .logLevel)
  unfold needLogLevel
  rw [h]
  simp only [Settings.ofOrigins, hneed]
  simp [Origins.after]

theorem needOptions_eq (h : p.settings = .ofOrigins known) {origin : Setting.Name → Environment}
    (hr : origin .rounding = (known .rounding).getD p.environment)
    (hw : origin .intWidth = (known .intWidth).getD p.environment) :
    needOptions p = ((Settings.valuesIn origin).options,
      { p with settings := .ofOrigins (known.after [.rounding, .intWidth] p.environment) }) := by
  have hafter : (known.after [.rounding] p.environment).after [.intWidth] p.environment =
      known.after [.rounding, .intWidth] p.environment := by
    funext name
    cases name <;> simp [Origins.after]
  have hwidth : (known.after [.rounding] p.environment) .intWidth = known .intWidth := by
    simp [Origins.after]
  have hneed := needIntWidth_eq
    (p := { p with settings := .ofOrigins (known.after [.rounding] p.environment) }) rfl
  rw [hafter, hwidth] at hneed
  show ((⟨(needRounding p).1, (needIntWidth (needRounding p).2).1⟩ : Options),
    (needIntWidth (needRounding p).2).2) = _
  rw [needRounding_eq h, hneed]
  simp only [Settings.Values.options, Settings.valuesIn, hr, hw]

/-- A call with options of its own needs nothing. -/
theorem optionsOr_eq (h : p.settings = .ofOrigins known) (options : Option Options)
    {origin : Setting.Name → Environment}
    (horigin : ∀ name ∈ neededFor options, origin name = (known name).getD p.environment) :
    optionsOr options p = (options.getD (Settings.valuesIn origin).options,
      { p with settings := .ofOrigins (known.after (neededFor options) p.environment) }) := by
  cases options with
  | some o =>
    show (o, p) = _
    rw [neededFor, Origins.after_nil, ← h]
    rfl
  | none => exact needOptions_eq h (horigin _ (by simp [neededFor])) (horigin _ (by simp [neededFor]))

/-- A log line that is not shown needs nothing. -/
theorem logTo_settings (h : p.settings = .ofOrigins known) (logger : Logger) (w : Writer)
    (level : LogLevel) (m : LogLine) {origin : Setting.Name → Environment}
    (horigin : ∀ name ∈ neededToLog logger level, origin name = (known name).getD p.environment) :
    logTo logger w level m p = (logger.logTo (Settings.valuesIn origin).options w level m,
      { p with
        settings := .ofOrigins (known.after (neededToLog logger level) p.environment) }) := by
  cases henabled : logger.enabled level with
  | true =>
    have hneeded : neededToLog logger level = [.rounding, .intWidth] := if_pos henabled
    rw [hneeded] at horigin ⊢
    have hoptions := needOptions_eq h (horigin .rounding (by simp)) (horigin .intWidth (by simp))
    have hshown : logTo logger w level m p =
        (logger.logTo (needOptions p).1 w level m, (needOptions p).2) := by
      simp only [logTo, henabled]
      rfl
    rw [hshown, hoptions]
  | false =>
    have hneeded : neededToLog logger level = [] := if_neg (by simp [henabled])
    have hhidden : logTo logger w level m p = ((.ok 0, .toWriter w), p) := by
      simp only [logTo, henabled]
      rfl
    have hline : logger.logTo (Settings.valuesIn origin).options w level m =
        (.ok 0, .toWriter w) := by
      simp [Logger.logTo, henabled]
    rw [hneeded, Origins.after_nil, ← h, hhidden, hline]

/-- A print under options of its own or those of the settings. -/
theorem printOn_did (h : p.settings = .ofOrigins known) (isShared : Bool) (options : Option Options)
    (sink : Sink) (format : Bytes) (args : List Arg) {origin : Setting.Name → Environment}
    (horigin : ∀ name ∈ neededFor options, origin name = (known name).getD p.environment) :
    Did ((Action.printOn isShared options sink format args).effect (Settings.valuesIn origin) p.shared)
      (known.after (neededFor options) p.environment) p
      (act (.printOn isShared options sink format args) p) := by
  have hout : p.output = p.output ++ ([] : Bytes) := Array.appendList_nil.symm
  have herr : p.errors = p.errors ++ ([] : Bytes) := Array.appendList_nil.symm
  have hoptions := optionsOr_eq h options horigin
  cases isShared with
  | true =>
    show Did _ _ p (.rendered ((optionsOr options p).2.shared.print sink format args
      (optionsOr options p).1), { (optionsOr options p).2 with shared := _ })
    rw [hoptions]
    exact ⟨rfl, hout, herr, rfl⟩
  | false =>
    show Did _ _ p (.rendered (PrintFormat.print sink format args (optionsOr options p).1),
      (optionsOr options p).2)
    rw [hoptions]
    exact ⟨rfl, hout, herr, rfl⟩

/-- A print to the output. -/
theorem printOut_did (h : p.settings = .ofOrigins known) (isShared : Bool) (options : Option Options)
    (format : Bytes) (args : List Arg) {origin : Setting.Name → Environment}
    (horigin : ∀ name ∈ neededFor options, origin name = (known name).getD p.environment) :
    Did ((Action.printOut isShared options format args).effect (Settings.valuesIn origin) p.shared)
      (known.after (neededFor options) p.environment) p
      (act (.printOut isShared options format args) p) := by
  have herr : p.errors = p.errors ++ ([] : Bytes) := Array.appendList_nil.symm
  have hoptions := optionsOr_eq h options horigin
  cases isShared with
  | true =>
    show Did _ _ p (.count ((optionsOr options p).2.shared.print (.toWriter {}) format args
      (optionsOr options p).1).outcome, { (optionsOr options p).2 with
        shared := _, output := (optionsOr options p).2.output ++ Sink.contents
          ((optionsOr options p).2.shared.print (.toWriter {}) format args
            (optionsOr options p).1).sink })
    rw [hoptions]
    exact ⟨rfl, rfl, herr, rfl⟩
  | false =>
    show Did _ _ p (.count (PrintFormat.print (.toWriter {}) format args
      (optionsOr options p).1).outcome, { (optionsOr options p).2 with
        output := (optionsOr options p).2.output ++ Sink.contents
          (PrintFormat.print (.toWriter {}) format args (optionsOr options p).1).sink })
    rw [hoptions]
    exact ⟨rfl, rfl, herr, rfl⟩

/-- A log line goes to one of the outputs, by its level. -/
theorem log_did (h : p.settings = .ofOrigins known) (logger : Logger) (level : LogLevel) (m : LogLine)
    {origin : Setting.Name → Environment}
    (horigin : ∀ name ∈ neededToLog logger level, origin name = (known name).getD p.environment) :
    Did ((Action.log logger level m).effect (Settings.valuesIn origin) p.shared)
      (known.after (neededToLog logger level) p.environment) p (act (.log logger level m) p) := by
  have hlog := logTo_settings h logger {} level m horigin
  by_cases herror : level = .error
  · have hact : act (.log logger level m) p = (.count (logTo logger {} level m p).1.1,
        { (logTo logger {} level m p).2 with
          errors := (logTo logger {} level m p).2.errors ++
            (logTo logger {} level m p).1.2.contents }) := by
      simp only [act, log, herror]
      rfl
    rw [hact, hlog]
    exact ⟨rfl, by simp [Action.effect, herror], by simp [Action.effect, herror], rfl⟩
  · have hact : act (.log logger level m) p = (.count (logTo logger {} level m p).1.1,
        { (logTo logger {} level m p).2 with
          output := (logTo logger {} level m p).2.output ++
            (logTo logger {} level m p).1.2.contents }) := by
      simp only [act, log, herror]
      rfl
    rw [hact, hlog]
    exact ⟨rfl, by simp [Action.effect, herror], by simp [Action.effect, herror], rfl⟩

/-- An action answers and puts out what it comes to under the values that the
settings which it needs have in the environments in which they were first needed,
and from then on these environments are known. -/
theorem act_did (h : p.settings = .ofOrigins known) (action : Action)
    (origin : Setting.Name → Environment)
    (horigin : ∀ name ∈ action.needs, origin name = (known name).getD p.environment) :
    Did (action.effect (Settings.valuesIn origin) p.shared)
      (known.after action.needs p.environment) p (act action p) := by
  -- most actions put nothing out
  have hout : p.output = p.output ++ ([] : Bytes) := Array.appendList_nil.symm
  have herr : p.errors = p.errors ++ ([] : Bytes) := Array.appendList_nil.symm
  cases action with
  | setVariable name value => exact ⟨rfl, hout, herr, by rw [Action.needs, Origins.after_nil, ← h]; rfl⟩
  | unsetVariable name => exact ⟨rfl, hout, herr, by rw [Action.needs, Origins.after_nil, ← h]; rfl⟩
  | readRounding =>
    have hneed := needRounding_eq h
    rw [← horigin .rounding (by simp [Action.needs])] at hneed
    show Did _ _ p (.rounding (needRounding p).1, (needRounding p).2)
    rw [hneed]
    exact ⟨rfl, hout, herr, rfl⟩
  | readIntWidth =>
    have hneed := needIntWidth_eq h
    rw [← horigin .intWidth (by simp [Action.needs])] at hneed
    show Did _ _ p (.intWidth (needIntWidth p).1, (needIntWidth p).2)
    rw [hneed]
    exact ⟨rfl, hout, herr, rfl⟩
  | readLogLevel =>
    have hneed := needLogLevel_eq h
    rw [← horigin .logLevel (by simp [Action.needs])] at hneed
    show Did _ _ p (.logLevel (needLogLevel p).1, (needLogLevel p).2)
    rw [hneed]
    exact ⟨rfl, hout, herr, rfl⟩
  | readOptions =>
    show Did _ _ p (.options (optionsOr none p).1, (optionsOr none p).2)
    rw [optionsOr_eq h none horigin]
    exact ⟨rfl, hout, herr, rfl⟩
  | printOn isShared options sink format args =>
    exact printOn_did h isShared options sink format args horigin
  | printOut isShared options format args =>
    exact printOut_did h isShared options format args horigin
  | logTo logger w level m =>
    show Did _ _ p (.logged (logTo logger w level m p).1.1 (logTo logger w level m p).1.2,
      (logTo logger w level m p).2)
    rw [logTo_settings h logger w level m horigin]
    exact ⟨rfl, hout, herr, rfl⟩
  | log logger level m => exact log_did h logger level m horigin

/-! ## Runs -/

/-- The environment at the moment at which a setting is first needed in a run. -/
def firstNeed (name : Setting.Name) (p : Program) : List Action → Option Environment
  | [] => none
  | action :: rest =>
      if name ∈ action.needs then some p.environment
      else firstNeed name (act action p).2 rest

theorem firstNeed_eq_none_iff (name : Setting.Name) (p : Program) (history : List Action) :
    firstNeed name p history = none ↔ ∀ action ∈ history, name ∉ action.needs := by
  induction history generalizing p with
  | nil => simp [firstNeed]
  | cons action rest ih =>
    rw [firstNeed, List.forall_mem_cons]
    by_cases hneeds : name ∈ action.needs
    · simp [hneeds]
    · rw [if_neg hneeds, ih]
      simp [hneeds]

/-- An action at the end of a run is the first to need what it needs and what no
action before it needed. -/
theorem firstNeed_concat (p : Program) (history : List Action) (action : Action) :
    (fun name => firstNeed name p (history ++ [action])) =
      Origins.after (fun name => firstNeed name p history) action.needs
        (p.perform history).2.environment := by
  funext name
  induction history generalizing p with
  | nil => simp [firstNeed, Origins.after, perform]
  | cons first rest ih =>
    have hrest := ih (act first p).2
    simp only [Origins.after] at hrest ⊢
    show firstNeed name p (first :: (rest ++ [action])) = _
    simp only [firstNeed]
    by_cases hneeds : name ∈ first.needs
    · simp [hneeds]
    · simp only [if_neg hneeds]
      exact hrest

/-- A run knows the environments in which its settings were first needed, those
that were known before it first. -/
theorem perform_settings (h : p.settings = .ofOrigins known) (history : List Action) :
    (p.perform history).2.settings =
      .ofOrigins fun name => (known name).or (firstNeed name p history) := by
  induction history generalizing p known with
  | nil =>
    show p.settings = _
    rw [h]
    simp [firstNeed]
  | cons action rest ih =>
    have hact := act_did h action (fun name => (known name).getD p.environment) fun _ _ => rfl
    have hrest := ih hact.settings
    show ((act action p).2.perform rest).2.settings = _
    rw [hrest]
    congr 1
    funext name
    simp only [firstNeed, Origins.after]
    by_cases hneeds : name ∈ action.needs
    · cases known name <;> simp [hneeds]
    · simp [hneeds]

/-- In every run of a program that has not read its settings yet, an action sees
each setting that it needs as the environment gave it when it was first needed in
the run, whatever was changed since then, and it sees nothing else of the
environment. A cell stays unread as long as no action needs its setting, then
holds this value, and is never seen while it is being read. -/
theorem settings_of_first_need (environment : Environment) (history : List Action)
    (action : Action) :
    let start : Program := { environment }
    let now := (start.perform history).2
    let needed := fun name => firstNeed name start (history ++ [action])
    (∀ origin : Setting.Name → Environment,
      (∀ name ∈ action.needs, needed name = some (origin name)) →
        Did (action.effect (Settings.valuesIn origin) now.shared) needed now (act action now)) ∧
      ∀ name,
        (needed name = none ↔ ∀ a ∈ history ++ [action], name ∉ a.needs) ∧
        ((act action now).2.settings.cell name = Setting.unread ↔ needed name = none) ∧
        (act action now).2.settings.cell name ≠ Setting.pending := by
  intro start now needed
  have hstart : start.settings = .ofOrigins fun _ => none := rfl
  have hnow : now.settings = .ofOrigins fun name => firstNeed name start history := by
    rw [perform_settings hstart history]
    simp
  have hneeded : needed =
      Origins.after (fun name => firstNeed name start history) action.needs now.environment :=
    firstNeed_concat start history action
  have hact (origin : Setting.Name → Environment)
      (horigin : ∀ name ∈ action.needs, needed name = some (origin name)) :
      Did (action.effect (Settings.valuesIn origin) now.shared) needed now (act action now) := by
    rw [hneeded] at horigin ⊢
    refine act_did hnow action origin fun name hname => ?_
    have hname' := horigin name hname
    rw [Origins.after, if_pos hname] at hname'
    exact (Option.some.inj hname').symm
  refine ⟨hact, fun name => ⟨firstNeed_eq_none_iff name start _, ?_⟩⟩
  have hsettings : (act action now).2.settings = .ofOrigins needed :=
    (hact (fun name => (needed name).getD []) fun name hname => by
      rw [hneeded, Origins.after, if_pos hname]
      rfl).settings
  obtain ⟨hunread, hread, hpending⟩ := Settings.cell_ofOrigins needed name
  rw [hsettings]
  exact ⟨⟨fun h => by_contra fun hne => hread hne h, hunread⟩, hpending⟩

/-- The width is read before its variable changes, the rounding after its own is
removed, and a line that is not shown reads nothing. -/
theorem settings_of_first_need_changed :
    let environment : Environment :=
      [("ECFMT_INT_WIDTH", ascii " 16"), ("ECFMT_FLOAT_ROUNDING", ascii "down")]
    let hidden : LogLine := { header := [], file := [], line := 0, format := [], args := [] }
    let history : List Action :=
      [.log {} .debug hidden, .readIntWidth, .setVariable "ECFMT_INT_WIDTH" (ascii "32"),
        .unsetVariable "ECFMT_FLOAT_ROUNDING"]
    let now := (perform { environment } history).2
    (act .readOptions now).1 = .options ⟨.nearest, .w16⟩ ∧
      (act .readOptions now).2.settings.cell .logLevel = Setting.unread := by
  intro environment hidden history now
  let changed : Environment := [("ECFMT_INT_WIDTH", ascii "32"), ("ECFMT_INT_WIDTH", ascii " 16")]
  have hneeded : ∀ name ∈ Action.readOptions.needs,
      firstNeed name { environment } (history ++ [.readOptions]) =
        some (if name = .intWidth then environment else changed) := by
    decide
  have hrounding : Setting.rounding.valueIn changed = .nearest := by decide
  have hwidth : Setting.intWidth.valueIn environment = .w16 := by decide +kernel
  have h := settings_of_first_need environment history .readOptions
  refine ⟨(h.1 _ hneeded).reply.trans ?_, ((h.2 .logLevel).2.1).mpr (by decide)⟩
  show Reply.options ⟨Setting.rounding.valueIn changed, Setting.intWidth.valueIn environment⟩ = _
  rw [hrounding, hwidth]

end Program
end PrintFormat
