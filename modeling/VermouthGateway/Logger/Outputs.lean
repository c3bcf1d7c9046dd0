import VermouthGateway.Logger.Archives

/-!
# The outputs of a logger

A logger writes a message to each of its outputs whose level admits it: a console
prints it, a file writer appends it.  `BuildFromConfig` makes the loggers of a
configuration and their outputs; what is wrong with one of them makes it panic.

An output has its own console or its own files, and its own readings of the clock:
`clock fn` gives those that are made for the file `fn`.

* `attach`, `buildFromConfig`, `writeToOutputs`: the code.
* `buildFromConfig_iff`: when a configuration is accepted, and what comes of it.
* `putAll_opened`: what an output has of the messages that were written to it.
-/

namespace VermouthGateway
namespace Logger

open Go

/-- `config.LogArgs`. -/
structure OutputArgs extends LogArgs where
  name : String
  type : String
  level : String
  color : Bool
  fileName : String

/-! ## The adapters -/

/-- The attributes of `levelColors`. -/
inductive Color
  | fgWhite
  | fgGreen
  | fgBlue
  | fgYellow
  | fgRed
  | fgMagenta
deriving DecidableEq

/-- `getColorByLevel`. -/
def getColorByLevel (level : LogLevel) : Color :=
  match level with
  | 1 => .fgGreen
  | 2 => .fgBlue
  | 3 => .fgYellow
  | 4 => .fgRed
  | 5 => .fgMagenta
  -- `TRACE`, and the levels without a colour
  | _ => .fgWhite

structure ConsoleAdapter where
  format : String
  color : Bool
  /-- The lines on the console, with their colours. -/
  printed : List (Option Color × String)

structure FileAdapter where
  cfg : LogArgs
  fileName : String
  world : World

inductive Adapter
  | console (adapter : ConsoleAdapter)
  | file (adapter : FileAdapter)

/-- The default that both adapters have for the format. -/
def formatOf (args : OutputArgs) : String :=
  if args.format = "" then defaultLoggerMessageFormat else args.format

/-- `ConsoleAdapter.Init`. -/
def ConsoleAdapter.init (args : OutputArgs) : Except String ConsoleAdapter :=
  if args.type ≠ "console" then
    .error "logger console adapter init error, config must ConsoleConfig"
  else .ok ⟨formatOf args, args.color, []⟩

/-- What `writeMsg` prints of a message. -/
def consoleLine (serverName format : String) (color : Bool) (msg : Message) :
    Option Color × String :=
  (if color then some (getColorByLevel msg.level) else none,
    messageFormat serverName format msg)

/-- `levelIntMapping`; the level of any other text is the zero value, `TRACE`. -/
def levelInt (level : String) : LogLevel :=
  (List.lookup level
    [("trace", 0), ("debug", 1), ("info", 2), ("warn", 3), ("error", 4), ("fatal", 5)]).getD 0

structure OutputLogger where
  logType : String
  level : LogLevel
  logger : Adapter

/-- `Logger`, without the fields of the asynchronous mode. -/
structure OutputsLogger where
  name : String
  outputs : List OutputLogger

section Code

variable (clock : String → Nat → Int) (zone : Int → DateTime) (serverName : String)

/-- `FileAdapter.Init`, for a file that is not there yet and that no other output writes;
the error of `initFile` is dropped. -/
def FileAdapter.init (args : OutputArgs) : Except String FileAdapter :=
  if args.type ≠ "file" then
    .error ("logger console adapter init error, config must FileConfig, " ++
      "please check config file")
  else if args.fileName = "" then
    .error "file logger has a null path file, please check config"
  else if args.dateSlice ≠ "" ∧ args.dateSlice ∉ ["y", "m", "d", "h"] then
    .error "date slice must be one of 'y', 'd', 'm', 'h'"
  else
    .ok
      { cfg := { args.toLogArgs with format := formatOf args }
        fileName := args.fileName
        world := started (clock args.fileName) args.fileName }

/-- The function registered for a type, with the call of its `Init`. -/
def adapterFor (logType : String) (args : OutputArgs) : Option (Except String Adapter) :=
  if logType = "console" then some ((ConsoleAdapter.init args).map .console)
  else if logType = "file" then some ((FileAdapter.init clock args).map .file)
  else none

/-- `attach`; an error is the text of the panic. -/
def attach (l : OutputsLogger) (logType : String) (level : LogLevel) (args : OutputArgs) :
    Except String OutputsLogger :=
  match adapterFor clock logType args with
  | none => .error "logger: unsupport logger type!"
  | some (.error e) => .error ("logger: adapter " ++ l.name ++ " init failed, error: " ++ e)
  | some (.ok adapter) => .ok { l with outputs := l.outputs ++ [⟨logType, level, adapter⟩] }

/-- One round of the loop of `BuildFromConfig`. -/
def buildOne (logs : GoMap String OutputsLogger) (args : OutputArgs) :
    Except String (GoMap String OutputsLogger) := do
  let log := (logs.lookup args.name).getD ⟨args.name, []⟩
  let log ← attach clock log args.type (levelInt args.level) args
  pure (logs.insert args.name log)

/-- `BuildFromConfig`: the loggers of `Logs`. -/
def buildFromConfig (confs : List OutputArgs) : Except String (GoMap String OutputsLogger) :=
  confs.foldlM (buildOne clock) ∅

/-- `writeMsg`; an error of the file writer is reported on the standard error. -/
def Adapter.writeMsg (msg : Message) : Adapter → Adapter
  | .console c =>
      .console { c with printed := c.printed ++ [consoleLine serverName c.format c.color msg] }
  | .file f =>
      .file { f with
        world := after (writeByConfig (clock f.fileName) zone serverName f.cfg msg) f.world }

/-- One round of the loop of `writeToOutputs`. -/
def OutputLogger.put (msg : Message) (output : OutputLogger) : OutputLogger :=
  if output.level ≤ msg.level then
    { output with logger := output.logger.writeMsg clock zone serverName msg }
  else output

/-- `writeToOutputs`. -/
def writeToOutputs (outputs : List OutputLogger) (msg : Message) : List OutputLogger :=
  outputs.map (OutputLogger.put clock zone serverName msg)

/-- `Flush`: the file writer is closed. -/
def OutputLogger.flush (output : OutputLogger) : OutputLogger :=
  match output.logger with
  | .console _ => output
  | .file f => { output with logger := .file { f with world := after close f.world } }

/-- The rounds that an output sees. -/
def OutputLogger.putAll (msgs : List Message) (output : OutputLogger) : OutputLogger :=
  msgs.foldl (fun output msg => output.put clock zone serverName msg) output

end Code

/-! ## The loggers of a configuration -/

/-- What the panic says of an entry of the configuration, if there is one. -/
def OutputArgs.problem (args : OutputArgs) : Option String :=
  let init := "logger: adapter " ++ args.name ++ " init failed, error: "
  if args.type = "console" then none
  else if args.type ≠ "file" then some "logger: unsupport logger type!"
  else if args.fileName = "" then
    some (init ++ "file logger has a null path file, please check config")
  else if args.dateSlice ∈ ["", "y", "m", "d", "h"] then none
  else some (init ++ "date slice must be one of 'y', 'd', 'm', 'h'")

/-- What the file writer of an entry reads. -/
def OutputArgs.fileArgs (args : OutputArgs) : LogArgs :=
  { args.toLogArgs with format := formatOf args }

section Configuration

variable (clock : String → Nat → Int)

/-- The output of an entry without a problem. -/
def outputOf (args : OutputArgs) : OutputLogger where
  logType := args.type
  level := levelInt args.level
  logger :=
    if args.type = "console" then .console ⟨formatOf args, args.color, []⟩
    else .file ⟨args.fileArgs, args.fileName, started (clock args.fileName) args.fileName⟩

/-- The logger of a name: the outputs of its entries, in their order. -/
def loggerOf (confs : List OutputArgs) (name : String) : Option OutputsLogger :=
  if ∃ args ∈ confs, args.name = name then
    some ⟨name, (confs.filter (·.name = name)).map (outputOf clock)⟩
  else none

/-- The loggers are those of the entries so far. -/
def Built (confs : List OutputArgs) (logs : GoMap String OutputsLogger) : Prop :=
  ∀ name, logs.lookup name = loggerOf clock confs name

variable {clock}

theorem attach_of_problem {args : OutputArgs} {l : OutputsLogger} (hname : l.name = args.name)
    (level : LogLevel) {e : String} (h : args.problem = some e) :
    attach clock l args.type level args = .error e := by
  rw [OutputArgs.problem] at h
  split at h
  · cases h
  next hconsole =>
    split at h
    next hfile =>
      cases h
      rw [attach, adapterFor, if_neg hconsole, if_neg hfile]
    next hfile =>
      have htype : args.type = "file" := not_not.mp hfile
      rw [attach, adapterFor, if_neg hconsole, if_pos htype, FileAdapter.init, if_neg hfile,
        hname]
      split at h
      next hnull =>
        cases h
        rw [if_pos hnull]
        rfl
      next hnull =>
        rw [if_neg hnull]
        split at h
        · cases h
        next hslice =>
          cases h
          rw [if_pos ⟨fun hempty => hslice (hempty ▸ List.mem_cons_self),
            fun hmem => hslice (List.mem_cons_of_mem _ hmem)⟩]
          rfl

theorem attach_of_no_problem {args : OutputArgs} (l : OutputsLogger)
    (h : args.problem = none) :
    attach clock l args.type (levelInt args.level) args =
      .ok { l with outputs := l.outputs ++ [outputOf clock args] } := by
  rw [OutputArgs.problem] at h
  split at h
  next hconsole =>
    rw [attach, adapterFor, if_pos hconsole, ConsoleAdapter.init, if_neg (not_not.mpr hconsole),
      outputOf, if_pos hconsole]
    rfl
  next hconsole =>
    split at h
    · cases h
    next hfile =>
      split at h
      · cases h
      next hnull =>
        split at h
        next hslice =>
          rw [attach, adapterFor, if_neg hconsole, if_pos (not_not.mp hfile), FileAdapter.init,
            if_neg hfile, if_neg hnull, if_neg ?_, outputOf, if_neg hconsole]
          · rfl
          · rintro ⟨hempty, hmem⟩
            exact (List.mem_cons.mp hslice).elim hempty hmem
        · cases h

/-- No entry, no logger. -/
theorem built_nil (clock : String → Nat → Int) : Built clock [] ∅ := by
  intro name
  rw [loggerOf, if_neg]
  · rfl
  · rintro ⟨args, hargs, -⟩
    cases hargs

/-- An entry adds its output to the logger of its name. -/
theorem Built.append {confs : List OutputArgs} {logs : GoMap String OutputsLogger}
    (h : Built clock confs logs) (args : OutputArgs) :
    Built clock (confs ++ [args]) (logs.insert args.name
      { (logs.lookup args.name).getD ⟨args.name, []⟩ with
        outputs := ((logs.lookup args.name).getD ⟨args.name, []⟩).outputs ++
          [outputOf clock args] }) := by
  intro name
  rw [GoMap.lookup_insert_eq, h args.name]
  by_cases hname : name = args.name
  · subst hname
    have hnew : ∃ a ∈ confs ++ [args], a.name = args.name :=
      ⟨args, List.mem_append_right _ List.mem_cons_self, rfl⟩
    rw [if_pos rfl, loggerOf, loggerOf, if_pos hnew, List.filter_append, List.map_append]
    split
    · simp
    next hnone =>
      have hempty : confs.filter (·.name = args.name) = [] := by
        rw [List.filter_eq_nil_iff]
        intro a ha hdec
        exact hnone ⟨a, ha, of_decide_eq_true hdec⟩
      simp [hempty]
  · have hne : args.name ≠ name := fun heq => hname heq.symm
    have hiff : (∃ a ∈ confs ++ [args], a.name = name) ↔ ∃ a ∈ confs, a.name = name := by
      simp [hne]
    rw [if_neg hname, h name, loggerOf, loggerOf, List.filter_append]
    simp only [hiff]
    simp [hne]

theorem buildFrom_eq {done confs : List OutputArgs} {logs : GoMap String OutputsLogger}
    (h : Built clock done logs) :
    match confs.findSome? OutputArgs.problem with
    | some e => confs.foldlM (buildOne clock) logs = .error e
    | none => ∃ logs', confs.foldlM (buildOne clock) logs = .ok logs' ∧
        Built clock (done ++ confs) logs' := by
  induction confs generalizing done logs with
  | nil =>
      refine ⟨logs, rfl, ?_⟩
      rwa [List.append_nil]
  | cons args confs ih =>
      rw [List.findSome?_cons, List.foldlM_cons]
      cases hproblem : args.problem with
      | some e =>
          have hname : ((logs.lookup args.name).getD ⟨args.name, []⟩).name = args.name := by
            rw [h, loggerOf]
            split <;> rfl
          have hone : buildOne clock logs args = .error e := by
            rw [buildOne, attach_of_problem hname _ hproblem]
            rfl
          dsimp only
          rw [hone]
          rfl
      | none =>
          have hone : buildOne clock logs args = .ok (logs.insert args.name
              { (logs.lookup args.name).getD ⟨args.name, []⟩ with
                outputs := ((logs.lookup args.name).getD ⟨args.name, []⟩).outputs ++
                  [outputOf clock args] }) := by
            rw [buildOne, attach_of_no_problem _ hproblem]
            rfl
          have hrest := ih (h.append args)
          rw [List.append_assoc, List.singleton_append] at hrest
          dsimp only
          rw [hone]
          exact hrest

/-- A configuration is accepted when no entry has a problem, and the panic is
that of the first entry which has one.  Each name then has the outputs of its
entries, in their order. -/
theorem buildFromConfig_iff (confs : List OutputArgs) :
    match confs.findSome? OutputArgs.problem with
    | some e => buildFromConfig clock confs = .error e
    | none => ∃ logs, buildFromConfig clock confs = .ok logs ∧
        ∀ name, logs.lookup name = loggerOf clock confs name :=
  buildFrom_eq (built_nil clock)

/-- The outputs of a logger that `BuildFromConfig` made. -/
theorem outputs_of_build {confs : List OutputArgs} {logs : GoMap String OutputsLogger}
    {name : String} {logger : OutputsLogger} (hbuild : buildFromConfig clock confs = .ok logs)
    (hlogger : logs.lookup name = some logger) :
    logger.outputs = (confs.filter (·.name = name)).map (outputOf clock) := by
  have hall := @buildFrom_eq clock [] confs ∅ (built_nil clock)
  split at hall
  · rw [show confs.foldlM (buildOne clock) ∅ = .ok logs from hbuild] at hall
    cases hall
  · obtain ⟨logs', hbuild', hlogs⟩ := hall
    cases hbuild.symm.trans hbuild'
    rw [hlogs, List.nil_append, loggerOf] at hlogger
    split at hlogger
    · cases hlogger
      rfl
    · cases hlogger

end Configuration

/-! ## What an output has of the messages -/

section Writing

variable (clock : String → Nat → Int) (zone : Int → DateTime) (serverName : String)

/-- The messages that a level admits. -/
def admitted (level : LogLevel) (msgs : List Message) : List Message :=
  msgs.filter (level ≤ ·.level)

/-- The console of an entry has a line for each message that the level admits.  Its
files have theirs exactly when the rotations that are due have different stamps. -/
def Shows (args : OutputArgs) (msgs : List Message) (output : OutputLogger) : Prop :=
  match output.logger with
  | .console c =>
      c.printed = (admitted (levelInt args.level) msgs).map
        (consoleLine serverName (formatOf args) args.color)
  | .file f =>
      let lines := (admitted (levelInt args.level) msgs).map
        (messageLine serverName (formatOf args))
      NoLineLost args.fileName lines f.world ↔
        ((rotationsDue (clock args.fileName) zone args.fileArgs lines).map
          (Rotation.stamp args.dateSlice)).Nodup

variable {clock zone serverName}

theorem writeAll_cons_snd {clock : Nat → Int} {cfg : LogArgs} (msg : Message)
    (msgs : List Message) (w : World) :
    (writeAll clock zone serverName cfg (msg :: msgs) w).2 =
      (writeAll clock zone serverName cfg msgs
        (after (writeByConfig clock zone serverName cfg msg) w)).2 := by
  rw [writeAll, after]
  cases EStateM.run (writeByConfig clock zone serverName cfg msg) w <;> rfl

theorem putAll_console (logType : String) (level : LogLevel) (c : ConsoleAdapter)
    (msgs : List Message) :
    OutputLogger.putAll clock zone serverName msgs ⟨logType, level, .console c⟩ =
      ⟨logType, level, .console { c with
        printed := c.printed ++
          (admitted level msgs).map (consoleLine serverName c.format c.color) }⟩ := by
  induction msgs generalizing c with
  | nil => simp [OutputLogger.putAll, admitted]
  | cons msg msgs ih =>
      rw [OutputLogger.putAll, List.foldl_cons, OutputLogger.put, admitted, List.filter_cons]
      by_cases hlevel : level ≤ msg.level
      · rw [if_pos hlevel, if_pos (decide_eq_true hlevel), List.map_cons, Adapter.writeMsg]
        refine (ih _).trans ?_
        rw [List.append_assoc, List.singleton_append]
        rfl
      · rw [if_neg hlevel, if_neg (by simpa using hlevel)]
        exact ih c

theorem putAll_file (logType : String) (level : LogLevel) (f : FileAdapter)
    (msgs : List Message) :
    OutputLogger.putAll clock zone serverName msgs ⟨logType, level, .file f⟩ =
      ⟨logType, level, .file { f with
        world := (writeAll (clock f.fileName) zone serverName f.cfg
          (admitted level msgs) f.world).2 }⟩ := by
  induction msgs generalizing f with
  | nil => rfl
  | cons msg msgs ih =>
      rw [OutputLogger.putAll, List.foldl_cons, OutputLogger.put, admitted, List.filter_cons]
      by_cases hlevel : level ≤ msg.level
      · rw [if_pos hlevel, if_pos (decide_eq_true hlevel), Adapter.writeMsg, writeAll_cons_snd]
        exact ih _
      · rw [if_neg hlevel, if_neg (by simpa using hlevel)]
        exact ih f

/-- An output of a configuration shows what was written to it. -/
theorem shows_putAll (args : OutputArgs) (msgs : List Message) :
    Shows clock zone serverName args msgs
      (OutputLogger.putAll clock zone serverName msgs (outputOf clock args)) := by
  rw [outputOf]
  split
  · rw [putAll_console, Shows]
    exact List.nil_append _
  · rw [putAll_file, Shows]
    obtain ⟨-, hfollows⟩ := (follows_started (clock args.fileName) args.fileArgs
      args.fileName).writeAll (clock args.fileName) zone serverName
        (admitted (levelInt args.level) msgs)
    have hiff := hfollows.noLineLost_iff
    rw [Journal.texts_writeAll] at hiff
    dsimp only
    rw [rotationsDue, List.map_map]
    exact hiff

/-- The lines stay when the file is closed. -/
theorem Shows.flush {args : OutputArgs} {msgs : List Message} {output : OutputLogger}
    (h : Shows clock zone serverName args msgs output) :
    Shows clock zone serverName args msgs output.flush := by
  obtain ⟨logType, level, logger⟩ := output
  cases logger with
  | console c => exact h
  | file f => exact ⟨fun hlost => h.mp ⟨hlost.distinct, hlost.kept⟩,
      fun hnodup => ⟨(h.mpr hnodup).distinct, (h.mpr hnodup).kept⟩⟩

end Writing

end Logger
end VermouthGateway
