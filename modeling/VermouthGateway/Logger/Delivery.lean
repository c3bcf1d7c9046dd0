import VermouthGateway.Foundation.Interleavings
import VermouthGateway.Logger.Async
import VermouthGateway.Logger.Outputs

/-!
# What the outputs show

A synchronous logger writes a message in the goroutine that logs it: it goes from
output to output, each of which takes one message at a time, and other goroutines
do the same.  An asynchronous logger leaves it to one goroutine, which goes from
output to output as well.

* `OutputsStep`: the asynchronous logger with its outputs.
* `OutputsStep.run_writeToOutputs`: its loop does what `writeToOutputs` does.
* `async_outputs_show`: the outputs show the same messages, in the order in which
  they were accepted, but for the one that is being written, which the outputs that
  the loop has passed show already; none is missing once the group is done.
* `sync_outputs_show`: every output shows the messages of all goroutines, each
  goroutine's in its own order; between goroutines the outputs need not agree.
-/

namespace VermouthGateway
namespace Logger

open Go Runs

section Async

variable (clock : String → Nat → Int) (zone : Int → DateTime) (serverName : String)

structure AsyncOutputs where
  queue : AsyncLogger
  outputs : List OutputLogger
  /-- How many outputs the loop of `writeToOutputs`, or that of `flush`, has passed. -/
  passed : Nat

inductive OutputsEvent
  | queue (event : AsyncEvent)
  | put
  | flushed

/-- The steps of the queue, and the rounds of the two loops over the outputs.  Before the
queue goes on from a loop, the loop has passed all of them. -/
inductive OutputsStep : AsyncOutputs → OutputsEvent → AsyncOutputs → Prop
  | queue {s : AsyncOutputs} {event : AsyncEvent} {l : AsyncLogger} (hwritten : event ≠ .written)
      (hclosed : event ≠ .closed) (hstep : AsyncStep s.queue event l) :
      OutputsStep s (.queue event) { s with queue := l }
  | put {s : AsyncOutputs} {msg : Message} {output : OutputLogger}
      (hheld : s.queue.consumer.held = [msg]) (hnext : s.outputs[s.passed]? = some output) :
      OutputsStep s .put
        { s with
          outputs := s.outputs.set s.passed (output.put clock zone serverName msg)
          passed := s.passed + 1 }
  | written {s : AsyncOutputs} {l : AsyncLogger} (hall : s.outputs.length ≤ s.passed)
      (hstep : AsyncStep s.queue .written l) :
      OutputsStep s (.queue .written) { s with queue := l, passed := 0 }
  | flushed {s : AsyncOutputs} {output : OutputLogger} (hpc : s.queue.consumer = .closing)
      (hnext : s.outputs[s.passed]? = some output) :
      OutputsStep s .flushed
        { s with outputs := s.outputs.set s.passed output.flush, passed := s.passed + 1 }
  | closed {s : AsyncOutputs} {l : AsyncLogger} (hall : s.outputs.length ≤ s.passed)
      (hstep : AsyncStep s.queue .closed l) :
      OutputsStep s (.queue .closed) { s with queue := l, passed := 0 }

/-- The goroutine goes over the outputs. -/
def Consumer.looping : Consumer → Bool
  | .writing _ => true
  | .drainWriting _ => true
  | .closing => true
  | _ => false

/-- The outputs that have been flushed: those the loop has passed, and at last all. -/
def Consumer.flushes (passed : Bool) : Consumer → Bool
  | .closing => passed
  | .returned => true
  | _ => false

variable {clock zone serverName}

theorem OutputsStep.run_puts {queue : AsyncLogger} {msg : Message}
    (hheld : queue.consumer.held = [msg]) (passed todo : List OutputLogger) :
    Run (OutputsStep clock zone serverName) ⟨queue, passed ++ todo, passed.length⟩
      (List.replicate todo.length .put)
      ⟨queue, passed ++ writeToOutputs clock zone serverName todo msg,
        passed.length + todo.length⟩ := by
  induction todo generalizing passed with
  | nil =>
      rw [writeToOutputs, List.map_nil, List.append_nil]
      exact .nil _
  | cons output todo ih =>
      have hnext : (passed ++ output :: todo)[passed.length]? = some output := by
        rw [List.getElem?_append_right le_rfl, Nat.sub_self]
        rfl
      have hset : (passed ++ output :: todo).set passed.length
          (output.put clock zone serverName msg) =
            passed ++ [output.put clock zone serverName msg] ++ todo := by
        rw [List.set_append_right _ _ le_rfl, Nat.sub_self, List.append_assoc]
        rfl
      have hstep : OutputsStep clock zone serverName
          ⟨queue, passed ++ output :: todo, passed.length⟩ .put
          ⟨queue, passed ++ [output.put clock zone serverName msg] ++ todo,
            passed.length + 1⟩ :=
        hset ▸ .put hheld hnext
      have hrest := ih (passed ++ [output.put clock zone serverName msg])
      rw [List.length_append, List.length_singleton, Nat.add_assoc, Nat.add_comm 1,
        List.append_assoc passed _ (writeToOutputs _ _ _ _ _)] at hrest
      exact .cons hstep hrest

/-- When nothing comes in between, the loop does what `writeToOutputs` does. -/
theorem OutputsStep.run_writeToOutputs {queue : AsyncLogger} {msg : Message}
    (hheld : queue.consumer.held = [msg]) (outputs : List OutputLogger) :
    Run (OutputsStep clock zone serverName) ⟨queue, outputs, 0⟩
      (List.replicate outputs.length .put)
      ⟨queue, writeToOutputs clock zone serverName outputs msg, outputs.length⟩ := by
  simpa using OutputsStep.run_puts hheld [] outputs

section QueueSteps

variable {l l' : AsyncLogger} {event : AsyncEvent}

theorem flushes_of_held {pc : Consumer} {msg : Message} (hheld : pc.held = [msg])
    (passed : Bool) : pc.flushes passed = false := by
  cases pc with
  | writing msg => rfl
  | drainWriting msg => rfl
  | _ => cases hheld

theorem AsyncStep.written_frame (hstep : AsyncStep l .written l') :
    l'.output = l.output ++ l.consumer.held ∧ l.consumer.flushes true = false ∧
      l'.consumer.flushes false = false ∧ l'.consumer.looping = false := by
  cases hstep with
  | written hpc | drainWritten hpc =>
      rw [hpc]
      exact ⟨rfl, rfl, rfl, rfl⟩

theorem AsyncStep.closed_frame (hstep : AsyncStep l .closed l') :
    l'.output = l.output ∧ l.consumer = .closing ∧ l'.consumer = .returned := by
  cases hstep with
  | closed hpc => exact ⟨rfl, hpc, rfl⟩

/-- The other steps put nothing out, and none is a step of the goroutine while it goes
over the outputs. -/
theorem AsyncStep.other_frame (hstep : AsyncStep l event l') (hwritten : event ≠ .written)
    (hclosed : event ≠ .closed) :
    l'.output = l.output ∧ l'.consumer.flushes false = l.consumer.flushes false ∧
      (l.consumer.looping = true → l'.consumer = l.consumer) ∧
      (l'.consumer.looping = false → l.consumer.looping = false) := by
  cases hstep with
  | written hpc | drainWritten hpc => exact absurd rfl hwritten
  | closed hpc => exact absurd rfl hclosed
  | handedOver _ _ hpc | received hpc _ | drainReceived hpc _ | signalled _ hpc | drained hpc _ =>
      rw [hpc]
      exact ⟨rfl, rfl, fun hloop => absurd hloop Bool.false_ne_true, fun _ => rfl⟩
  | added | sent | flushBegun | released | flushReturned => exact ⟨rfl, rfl, fun _ => rfl, id⟩

end QueueSteps

variable (clock zone serverName) in
/-- What an output has of a queue, when the loop has passed it and when not. -/
def OutputLogger.ofQueue (l : AsyncLogger) (passed : Bool) (output : OutputLogger) :
    OutputLogger :=
  let shown := output.putAll clock zone serverName
    (if passed then l.output ++ l.consumer.held else l.output)
  if l.consumer.flushes passed then shown.flush else shown

variable (clock zone serverName) in
/-- The outputs have what was put out. -/
structure PutOut (start : List OutputLogger) (s : AsyncOutputs) : Prop where
  accounted : s.queue.Accounted
  /-- Outside of the loops none has been passed. -/
  outside : s.queue.consumer.looping = false → s.passed = 0
  outputs : ∀ k, s.outputs[k]? =
    start[k]?.map (OutputLogger.ofQueue clock zone serverName s.queue (k < s.passed))

section PutOut

variable {start : List OutputLogger} {s s' : AsyncOutputs}

/-- The round of a loop for the next output. -/
theorem PutOut.round (h : PutOut clock zone serverName start s) {output next : OutputLogger}
    (hloop : s.queue.consumer.looping = true) (hnext : s.outputs[s.passed]? = some output)
    (hround : ∀ first : OutputLogger, output = first.ofQueue clock zone serverName s.queue false →
      next = first.ofQueue clock zone serverName s.queue true) :
    PutOut clock zone serverName start
      { s with outputs := s.outputs.set s.passed next, passed := s.passed + 1 } where
  accounted := h.accounted
  outside hout := by
    rw [hloop] at hout
    cases hout
  outputs k := by
    have hk := h.outputs k
    dsimp only
    rw [List.getElem?_set]
    by_cases heq : s.passed = k
    · subst heq
      rw [hnext, decide_eq_false (Nat.lt_irrefl _)] at hk
      obtain ⟨first, hfirst, hput⟩ := Option.map_eq_some_iff.mp hk.symm
      obtain ⟨hlt, -⟩ := List.getElem?_eq_some_iff.mp hnext
      rw [if_pos rfl, if_pos hlt, hfirst, Option.map_some, decide_eq_true (Nat.lt_succ_self _),
        hround first hput.symm]
    · have hsame : decide (k < s.passed + 1) = decide (k < s.passed) :=
        decide_eq_decide.mpr (by omega)
      rw [if_neg heq, hk, hsame]

theorem PutOut.step {event : OutputsEvent} (h : PutOut clock zone serverName start s)
    (hstep : OutputsStep clock zone serverName s event s') :
    PutOut clock zone serverName start s' := by
  have hlength : ∀ k first, start[k]? = some first → k < s.outputs.length := by
    intro k first hfirst
    have hk := h.outputs k
    rw [hfirst, Option.map_some] at hk
    exact (List.getElem?_eq_some_iff.mp hk).1
  cases hstep with
  | @queue event l hwritten hclosed hstep =>
      obtain ⟨houtput, hflushes, hstays, hlooping⟩ := hstep.other_frame hwritten hclosed
      refine ⟨h.accounted.step hstep, fun hout => h.outside (hlooping hout),
        fun k => (h.outputs k).trans ?_⟩
      refine congrArg (Option.map · start[k]?) (funext fun first => ?_)
      rw [OutputLogger.ofQueue, OutputLogger.ofQueue, houtput]
      by_cases hloop : s.queue.consumer.looping = true
      · rw [hstays hloop]
      · have hnone : decide (k < s.passed) = false := by
          rw [h.outside (Bool.eq_false_iff.mpr hloop)]
          exact decide_eq_false (Nat.not_lt_zero k)
        rw [hnone, hflushes, if_neg Bool.false_ne_true, if_neg Bool.false_ne_true]
  | @put msg output hheld hnext =>
      have hloop : s.queue.consumer.looping = true := by
        cases hpc : s.queue.consumer with
        | writing msg => rfl
        | drainWriting msg => rfl
        | _ =>
            rw [hpc] at hheld
            cases hheld
      refine h.round hloop hnext fun first hoff => ?_
      simp only [OutputLogger.ofQueue, flushes_of_held hheld, hheld, Bool.false_eq_true,
        if_false, if_true] at hoff ⊢
      rw [hoff, OutputLogger.putAll, OutputLogger.putAll, List.foldl_append]
      rfl
  | @written l hall hstep =>
      obtain ⟨houtput, hflushes, hflushes', hlooping⟩ := hstep.written_frame
      refine ⟨h.accounted.step hstep, fun _ => rfl, fun k => (h.outputs k).trans ?_⟩
      cases hfirst : start[k]? with
      | none => rfl
      | some first =>
          have hpassed : decide (k < s.passed) = true :=
            decide_eq_true ((hlength k first hfirst).trans_le hall)
          have hnone : decide (k < 0) = false := decide_eq_false (Nat.not_lt_zero k)
          simp only [Option.map_some, OutputLogger.ofQueue, hpassed, hnone, hflushes, hflushes',
            houtput, Bool.false_eq_true, if_false, if_true]
  | @flushed output hpc hnext =>
      refine h.round (by rw [hpc]; rfl) hnext fun first hoff => ?_
      simp only [OutputLogger.ofQueue, hpc, Consumer.held, Consumer.flushes, List.append_nil,
        Bool.false_eq_true, if_false, if_true] at hoff ⊢
      rw [hoff]
  | @closed l hall hstep =>
      obtain ⟨houtput, hpc, hpc'⟩ := hstep.closed_frame
      refine ⟨h.accounted.step hstep, fun _ => rfl, fun k => (h.outputs k).trans ?_⟩
      cases hfirst : start[k]? with
      | none => rfl
      | some first =>
          have hpassed : decide (k < s.passed) = true :=
            decide_eq_true ((hlength k first hfirst).trans_le hall)
          have hnone : decide (k < 0) = false := decide_eq_false (Nat.not_lt_zero k)
          simp only [Option.map_some, OutputLogger.ofQueue, hpassed, hnone, hpc, hpc', houtput,
            Consumer.held, Consumer.flushes, List.append_nil, Bool.false_eq_true, if_false,
            if_true]

/-- An output of a configuration shows what was put out, and when the loop has passed it
the message at hand as well. -/
theorem shows_ofQueue (args : OutputArgs) (l : AsyncLogger) (passed : Bool) :
    Shows clock zone serverName args
      (if passed then l.output ++ l.consumer.held else l.output)
      ((outputOf clock args).ofQueue clock zone serverName l passed) := by
  by_cases hflushes : l.consumer.flushes passed = true
  · rw [OutputLogger.ofQueue, if_pos hflushes]
    exact (shows_putAll args _).flush
  · rw [OutputLogger.ofQueue, if_neg hflushes]
    exact shows_putAll args _

end PutOut

variable {confs : List OutputArgs} {logs : GoMap String OutputsLogger} {name : String}
  {logger : OutputsLogger}

/-- In every run of a logger of a configuration its outputs show the same messages, the
first ones that were accepted; those that the loop has passed show the message at hand
as well.  It is all of them when nothing is under way, and at least those from before a
call of `Flush` when it returns. -/
theorem async_outputs_show {data : List Nat} {events : List OutputsEvent} {s : AsyncOutputs}
    (hbuild : buildFromConfig clock confs = .ok logs) (hlogger : logs.lookup name = some logger)
    (hrun : Run (OutputsStep clock zone serverName) ⟨async data, logger.outputs, 0⟩ events s) :
    ∃ shown, shown ++ s.queue.consumer.held <+: s.queue.accepted ∧
      (s.queue.wg = 0 → s.queue.consumer.held = [] ∧ shown = s.queue.accepted) ∧
      (∀ call l', AsyncStep s.queue (.flushReturned call) l' →
        ∃ flush, s.queue.calls[call]? = some flush ∧ flush.before <+: shown) ∧
      s.outputs.length = (confs.filter (·.name = name)).length ∧
      ∀ k args output, (confs.filter (·.name = name))[k]? = some args →
        s.outputs[k]? = some output → Shows clock zone serverName args
          (if k < s.passed then shown ++ s.queue.consumer.held else shown) output := by
  have hstart : PutOut clock zone serverName logger.outputs ⟨async data, logger.outputs, 0⟩ := by
    refine ⟨AsyncLogger.Accounted.async data, fun _ => rfl, fun k => ?_⟩
    cases logger.outputs[k]? with
    | none => rfl
    | some first => rfl
  have hputOut := hrun.invariant (P := PutOut clock zone serverName logger.outputs)
    (fun _ _ _ h hstep => h.step hstep) hstart
  have haccounted := hputOut.accounted
  have hconfs := outputs_of_build hbuild hlogger
  refine ⟨s.queue.output, ?_, fun hdone => ⟨?_, haccounted.output_eq hdone⟩,
    haccounted.flushOutputs, ?_, fun k args output hargs houtput => ?_⟩
  · rw [haccounted.ordered, haccounted.handed_eq]
    exact List.prefix_append _ _
  · have hcounted := haccounted.counted
    exact List.eq_nil_of_length_eq_zero (by omega)
  · have hnone : ∀ k : Nat, s.outputs[k]? = none ↔ logger.outputs[k]? = none := by
      intro k
      rw [hputOut.outputs k, Option.map_eq_none_iff]
    have hlength : s.outputs.length = logger.outputs.length := by
      refine Nat.le_antisymm ?_ ?_
      · exact List.getElem?_eq_none_iff.mp ((hnone _).mpr (List.getElem?_eq_none le_rfl))
      · exact List.getElem?_eq_none_iff.mp ((hnone _).mp (List.getElem?_eq_none le_rfl))
    rw [hlength, hconfs, List.length_map]
  · rw [hputOut.outputs k, hconfs, List.getElem?_map, hargs, Option.map_some,
      Option.map_some] at houtput
    cases houtput
    simpa only [decide_eq_true_eq] using shows_ofQueue args s.queue (k < s.passed)

/-- A console of the root logger. -/
def rootConsole (level : String) : OutputArgs where
  format := "%body%"
  maxSize := 0
  maxLine := 0
  dateSlice := ""
  name := "root"
  type := "console"
  level := level
  color := false
  fileName := ""

def twoConsoles : List OutputArgs := [rootConsole "info", rootConsole "trace"]

theorem build_twoConsoles (clock : String → Nat → Int) : ∃ logs logger,
    buildFromConfig clock twoConsoles = .ok logs ∧ logs.lookup "root" = some logger ∧
      logger.outputs = twoConsoles.map (outputOf clock) := by
  obtain ⟨logs, hbuild, hlogs⟩ : ∃ logs, buildFromConfig clock twoConsoles = .ok logs ∧
      Built clock twoConsoles logs := @buildFrom_eq clock [] twoConsoles ∅ (built_nil clock)
  have hroot : ∃ args ∈ twoConsoles, args.name = "root" := ⟨_, List.mem_cons_self, rfl⟩
  refine ⟨logs, _, hbuild, (hlogs "root").trans (if_pos hroot), rfl⟩

/-- The second of two messages is being written, and only the first console has it. -/
theorem async_outputs_show_consoles : ∃ logs logger s first second,
    buildFromConfig (fun _ => micros) twoConsoles = .ok logs ∧
    logs.lookup "root" = some logger ∧
    Run (OutputsStep (fun _ => micros) firstDay "") ⟨async [], logger.outputs, 0⟩
      [.queue (.added (plain "a")), .queue (.sent 0), .queue .received, .put, .put,
        .queue .written, .queue (.added (plain "b")), .queue (.handedOver 0), .put] s ∧
    s.outputs = [first, second] ∧
    Shows (fun _ => micros) firstDay "" (rootConsole "info") [plain "a", plain "b"] first ∧
    Shows (fun _ => micros) firstDay "" (rootConsole "trace") [plain "a"] second := by
  obtain ⟨logs, logger, hbuild, hlogger, houtputs⟩ := build_twoConsoles fun _ => micros
  obtain ⟨s, first, second, hrun, hoff, hqueue⟩ : ∃ s first second,
      Run (OutputsStep (fun _ => micros) firstDay "") ⟨async [], logger.outputs, 0⟩
        [.queue (.added (plain "a")), .queue (.sent 0), .queue .received, .put, .put,
          .queue .written, .queue (.added (plain "b")), .queue (.handedOver 0), .put] s ∧
      s.outputs = [first, second] ∧ s.passed = 1 ∧ s.queue.consumer.held = [plain "b"] ∧
      s.queue.accepted = [plain "a", plain "b"] := by
    rw [houtputs]
    exact ⟨_, _, _, .cons (.queue AsyncEvent.noConfusion AsyncEvent.noConfusion (.added _ _))
      (.cons (.queue AsyncEvent.noConfusion AsyncEvent.noConfusion
        (.sent rfl (show 0 < 100 by decide)))
      (.cons (.queue AsyncEvent.noConfusion AsyncEvent.noConfusion (.received rfl rfl))
      (.cons (.put rfl rfl) (.cons (.put rfl rfl) (.cons (.written le_rfl (.written rfl))
      (.cons (.queue AsyncEvent.noConfusion AsyncEvent.noConfusion (.added _ _))
      (.cons (.queue AsyncEvent.noConfusion AsyncEvent.noConfusion (.handedOver rfl rfl rfl))
      (.single (.put rfl rfl))))))))), rfl, rfl, rfl, rfl⟩
  obtain ⟨hpassed, hheld, haccepted⟩ := hqueue
  obtain ⟨shown, hprefix, -, -, -, hshows⟩ := async_outputs_show hbuild hlogger hrun
  rw [hheld, haccepted] at hprefix
  rw [hpassed, hheld] at hshows
  -- The message at hand is the second one, so that the first is all that was put out.
  have hshown : shown = [plain "a"] := by
    obtain ⟨rest, hrest⟩ := hprefix
    match shown with
    | [] => simp [plain] at hrest
    | [_] =>
        cases hrest
        rfl
    | _ :: _ :: tail => simp at hrest
  subst hshown
  exact ⟨logs, logger, s, first, second, hbuild, hlogger, hrun, hoff,
    hshows 0 _ _ rfl (by rw [hoff]; rfl), hshows 1 _ _ rfl (by rw [hoff]; rfl)⟩

/-- When several goroutines log by themselves, every output shows the messages of all
of them, and those of each goroutine in its own order. -/
theorem sync_outputs_show {programs : Nat → List Message} {events : List (BroadcastEvent Nat)}
    {s : Broadcast Nat Message OutputLogger}
    (hbuild : buildFromConfig clock confs = .ok logs) (hlogger : logs.lookup name = some logger)
    (hrun : Run (BroadcastStep (OutputLogger.put clock zone serverName))
      (.start logger.outputs programs) events s)
    (hdone : ∀ i, (s.threads i).todo = []) :
    List.Forall₂
      (fun args output => ∃ order, Interleaves order programs ∧
        Shows clock zone serverName args (order.map Prod.snd) output)
      (confs.filter (·.name = name)) s.sinks := by
  have houtputs := outputs_of_build hbuild hlogger
  have hlength := length_of_run hrun
  rw [houtputs, List.length_map] at hlength
  refine List.forall₂_iff_get.mpr ⟨hlength.symm, fun k hk hk' => ?_⟩
  have hstart : logger.outputs[k]? = some (outputOf clock ((confs.filter (·.name = name))[k])) := by
    rw [houtputs, List.getElem?_map, List.getElem?_eq_getElem hk]
    rfl
  obtain ⟨order, horder, hsink⟩ := sinks_of_run hrun hdone hstart
  rw [List.getElem?_eq_getElem hk'] at hsink
  refine ⟨order, horder, ?_⟩
  rw [List.get_eq_getElem, List.get_eq_getElem, Option.some.inj hsink]
  exact shows_putAll _ _

/-- Two goroutines with a message each. -/
def twoWriters (i : Nat) : List Message :=
  if i = 0 then [plain "a"] else if i = 1 then [plain "b"] else []

/-- The first console gets one message first, and the second one the other. -/
theorem run_twoWriters : ∃ s,
    Run (BroadcastStep (OutputLogger.put (fun _ => micros) firstDay ""))
      (.start (twoConsoles.map (outputOf fun _ => micros)) twoWriters)
      [.put 0, .put 1, .put 1, .put 0, .ended 0, .ended 1] s ∧
    s.sinks = [(outputOf (fun _ => micros) (rootConsole "info")).putAll (fun _ => micros) firstDay
        "" [plain "a", plain "b"],
      (outputOf (fun _ => micros) (rootConsole "trace")).putAll (fun _ => micros) firstDay
        "" [plain "b", plain "a"]] ∧
    ∀ i, (s.threads i).todo = [] := by
  refine ⟨_, .cons (.put rfl rfl) (.cons (.put rfl rfl) (.cons (.put rfl rfl)
    (.cons (.put rfl rfl) (.cons (.ended rfl) (.single (.ended rfl)))))), rfl, fun i => ?_⟩
  match i with
  | 0 => rfl
  | 1 => rfl
  | n + 2 => rfl

theorem sync_outputs_show_consoles : ∃ logs logger s,
    buildFromConfig (fun _ => micros) twoConsoles = .ok logs ∧
    logs.lookup "root" = some logger ∧
    Run (BroadcastStep (OutputLogger.put (fun _ => micros) firstDay ""))
      (.start logger.outputs twoWriters) [.put 0, .put 1, .put 1, .put 0, .ended 0, .ended 1] s ∧
    List.Forall₂
      (fun args output => ∃ order, Interleaves order twoWriters ∧
        Shows (fun _ => micros) firstDay "" args (order.map Prod.snd) output)
      twoConsoles s.sinks := by
  obtain ⟨logs, logger, hbuild, hlogger, houtputs⟩ := build_twoConsoles fun _ => micros
  obtain ⟨s, hrun, -, hdone⟩ := run_twoWriters
  rw [← houtputs] at hrun
  exact ⟨logs, logger, s, hbuild, hlogger, hrun, sync_outputs_show hbuild hlogger hrun hdone⟩

end Async

end Logger
end VermouthGateway
