import VermouthGateway.Foundation.Runs
import VermouthGateway.Logger.Message
import Mathlib.Data.List.Infix

/-!
# Asynchronous logging

After `async` the writers send their messages on a channel, and one goroutine
hands them to the outputs.  `Flush` signals this goroutine, which then empties the
channel and returns, and waits for the group of the messages under way.

The state has what the channels and the group hold, where the goroutine is, and the
calls of `Flush`.  A send on a channel that is full waits; which of the waiting
writers goes on is open.  An output may fail but does not panic, so the recovery
of `async` is not taken.  `accepted`, `handed` and `output` record the messages.

* `AsyncStep` is one step of a writer, of the goroutine or of a call of `Flush`.
* `Accounted` is the invariant: no message is dropped, and a group that is done means
  that nothing is under way.
* `nothingStranded_of_run`: nothing is stranded until a call of `Flush` returns.
* `handed_of_returned`: after that nothing is handed to the outputs any more.
-/

namespace VermouthGateway
namespace Logger

open Runs

/-- Where the goroutine of `async` is. -/
inductive Consumer
  /-- At the `select` of `startAsyncwrite`. -/
  | selecting
  | writing (msg : Message)
  /-- In the loop of `flush`. -/
  | draining
  | drainWriting (msg : Message)
  /-- `flush` has found the channel empty, and flushes the outputs. -/
  | closing
  | returned

/-- The message that is being written. -/
def Consumer.held : Consumer → List Message
  | .writing msg => [msg]
  | .drainWriting msg => [msg]
  | _ => []

/-- No signal has arrived yet. -/
def Consumer.Serving : Consumer → Prop
  | .selecting => True
  | .writing _ => True
  | _ => False

/-- Where a call of `Flush` is: it sends the signal, then waits for the group. -/
inductive FlushPc
  | signalling
  | waiting
  | released

structure FlushCall where
  /-- What was accepted when the call began. -/
  before : List Message
  pc : FlushPc

structure AsyncLogger where
  cap : Nat
  msgChan : List Message
  wg : Nat
  /-- The messages of the writers that are sending. -/
  writers : List Message
  consumer : Consumer
  /-- The calls of `Flush` that have not returned. -/
  calls : List FlushCall
  accepted : List Message
  handed : List Message
  output : List Message

/-- `async`: the first of the arguments is the length of the channel. -/
def async (data : List Nat) : AsyncLogger where
  cap := data.headD 100
  msgChan := []
  wg := 0
  writers := []
  consumer := .selecting
  calls := []
  accepted := []
  handed := []
  output := []

inductive AsyncEvent
  | added (msg : Message)
  | sent (writer : Nat)
  | handedOver (writer : Nat)
  | received
  | written
  | flushBegun
  | signalled (call : Nat)
  | drained
  | closed
  | released (call : Nat)
  | flushReturned (call : Nat)

/-- The steps of `writeMsg`, of `startAsyncwrite` with `flush`, and of `Flush`. -/
inductive AsyncStep : AsyncLogger → AsyncEvent → AsyncLogger → Prop
  | added (l : AsyncLogger) (msg : Message) :
      AsyncStep l (.added msg) { l with wg := l.wg + 1, writers := l.writers ++ [msg] }
  | sent {l : AsyncLogger} {writer : Nat} {msg : Message}
      (hwriter : l.writers[writer]? = some msg) (hroom : l.msgChan.length < l.cap) :
      AsyncStep l (.sent writer)
        { l with
          writers := l.writers.eraseIdx writer
          msgChan := l.msgChan ++ [msg]
          accepted := l.accepted ++ [msg] }
  -- a receiver that waits at an empty channel takes the message from the writer
  | handedOver {l : AsyncLogger} {writer : Nat} {msg : Message}
      (hwriter : l.writers[writer]? = some msg) (hempty : l.msgChan = [])
      (hpc : l.consumer = .selecting) :
      AsyncStep l (.handedOver writer)
        { l with
          writers := l.writers.eraseIdx writer
          consumer := .writing msg
          accepted := l.accepted ++ [msg]
          handed := l.handed ++ [msg] }
  | received {l : AsyncLogger} {msg : Message} {rest : List Message}
      (hpc : l.consumer = .selecting) (hchan : l.msgChan = msg :: rest) :
      AsyncStep l .received
        { l with msgChan := rest, consumer := .writing msg, handed := l.handed ++ [msg] }
  | drainReceived {l : AsyncLogger} {msg : Message} {rest : List Message}
      (hpc : l.consumer = .draining) (hchan : l.msgChan = msg :: rest) :
      AsyncStep l .received
        { l with msgChan := rest, consumer := .drainWriting msg, handed := l.handed ++ [msg] }
  -- `writeToOutputs` is over, and `Done` is called
  | written {l : AsyncLogger} {msg : Message} (hpc : l.consumer = .writing msg) :
      AsyncStep l .written
        { l with wg := l.wg - 1, consumer := .selecting, output := l.output ++ [msg] }
  | drainWritten {l : AsyncLogger} {msg : Message} (hpc : l.consumer = .drainWriting msg) :
      AsyncStep l .written
        { l with wg := l.wg - 1, consumer := .draining, output := l.output ++ [msg] }
  | flushBegun (l : AsyncLogger) :
      AsyncStep l .flushBegun { l with calls := l.calls ++ [⟨l.accepted, .signalling⟩] }
  -- the signal has no buffer: only the `select` takes it
  | signalled {l : AsyncLogger} {call : Nat} {before : List Message}
      (hcall : l.calls[call]? = some ⟨before, .signalling⟩) (hpc : l.consumer = .selecting) :
      AsyncStep l (.signalled call)
        { l with consumer := .draining, calls := l.calls.set call ⟨before, .waiting⟩ }
  | drained {l : AsyncLogger} (hpc : l.consumer = .draining) (hchan : l.msgChan = []) :
      AsyncStep l .drained { l with consumer := .closing }
  | closed {l : AsyncLogger} (hpc : l.consumer = .closing) :
      AsyncStep l .closed { l with consumer := .returned }
  -- a group that is done releases a call, which may return later
  | released {l : AsyncLogger} {call : Nat} {before : List Message}
      (hcall : l.calls[call]? = some ⟨before, .waiting⟩) (hdone : l.wg = 0) :
      AsyncStep l (.released call)
        { l with calls := l.calls.set call ⟨before, .released⟩ }
  | flushReturned {l : AsyncLogger} {call : Nat} {before : List Message}
      (hcall : l.calls[call]? = some ⟨before, .released⟩) :
      AsyncStep l (.flushReturned call) { l with calls := l.calls.eraseIdx call }

/-! ## What is claimed of a state -/

namespace AsyncLogger

/-- What was accepted was handed to the outputs or is in the channel, in order. -/
def Ordered (l : AsyncLogger) : Prop := l.accepted = l.handed ++ l.msgChan

/-- A call of `Flush` that returns has seen all that was accepted before it put out. -/
def FlushOutputs (l : AsyncLogger) : Prop :=
  ∀ call l', AsyncStep l (.flushReturned call) l' →
    ∃ flush, l.calls[call]? = some flush ∧ flush.before <+: l.output

structure NothingStranded (l : AsyncLogger) : Prop where
  ordered : l.Ordered
  running : l.calls = [] → l.consumer ≠ .returned
  flushed : l.FlushOutputs

/-! ## The invariant -/

/-- What the calls of `Flush` rely on. -/
def CallsBehind (accepted output : List Message) (calls : List FlushCall) : Prop :=
  ∀ flush ∈ calls, flush.before <+: accepted ∧ (flush.pc = .released → flush.before <+: output)

structure Accounted (l : AsyncLogger) : Prop where
  ordered : l.Ordered
  handed_eq : l.handed = l.output ++ l.consumer.held
  /-- A message counts from before it is sent until it has been put out. -/
  counted : l.wg = l.writers.length + l.msgChan.length + l.consumer.held.length
  calls : CallsBehind l.accepted l.output l.calls

namespace CallsBehind

variable {accepted output : List Message} {calls : List FlushCall}

/-- More may be accepted, and more may be put out. -/
theorem mono (h : CallsBehind accepted output calls) (newAccepted newOutput : List Message) :
    CallsBehind (accepted ++ newAccepted) (output ++ newOutput) calls := by
  intro flush hflush
  obtain ⟨hbefore, hreleased⟩ := h flush hflush
  exact ⟨hbefore.trans (List.prefix_append _ _),
    fun hpc => (hreleased hpc).trans (List.prefix_append _ _)⟩

theorem accept (h : CallsBehind accepted output calls) (msg : Message) :
    CallsBehind (accepted ++ [msg]) output calls := by
  have hmono := h.mono [msg] []
  rwa [List.append_nil] at hmono

theorem put (h : CallsBehind accepted output calls) (msg : Message) :
    CallsBehind accepted (output ++ [msg]) calls := by
  have hmono := h.mono [] [msg]
  rwa [List.append_nil] at hmono

theorem add (h : CallsBehind accepted output calls) :
    CallsBehind accepted output (calls ++ [⟨accepted, .signalling⟩]) := by
  intro flush hflush
  rcases List.mem_append.mp hflush with hold | hnew
  · exact h flush hold
  · rw [List.mem_singleton.mp hnew]
    exact ⟨List.prefix_refl _, FlushPc.noConfusion⟩

theorem set {call : Nat} {flush : FlushCall} (h : CallsBehind accepted output calls)
    (hbefore : flush.before <+: accepted)
    (hreleased : flush.pc = .released → flush.before <+: output) :
    CallsBehind accepted output (calls.set call flush) := by
  intro flush' hflush'
  rcases List.mem_or_eq_of_mem_set hflush' with hold | rfl
  · exact h flush' hold
  · exact ⟨hbefore, hreleased⟩

theorem erase (h : CallsBehind accepted output calls) (call : Nat) :
    CallsBehind accepted output (calls.eraseIdx call) :=
  fun flush hflush => h flush (List.mem_of_mem_eraseIdx hflush)

end CallsBehind

namespace Accounted

theorem async (data : List Nat) : Accounted (async data) where
  ordered := rfl
  handed_eq := rfl
  counted := rfl
  calls _ hflush := absurd hflush List.not_mem_nil

variable {l l' : AsyncLogger}

/-- When the group is done, everything that was accepted has been put out. -/
theorem output_eq (h : Accounted l) (hdone : l.wg = 0) : l.output = l.accepted := by
  have hcounted := h.counted
  have hchan : l.msgChan = [] := List.eq_nil_of_length_eq_zero (by omega)
  have hheld : l.consumer.held = [] := List.eq_nil_of_length_eq_zero (by omega)
  rw [h.ordered, h.handed_eq, hchan, hheld, List.append_nil, List.append_nil]

theorem length_eraseIdx {writer : Nat} {msg : Message}
    (hwriter : l.writers[writer]? = some msg) :
    (l.writers.eraseIdx writer).length + 1 = l.writers.length := by
  obtain ⟨hlt, -⟩ := List.getElem?_eq_some_iff.mp hwriter
  have hlen := List.length_eraseIdx_of_lt hlt
  omega

/-- A message is taken from the channel, in the loop of the goroutine or in that of
`flush`. -/
theorem receive (h : Accounted l) {msg : Message} {rest : List Message} {pc : Consumer}
    (hchan : l.msgChan = msg :: rest) (hheld : l.consumer.held = []) (hpc : pc.held = [msg]) :
    Accounted { l with msgChan := rest, consumer := pc, handed := l.handed ++ [msg] } where
  ordered := by
    rw [Ordered, h.ordered, hchan, List.append_assoc, List.singleton_append]
  handed_eq := by
    rw [h.handed_eq, hheld, hpc, List.append_nil]
  counted := by
    have hcounted := h.counted
    rw [hchan, hheld] at hcounted
    simp only [hpc, hcounted, List.length_cons, List.length_nil]
    omega
  calls := h.calls

/-- The message is put out, and counted off. -/
theorem put (h : Accounted l) {msg : Message} {pc : Consumer} (hheld : l.consumer.held = [msg])
    (hpc : pc.held = []) :
    Accounted { l with wg := l.wg - 1, consumer := pc, output := l.output ++ [msg] } where
  ordered := h.ordered
  handed_eq := by
    rw [h.handed_eq, hheld, hpc, List.append_nil]
  counted := by
    have hcounted := h.counted
    rw [hheld] at hcounted
    simp only [hpc, hcounted, List.length_singleton, List.length_nil]
    omega
  calls := h.calls.put msg

/-- The goroutine goes on without a message. -/
theorem goOn (h : Accounted l) {pc : Consumer} (hpc : pc.held = l.consumer.held) :
    Accounted { l with consumer := pc } where
  ordered := h.ordered
  handed_eq := by
    rw [hpc]
    exact h.handed_eq
  counted := by
    rw [hpc]
    exact h.counted
  calls := h.calls

/-- A call of `Flush` goes on. -/
theorem setCall (h : Accounted l) (call : Nat) {flush : FlushCall}
    (hbefore : flush.before <+: l.accepted)
    (hreleased : flush.pc = .released → flush.before <+: l.output) :
    Accounted { l with calls := l.calls.set call flush } where
  ordered := h.ordered
  handed_eq := h.handed_eq
  counted := h.counted
  calls := h.calls.set hbefore hreleased

theorem step {event : AsyncEvent} (h : Accounted l) (hstep : AsyncStep l event l') :
    Accounted l' := by
  have hordered := h.ordered
  have hhanded := h.handed_eq
  have hcounted := h.counted
  cases hstep with
  | added msg =>
      refine ⟨hordered, hhanded, ?_, h.calls⟩
      simp only [List.length_append, List.length_singleton]
      omega
  | @sent writer msg hwriter hroom =>
      have hlen := length_eraseIdx hwriter
      refine ⟨?_, hhanded, ?_, h.calls.accept msg⟩
      · rw [Ordered, hordered, List.append_assoc]
      · simp only [List.length_append, List.length_singleton]
        omega
  | @handedOver writer msg hwriter hempty hpc =>
      have hlen := length_eraseIdx hwriter
      have hnone : l.consumer.held = [] := hpc ▸ rfl
      rw [hnone, List.append_nil] at hhanded
      rw [hnone, List.length_nil] at hcounted
      refine ⟨?_, congrArg (· ++ [msg]) hhanded, ?_, h.calls.accept msg⟩
      · rw [Ordered, hordered, hempty, List.append_nil, List.append_nil]
      · simp only [Consumer.held, List.length_singleton]
        omega
  | received hpc hchan => exact h.receive hchan (hpc ▸ rfl) rfl
  | drainReceived hpc hchan => exact h.receive hchan (hpc ▸ rfl) rfl
  | written hpc => exact h.put (hpc ▸ rfl) rfl
  | drainWritten hpc => exact h.put (hpc ▸ rfl) rfl
  | flushBegun => exact ⟨hordered, hhanded, hcounted, h.calls.add⟩
  | @signalled call before hcall hpc =>
      have hbefore := (h.calls _ (List.mem_of_getElem? hcall)).1
      have hdraining : Consumer.draining.held = l.consumer.held := hpc ▸ rfl
      exact (h.goOn hdraining).setCall call hbefore FlushPc.noConfusion
  | drained hpc hchan =>
      have hclosing : Consumer.closing.held = l.consumer.held := hpc ▸ rfl
      exact h.goOn hclosing
  | closed hpc =>
      have hreturned : Consumer.returned.held = l.consumer.held := hpc ▸ rfl
      exact h.goOn hreturned
  | @released call before hcall hdone =>
      -- nothing is under way, so the output is all that was accepted
      have hbefore := (h.calls _ (List.mem_of_getElem? hcall)).1
      exact h.setCall call hbefore fun _ => h.output_eq hdone ▸ hbefore
  | flushReturned hcall => exact ⟨hordered, hhanded, hcounted, h.calls.erase _⟩

theorem flushOutputs (h : Accounted l) : l.FlushOutputs := by
  intro call l' hstep
  cases hstep with
  | flushReturned hcall =>
      exact ⟨_, hcall, (h.calls _ (List.mem_of_getElem? hcall)).2 rfl⟩

end Accounted

/-! ## The goroutine -/

/-- The goroutine serves, or the call that stopped it is still there. -/
def Attended (l : AsyncLogger) : Prop := l.calls = [] → l.consumer.Serving

theorem Attended.step {l l' : AsyncLogger} {event : AsyncEvent} (h : l.Attended)
    (hstep : AsyncStep l event l') (hevent : ∀ call, event ≠ .flushReturned call) :
    l'.Attended := by
  intro hcalls
  cases hstep with
  | added msg => exact h hcalls
  | sent hwriter hroom => exact h hcalls
  | handedOver hwriter hempty hpc => trivial
  | received hpc hchan => trivial
  | drainReceived hpc hchan => exact absurd (h hcalls) (hpc ▸ id)
  | written hpc => trivial
  | drainWritten hpc => exact absurd (h hcalls) (hpc ▸ id)
  | flushBegun => exact absurd hcalls (List.append_ne_nil_of_right_ne_nil _ (List.cons_ne_nil _ _))
  | signalled hcall hpc =>
      rw [(List.set_eq_nil_iff _ _).mp hcalls] at hcall
      cases hcall
  | drained hpc hchan => exact absurd (h hcalls) (hpc ▸ id)
  | closed hpc => exact absurd (h hcalls) (hpc ▸ id)
  | released hcall hdone => exact h ((List.set_eq_nil_iff _ _).mp hcalls)
  | @flushReturned call before hcall => exact absurd rfl (hevent call)

/-- After the goroutine has returned, nothing is handed to the outputs. -/
theorem returned_step {l l' : AsyncLogger} {event : AsyncEvent} (hstep : AsyncStep l event l')
    (hreturned : l.consumer = .returned) : l'.consumer = .returned ∧ l'.handed = l.handed := by
  cases hstep with
  | added msg => exact ⟨hreturned, rfl⟩
  | sent hwriter hroom => exact ⟨hreturned, rfl⟩
  | flushBegun => exact ⟨hreturned, rfl⟩
  | released hcall hdone => exact ⟨hreturned, rfl⟩
  | flushReturned hcall => exact ⟨hreturned, rfl⟩
  -- the other steps are those of the goroutine
  | _ => simp_all

end AsyncLogger

open AsyncLogger

variable {data : List Nat} {events : List AsyncEvent} {l l' : AsyncLogger}

theorem accounted_of_run (hrun : Run AsyncStep (async data) events l) : Accounted l :=
  hrun.invariant (fun _ _ _ h hstep => h.step hstep) (Accounted.async data)

theorem attended_of_run (hrun : Run AsyncStep (async data) events l)
    (hnone : ∀ call, .flushReturned call ∉ events) : l.Attended :=
  hrun.invariant_of_mem
    (fun _ hevent _ _ h hstep => h.step hstep fun call heq => hnone call (heq ▸ hevent))
    fun _ => trivial

/-- What the goroutine has not taken when it returns is never put out, and neither is what
is sent after that. -/
theorem handed_of_returned (hrun : Run AsyncStep l events l')
    (hreturned : l.consumer = .returned) : l'.handed = l.handed := by
  have hkeep : l'.consumer = .returned ∧ l'.handed = l.handed :=
    hrun.invariant (P := fun s => s.consumer = .returned ∧ s.handed = l.handed)
      (fun s _ s' h hstep =>
        have hnext := returned_step hstep h.1
        ⟨hnext.1, hnext.2.trans h.2⟩) ⟨hreturned, rfl⟩
  exact hkeep.2

/-- Messages are kept in order and are put out before a call of `Flush` returns, in every
run.  Before a call has returned the goroutine is there for them. -/
theorem nothingStranded_of_run (hrun : Run AsyncStep (async data) events l) :
    (l.Ordered ∧ l.FlushOutputs) ∧
      ((∀ call, .flushReturned call ∉ events) → NothingStranded l) := by
  have haccounted := accounted_of_run hrun
  refine ⟨⟨haccounted.ordered, haccounted.flushOutputs⟩, fun hnone => ?_⟩
  refine ⟨haccounted.ordered, fun hcalls hreturned => ?_, haccounted.flushOutputs⟩
  have hserving := attended_of_run hrun hnone hcalls
  rw [hreturned] at hserving
  exact hserving

/-- The goroutine has a first message put out and a second one at hand, which it took for a
call of `Flush`; a third one is being sent. -/
def underFlush : AsyncLogger where
  cap := 100
  msgChan := []
  wg := 2
  writers := [plain "c"]
  consumer := .drainWriting (plain "b")
  calls := [⟨[plain "a", plain "b"], .waiting⟩]
  accepted := [plain "a", plain "b"]
  handed := [plain "a", plain "b"]
  output := [plain "a"]

theorem run_underFlush :
    Run AsyncStep (async []) [.added (plain "a"), .sent 0, .received, .added (plain "b"), .sent 0,
      .flushBegun, .written, .signalled 0, .received, .added (plain "c")] underFlush :=
  .cons (.added _ _) (.cons (.sent rfl (by decide)) (.cons (.received rfl rfl)
    (.cons (.added _ _) (.cons (.sent rfl (by decide)) (.cons (.flushBegun _)
      (.cons (.written rfl) (.cons (.signalled rfl rfl) (.cons (.drainReceived rfl rfl)
        (.cons (.added _ _) (.nil _))))))))))

theorem nothingStranded_underFlush : NothingStranded underFlush :=
  (nothingStranded_of_run run_underFlush).2 (by simp)

/-- A call of `Flush` returns, and then a message is sent. -/
theorem run_flushed :
    Run AsyncStep (async []) [.flushBegun, .signalled 0, .drained, .closed, .released 0,
        .flushReturned 0, .added (plain "a"), .sent 0]
      { async [] with
        msgChan := [plain "a"]
        wg := 1
        consumer := .returned
        accepted := [plain "a"] } :=
  .cons (.flushBegun _) (.cons (.signalled rfl rfl) (.cons (.drained rfl rfl)
    (.cons (.closed rfl) (.cons (.released rfl rfl) (.cons (.flushReturned rfl)
      (.cons (.added _ _) (.cons (.sent rfl (by decide)) (.nil _))))))))

theorem stranded_after_flush :
    ¬ ∀ (data : List Nat) (events : List AsyncEvent) (l : AsyncLogger),
      Run AsyncStep (async data) events l → NothingStranded l := by
  intro hall
  exact (hall _ _ _ run_flushed).running rfl rfl

end Logger
end VermouthGateway
