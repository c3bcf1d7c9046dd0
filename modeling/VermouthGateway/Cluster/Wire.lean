import VermouthGateway.Cluster.Replicas
import VermouthGateway.Go.Binary

/-!
# The bytes of the log

Raft stores byte strings.  `AppendLogEntry` encodes a body with `encoding/gob`,
puts a header of four bytes in front of it, of which two are the option and two
stay zero, and hands the result to raft.  `Apply` reads the option, cuts the
header off, and decodes the body by the option.

The codec is a parameter: `Gob` has what the code relies on, that a body which
could be encoded is read back.

* `RawLogEntry.decode_ok_iff`: the byte strings that decode, and as what.
* `run_applyLog`: `Apply` on a byte string, by the entry that is read from it.
* `appended_log_replays`: a log written by `AppendLogEntry` applies as the
  entries it was called with.
* `raw_run_iff`: a node that reads arbitrary bytes runs as one that reads the
  entries among them.
-/

namespace VermouthGateway
namespace Cluster

open Go Proxy Balancing Runs

/-! ## Bodies and options -/

/-- The types of the bodies. -/
inductive BodyType
  | addHttpProxyBody
  | changeHttpProxyStateBody
  | addHttpProxyPrefixBody
  | httpProxyHostBody
  | httpBlackListBody
  | removeHttpProxyPrefixBody
  | removeHttpProxyBody
  | httpRateLimiterBody
  | httpChangeStatic
  | httpChangeLbBody

def BodyType.Value : BodyType → Type
  | .addHttpProxyBody => AddHttpProxyBody
  | .changeHttpProxyStateBody => ChangeHttpProxyStateBody
  | .addHttpProxyPrefixBody => AddHttpProxyPrefixBody
  | .httpProxyHostBody => HttpProxyHostBody
  | .httpBlackListBody => HttpBlackListBody
  | .removeHttpProxyPrefixBody => RemoveHttpProxyPrefixBody
  | .removeHttpProxyBody => RemoveHttpProxyBody
  | .httpRateLimiterBody => HttpRateLimiterBody
  | .httpChangeStatic => HttpChangeStatic
  | .httpChangeLbBody => HttpChangeLbBody

/-- `encode` and `decode` of the bodies. -/
structure Gob where
  encode : (type : BodyType) → type.Value → Option (List UInt8)
  decode : (type : BodyType) → List UInt8 → Option type.Value
  decode_encode : ∀ {type : BodyType} {body : type.Value} {data : List UInt8},
    encode type body = some data → decode type data = some body

/-- The options `Apply` knows. -/
inductive Opt
  | addHttpProxy
  | addHttpProxyPrefix
  | addHttpProxyHost
  | addHttpBlackList
  | rmvHttpProxyPrefix
  | rmvHttpProxyHost
  | rmvHttpBlackList
  | rmvHttpProxy
  | setRateLimiter
  | chgStatic
  | chgLb
  | chgState
deriving DecidableEq

namespace Opt

def code : Opt → UInt16
  | addHttpProxy => 0x0001
  | addHttpProxyPrefix => 0x0002
  | addHttpProxyHost => 0x0003
  | addHttpBlackList => 0x0004
  | rmvHttpProxyPrefix => 0x0005
  | rmvHttpProxyHost => 0x0006
  | rmvHttpBlackList => 0x0007
  | rmvHttpProxy => 0x0008
  | setRateLimiter => 0x0009
  -- the numbers go on as if 0x0009 were followed by 0x0010
  | chgStatic => 0x0010
  | chgLb => 0x0011
  | chgState => 0x0012

/-- The cases of the switch in `Apply`. -/
def cases : List Opt :=
  [addHttpProxy, addHttpProxyPrefix, addHttpProxyHost, addHttpBlackList, rmvHttpProxyPrefix,
    rmvHttpProxyHost, rmvHttpBlackList, rmvHttpProxy, setRateLimiter, chgStatic, chgLb, chgState]

def ofCode (c : UInt16) : Option Opt := cases.find? fun opt => opt.code = c

/-- The body the handler of the option decodes. -/
def body : Opt → BodyType
  | addHttpProxy => .addHttpProxyBody
  | addHttpProxyPrefix => .addHttpProxyPrefixBody
  | addHttpProxyHost => .httpProxyHostBody
  | addHttpBlackList => .httpBlackListBody
  | rmvHttpProxyPrefix => .removeHttpProxyPrefixBody
  | rmvHttpProxyHost => .httpProxyHostBody
  | rmvHttpBlackList => .httpBlackListBody
  | rmvHttpProxy => .removeHttpProxyBody
  | setRateLimiter => .httpRateLimiterBody
  | chgStatic => .httpChangeStatic
  | chgLb => .httpChangeLbBody
  | chgState => .changeHttpProxyStateBody

/-- The entry the handler of the option is called for. -/
def entry : (opt : Opt) → opt.body.Value → LogEntry
  | addHttpProxy, value => .addHttpProxy value
  | addHttpProxyPrefix, value => .addHttpProxyPrefix value
  | addHttpProxyHost, value => .addHttpProxyHost value
  | addHttpBlackList, value => .addHttpBlackList value
  | rmvHttpProxyPrefix, value => .rmvHttpProxyPrefix value
  | rmvHttpProxyHost, value => .rmvHttpProxyHost value
  | rmvHttpBlackList, value => .rmvHttpBlackList value
  | rmvHttpProxy, value => .rmvHttpProxy value
  | setRateLimiter, value => .setRateLimiter value
  | chgStatic, value => .chgStatic value
  | chgLb, value => .chgLb value
  | chgState, value => .chgState value

theorem ofCode_code (opt : Opt) : ofCode opt.code = some opt := by
  cases opt <;> rfl

end Opt

/-- The option an entry is appended with. -/
def LogEntry.opt : LogEntry → Opt
  | .addHttpProxy _ => .addHttpProxy
  | .addHttpProxyPrefix _ => .addHttpProxyPrefix
  | .addHttpProxyHost _ => .addHttpProxyHost
  | .addHttpBlackList _ => .addHttpBlackList
  | .rmvHttpProxyPrefix _ => .rmvHttpProxyPrefix
  | .rmvHttpProxyHost _ => .rmvHttpProxyHost
  | .rmvHttpBlackList _ => .rmvHttpBlackList
  | .rmvHttpProxy _ => .rmvHttpProxy
  | .setRateLimiter _ => .setRateLimiter
  | .chgStatic _ => .chgStatic
  | .chgLb _ => .chgLb
  | .chgState _ => .chgState

def LogEntry.value : (entry : LogEntry) → entry.opt.body.Value
  | .addHttpProxy body => body
  | .addHttpProxyPrefix body => body
  | .addHttpProxyHost body => body
  | .addHttpBlackList body => body
  | .rmvHttpProxyPrefix body => body
  | .rmvHttpProxyHost body => body
  | .rmvHttpBlackList body => body
  | .rmvHttpProxy body => body
  | .setRateLimiter body => body
  | .chgStatic body => body
  | .chgLb body => body
  | .chgState body => body

theorem LogEntry.opt_entry_value (entry : LogEntry) : entry.opt.entry entry.value = entry := by
  cases entry <;> rfl

/-! ## The header -/

def headerSize : Nat := 4

/-- `LogEntry` of the source: an option and a body that is still encoded. -/
structure RawLogEntry where
  opt : UInt16
  data : List UInt8
deriving DecidableEq

namespace RawLogEntry

/-- `Encode`. -/
def encode (entry : RawLogEntry) : List UInt8 :=
  putUint16 entry.opt ++ List.replicate (headerSize - 2) 0 ++ entry.data

/-- `Decode`, and the first lines of `Apply`. -/
def decode (data : List UInt8) : Except Halt RawLogEntry := do
  let opt ← uint16 data
  let body ← sliceFrom headerSize data
  pure ⟨opt, body⟩

/-- What decodes, and as what: the two bytes after the option are not read. -/
theorem decode_ok_iff (data : List UInt8) (entry : RawLogEntry) :
    decode data = .ok entry ↔
      ∃ unread : List UInt8, unread.length = 2 ∧
        data = putUint16 entry.opt ++ unread ++ entry.data := by
  constructor
  · intro h
    rw [decode] at h
    cases hopt : uint16 data with
    | error e =>
        rw [hopt] at h
        cases h
    | ok opt =>
        rw [hopt] at h
        obtain ⟨rest, rfl⟩ := putUint16_of_uint16 hopt
        by_cases hlength : headerSize ≤ (putUint16 opt ++ rest).length
        · simp only [bind, Except.bind, sliceFrom, if_pos hlength] at h
          cases h
          have hrest : 2 ≤ rest.length := by
            simp only [headerSize, putUint16, List.length_append, List.length_cons,
              List.length_nil] at hlength
            omega
          refine ⟨rest.take 2, by rw [List.length_take]; omega, ?_⟩
          show putUint16 opt ++ rest =
            putUint16 opt ++ rest.take 2 ++ (putUint16 opt ++ rest).drop headerSize
          rw [List.append_assoc, show (putUint16 opt ++ rest).drop headerSize = rest.drop 2
            from rfl, List.take_append_drop]
        · simp only [bind, Except.bind, sliceFrom, if_neg hlength] at h
          cases h
  · rintro ⟨unread, hunread, rfl⟩
    obtain ⟨a, b, rfl⟩ := List.length_eq_two.mp hunread
    rw [decode, List.append_assoc, uint16_putUint16]
    rfl

theorem decode_encode (entry : RawLogEntry) : decode entry.encode = .ok entry :=
  (decode_ok_iff _ _).mpr ⟨_, rfl, rfl⟩

/-- Shorter data than a header panics, and nothing else does. -/
theorem decode_cases (data : List UInt8) :
    (headerSize ≤ data.length ∧ ∃ entry, decode data = .ok entry) ∨
      (data.length < headerSize ∧ decode data = .error (.panic .sliceBounds)) := by
  match data with
  | [] => exact Or.inr ⟨by decide, rfl⟩
  | [_] => exact Or.inr ⟨by simp [headerSize], rfl⟩
  | [_, _] => exact Or.inr ⟨by simp [headerSize], rfl⟩
  | [_, _, _] => exact Or.inr ⟨by simp [headerSize], rfl⟩
  | _ :: _ :: _ :: _ :: _ => exact Or.inl ⟨by simp [headerSize], _, rfl⟩

end RawLogEntry

/-! ## Writing and applying -/

namespace Gob

variable (gob : Gob)

/-- The bytes `AppendLogEntry` hands to raft. -/
def encodeEntry (entry : LogEntry) : Option (List UInt8) :=
  (gob.encode entry.opt.body entry.value).map fun data =>
    RawLogEntry.encode ⟨entry.opt.code, data⟩

/-- The entry a byte string is applied as, when there is one. -/
def readEntry (data : List UInt8) : Option LogEntry :=
  match RawLogEntry.decode data with
  | .error _ => none
  | .ok raw =>
      match Opt.ofCode raw.opt with
      | none => none
      | some opt => (gob.decode opt.body raw.data).map opt.entry

theorem readEntry_of_encodeEntry {entry : LogEntry} {data : List UInt8}
    (h : gob.encodeEntry entry = some data) : gob.readEntry data = some entry := by
  obtain ⟨body, hbody, rfl⟩ := Option.map_eq_some_iff.mp h
  rw [readEntry, RawLogEntry.decode_encode]
  dsimp only
  rw [Opt.ofCode_code]
  dsimp only
  rw [gob.decode_encode hbody, Option.map_some, entry.opt_entry_value]

/-- Nothing is read from data without a header. -/
theorem header_of_readEntry {entry : LogEntry} {data : List UInt8}
    (h : gob.readEntry data = some entry) : headerSize ≤ data.length := by
  rcases RawLogEntry.decode_cases data with ⟨hheader, -⟩ | ⟨-, hraw⟩
  · exact hheader
  · rw [readEntry, hraw] at h
    cases h

end Gob

/-- What a handler returns for a body it cannot decode. -/
inductive ApplyError
  | undecodable
deriving DecidableEq

/-- `Apply`: the error is only logged, and handed to the future of the entry. -/
def applyLog (gob : Gob) : Option (List UInt8) → Eff StateContext (Option ApplyError)
  | none => pure none
  | some bidata => do
      let raw ← ofPure (RawLogEntry.decode bidata)
      match Opt.ofCode raw.opt with
      -- the switch has no default
      | none => pure none
      | some opt =>
          match gob.decode opt.body raw.data with
          | none => pure (some .undecodable)
          | some value => do
              StateContext.apply (opt.entry value)
              pure none

section Apply

variable (gob : Gob)

/-- Where an entry is read the byte string does what the entry does. -/
theorem applyLog_of_read {data : List UInt8} {entry : LogEntry}
    (h : gob.readEntry data = some entry) :
    applyLog gob (some data) = (do StateContext.apply entry; pure none) := by
  rw [Gob.readEntry] at h
  rcases RawLogEntry.decode_cases data with ⟨-, raw, hraw⟩ | ⟨-, hraw⟩
  · rw [hraw] at h
    dsimp only at h
    cases hopt : Opt.ofCode raw.opt with
    | none =>
        rw [hopt] at h
        cases h
    | some opt =>
        rw [hopt] at h
        obtain ⟨value, hvalue, rfl⟩ := Option.map_eq_some_iff.mp h
        rw [applyLog, hraw]
        show (match Opt.ofCode raw.opt with
          | none => (pure none : Eff StateContext (Option ApplyError))
          | some opt =>
              match gob.decode opt.body raw.data with
              | none => pure (some .undecodable)
              | some value => do StateContext.apply (opt.entry value); pure none) = _
        rw [hopt]
        dsimp only
        rw [hvalue]
  · rw [hraw] at h
    cases h

/-- `Apply` on a byte string: it panics on one that is shorter than a header,
leaves the state alone on one it cannot read, and applies the entry otherwise. -/
theorem run_applyLog (data : List UInt8) (ctx : StateContext) :
    (data.length < headerSize ∧
        EStateM.run (applyLog gob (some data)) ctx = .error (.panic .sliceBounds) ctx) ∨
      (headerSize ≤ data.length ∧ gob.readEntry data = none ∧
        ∃ answer, EStateM.run (applyLog gob (some data)) ctx = .ok answer ctx) ∨
      (headerSize ≤ data.length ∧ ∃ entry, gob.readEntry data = some entry ∧
        EStateM.run (applyLog gob (some data)) ctx =
          EStateM.run (do StateContext.apply entry; pure none) ctx) := by
  rcases RawLogEntry.decode_cases data with ⟨hlength, raw, hraw⟩ | ⟨hlength, hraw⟩
  · right
    cases hread : gob.readEntry data with
    | some entry =>
        exact Or.inr ⟨hlength, entry, rfl, by rw [applyLog_of_read gob hread]⟩
    | none =>
        left
        refine ⟨hlength, rfl, ?_⟩
        rw [Gob.readEntry, hraw] at hread
        rw [applyLog, hraw]
        dsimp only at hread
        rw [EStateM.run_bind, run_ofPure_ok]
        dsimp only
        cases hopt : Opt.ofCode raw.opt with
        | none => exact ⟨_, rfl⟩
        | some opt =>
            rw [hopt] at hread
            dsimp only
            rw [Option.map_eq_none_iff.mp hread]
            exact ⟨_, rfl⟩
  · refine Or.inl ⟨hlength, ?_⟩
    rw [applyLog, hraw]
    rfl

end Apply

/-! ## A log that was written -/

/-- A call of `AppendLogEntry`: it returned nil, or an error. -/
inductive Append
  | confirmed (entry : LogEntry)
  | failed (entry : LogEntry)

def Append.entry : Append → LogEntry
  | .confirmed entry => entry
  | .failed entry => entry

def Append.confirmedEntry : Append → Option LogEntry
  | .confirmed entry => some entry
  | .failed _ => none

/-- `AppendLogEntry` on the byte strings raft commits. -/
inductive AppendStep (gob : Gob) : List (List UInt8) → Append → List (List UInt8) → Prop
  | confirmed {log : List (List UInt8)} {entry : LogEntry} {data : List UInt8}
      (hencode : gob.encodeEntry entry = some data) :
      AppendStep gob log (.confirmed entry) (log ++ [data])
  /-- `encode` failed, or raft did not take the entry. -/
  | refused (log : List (List UInt8)) (entry : LogEntry) : AppendStep gob log (.failed entry) log
  /-- The future failed, but the entry is committed: leadership was lost. -/
  | unconfirmed {log : List (List UInt8)} {entry : LogEntry} {data : List UInt8}
      (hencode : gob.encodeEntry entry = some data) :
      AppendStep gob log (.failed entry) (log ++ [data])

section Written

variable {gob : Gob}

/-- The bytes of a list of entries. -/
def Written (gob : Gob) : List LogEntry → List (List UInt8) → Prop :=
  List.Forall₂ fun entry data => gob.encodeEntry entry = some data

/-- What a run of calls has added to the log: the bytes of some of the entries,
in the order of the calls, and of every entry that was confirmed. -/
theorem written_of_run {log log' : List (List UInt8)} {calls : List Append}
    (hrun : Run (AppendStep gob) log calls log') :
    ∃ entries added, log' = log ++ added ∧ Written gob entries added ∧
      entries.Sublist (calls.map Append.entry) ∧
      (calls.filterMap Append.confirmedEntry).Sublist entries := by
  induction hrun with
  | nil => exact ⟨[], [], by simp, .nil, .slnil, .slnil⟩
  | cons hstep hrest ih =>
      obtain ⟨entries, added, rfl, hwritten, htaken, hconfirmed⟩ := ih
      cases hstep with
      | @confirmed entry data hencode =>
          exact ⟨entry :: entries, data :: added, by simp, .cons hencode hwritten,
            htaken.cons_cons entry, hconfirmed.cons_cons entry⟩
      | refused entry => exact ⟨entries, added, rfl, hwritten, htaken.cons entry, hconfirmed⟩
      | @unconfirmed entry data hencode =>
          exact ⟨entry :: entries, data :: added, by simp, .cons hencode hwritten,
            htaken.cons_cons entry, hconfirmed.cons entry⟩

theorem run_forEach_applyLog {entries : List LogEntry} {log : List (List UInt8)}
    (hwritten : Written gob entries log) (ctx : StateContext) :
    EStateM.run (forEach log fun data => applyLog gob (some data)) ctx =
      EStateM.run (forEach entries StateContext.apply) ctx := by
  induction hwritten generalizing ctx with
  | nil => rfl
  | @cons entry data entries log hencode _ ih =>
      rw [run_forEach_cons, run_forEach_cons,
        applyLog_of_read gob (gob.readEntry_of_encodeEntry hencode), EStateM.run_bind]
      cases EStateM.run (StateContext.apply entry) ctx with
      | ok u ctx' => exact ih ctx'
      | error e ctx' => rfl

/-- A log written by calls of `AppendLogEntry` holds entries of these calls, in
their order, with every confirmed one; and a node that applies its bytes goes
through the same states, and ends in the same way, as one that applies them. -/
theorem appended_log_replays {log : List (List UInt8)} {calls : List Append}
    (hrun : Run (AppendStep gob) [] calls log) :
    ∃ entries : List LogEntry,
      entries.Sublist (calls.map Append.entry) ∧
      (calls.filterMap Append.confirmedEntry).Sublist entries ∧
      log.map gob.readEntry = entries.map some ∧
      ∀ ctx, EStateM.run (forEach log fun data => applyLog gob (some data)) ctx =
        EStateM.run (forEach entries StateContext.apply) ctx := by
  obtain ⟨entries, added, rfl, hwritten, htaken, hconfirmed⟩ := written_of_run hrun
  refine ⟨entries, htaken, hconfirmed, ?_, run_forEach_applyLog hwritten⟩
  clear hrun htaken hconfirmed
  induction hwritten with
  | nil => rfl
  | cons hencode _ ih =>
      rw [List.map_cons, List.map_cons, gob.readEntry_of_encodeEntry hencode, ih]

/-- The stream `encoding/gob` makes of `removeHttpProxyBody{Port: 8080}` when it
is the first type of the process: the type with its one field, and the value. -/
def removeStream : List UInt8 :=
  [0x2a, 0xff, 0x81, 0x03, 0x01, 0x01, 0x13] ++
    -- removeHttpProxyBody
    [0x72, 0x65, 0x6d, 0x6f, 0x76, 0x65, 0x48, 0x74, 0x74, 0x70, 0x50, 0x72, 0x6f, 0x78, 0x79,
      0x42, 0x6f, 0x64, 0x79] ++
    [0x01, 0xff, 0x82, 0x00, 0x01, 0x01, 0x01, 0x04] ++
    -- Port
    [0x50, 0x6f, 0x72, 0x74] ++ [0x01, 0x04, 0x00, 0x00, 0x00] ++
    [0x07, 0xff, 0x82, 0x01, 0xfe, 0x3f, 0x20, 0x00]

/-- A codec for that value. -/
def removeGob : Gob where
  encode
    | .removeHttpProxyBody, body =>
        if RemoveHttpProxyBody.port body = 8080 then some removeStream else none
    | _, _ => none
  decode
    | .removeHttpProxyBody, data => if data = removeStream then some ⟨8080⟩ else none
    | _, _ => none
  decode_encode := by
    intro type body data h
    cases type with
    | removeHttpProxyBody =>
        dsimp only at h ⊢
        split at h
        · next hport =>
            cases h
            rw [if_pos rfl, ← hport]
            rfl
        · cases h
    | _ => cases h

theorem appended_log_replays_remove : ∃ entries : List LogEntry,
    entries.Sublist [.rmvHttpProxy ⟨8080⟩, .rmvHttpProxy ⟨8080⟩] ∧
    [LogEntry.rmvHttpProxy ⟨8080⟩].Sublist entries ∧
    ([[0, 8, 0, 0] ++ removeStream].map removeGob.readEntry = entries.map some) ∧
    ∀ ctx, EStateM.run (forEach [[0, 8, 0, 0] ++ removeStream] fun data =>
        applyLog removeGob (some data)) ctx =
      EStateM.run (forEach entries StateContext.apply) ctx :=
  appended_log_replays
    (.cons (.refused [] (.rmvHttpProxy ⟨8080⟩)) (.single (.confirmed (show
      removeGob.encodeEntry (.rmvHttpProxy ⟨8080⟩) = some ([0, 8, 0, 0] ++ removeStream) by
        decide +kernel))))

end Written

/-! ## A node that reads bytes -/

/-- What happens on a node whose entries are byte strings. -/
inductive RawEvent
  | apply (log : Option (List UInt8))
  | serve (port : Int) (peerAvailable : Bool) (allow : QpsRateLimiter → Bool)
      (r : Utils.Request)
  | finish (port : Int)

/-- The event of a node that reads entries, when there is one. -/
def RawEvent.event (gob : Gob) : RawEvent → Option Event
  | .apply none => none
  | .apply (some data) => (gob.readEntry data).map .apply
  | .serve port peerAvailable allow r => some (.serve port peerAvailable allow r)
  | .finish port => some (.finish port)

inductive RawStep (gob : Gob) : StateContext → RawEvent → StateContext → Prop
  | apply {ctx ctx' : StateContext} {log : Option (List UInt8)} {answer : Option ApplyError}
      (hrun : EStateM.run (applyLog gob log) ctx = .ok answer ctx') :
      RawStep gob ctx (.apply log) ctx'
  | serve (ctx : StateContext) (port : Int) (peerAvailable : Bool)
      (allow : QpsRateLimiter → Bool) (r : Utils.Request) :
      RawStep gob ctx (.serve port peerAvailable allow r) (ctx.serve port peerAvailable allow r)
  | finish {ctx : StateContext} {port : Int} (hpending : .shuttingDown port ∈ ctx.goroutines) :
      RawStep gob ctx (.finish port) (StateContext.finishShutdown port ctx)

/-- The bytes of an event have a header. -/
def RawEvent.HasHeader : RawEvent → Prop
  | .apply (some data) => headerSize ≤ data.length
  | _ => True

section RawRuns

variable {gob : Gob} {ctx ctx' : StateContext}

/-- The step of an event that reads as none. -/
theorem rawStep_unread_iff {event : RawEvent} (hunread : event.event gob = none) :
    RawStep gob ctx event ctx' ↔ event.HasHeader ∧ ctx' = ctx := by
  cases event with
  | serve port peerAvailable allow r => cases hunread
  | finish port => cases hunread
  | apply log =>
      cases log with
      | none =>
          constructor
          · rintro (⟨hrun⟩)
            cases hrun
            exact ⟨trivial, rfl⟩
          · rintro ⟨-, rfl⟩
            have hnil : EStateM.run (applyLog gob none) ctx' = .ok none ctx' := rfl
            exact .apply hnil
      | some data =>
          have hread : gob.readEntry data = none := Option.map_eq_none_iff.mp hunread
          rcases run_applyLog gob data ctx with
            ⟨hshort, hrun⟩ | ⟨hheader, -, answer, hrun⟩ | ⟨-, entry, hentry, -⟩
          · constructor
            · rintro (⟨hreturned⟩)
              rw [hrun] at hreturned
              cases hreturned
            · rintro ⟨hheader, -⟩
              exact absurd hheader (Nat.not_le.mpr hshort)
          · constructor
            · rintro (⟨hreturned⟩)
              rw [hrun] at hreturned
              cases hreturned
              exact ⟨hheader, rfl⟩
            · rintro ⟨-, rfl⟩
              exact .apply hrun
          · rw [hread] at hentry
            cases hentry

/-- The step of an event that is read. -/
theorem rawStep_read_iff {event : RawEvent} {read : Event} (hread : event.event gob = some read) :
    RawStep gob ctx event ctx' ↔ event.HasHeader ∧ Step ctx read ctx' := by
  cases event with
  | serve port peerAvailable allow r =>
      cases hread
      constructor
      · rintro (_ | _)
        exact ⟨trivial, .serve ctx port peerAvailable allow r⟩
      · rintro ⟨-, hstep⟩
        cases hstep
        exact .serve ctx port peerAvailable allow r
  | finish port =>
      cases hread
      constructor
      · rintro (_ | _ | hpending)
        exact ⟨trivial, .finish hpending⟩
      · rintro ⟨-, hstep⟩
        cases hstep with
        | finish hpending => exact .finish hpending
  | apply log =>
      cases log with
      | none => cases hread
      | some data =>
          obtain ⟨entry, hentry, rfl⟩ := Option.map_eq_some_iff.mp hread
          have hread := applyLog_of_read gob hentry
          constructor
          · rintro (⟨hreturned⟩)
            rw [hread] at hreturned
            obtain ⟨u, ctx₁, happly, hpure⟩ := run_bind_ok hreturned
            cases hpure
            exact ⟨gob.header_of_readEntry hentry, .apply happly⟩
          · rintro ⟨-, hstep⟩
            cases hstep with
            | apply happly =>
                have happlied : EStateM.run (applyLog gob (some data)) ctx = .ok none ctx' := by
                  rw [hread, EStateM.run_bind, happly]
                  rfl
                exact .apply happlied

/-- A node that reads bytes goes from one state to another exactly when every
byte string has a header and a node goes there by the entries that are read:
what is not read changes nothing. -/
theorem raw_run_iff {events : List RawEvent} :
    Run (RawStep gob) ctx events ctx' ↔
      (∀ event ∈ events, event.HasHeader) ∧
        Run Step ctx (events.filterMap (RawEvent.event gob)) ctx' := by
  induction events generalizing ctx with
  | nil =>
      constructor
      · rintro (_ | _)
        exact ⟨by simp, .nil _⟩
      · rintro ⟨-, hrun⟩
        cases hrun
        exact .nil _
  | cons event events ih =>
      cases hevent : event.event gob with
      | none =>
          rw [List.filterMap_cons_none hevent]
          constructor
          · rintro (_ | ⟨hstep, hrest⟩)
            obtain ⟨hheader, rfl⟩ := (rawStep_unread_iff hevent).mp hstep
            obtain ⟨hheaders, hrun⟩ := ih.mp hrest
            exact ⟨List.forall_mem_cons.mpr ⟨hheader, hheaders⟩, hrun⟩
          · rintro ⟨hheaders, hrun⟩
            obtain ⟨hheader, hheaders⟩ := List.forall_mem_cons.mp hheaders
            exact .cons ((rawStep_unread_iff hevent).mpr ⟨hheader, rfl⟩)
              (ih.mpr ⟨hheaders, hrun⟩)
      | some read =>
          rw [List.filterMap_cons_some hevent]
          constructor
          · rintro (_ | ⟨hstep, hrest⟩)
            obtain ⟨hheader, hread⟩ := (rawStep_read_iff hevent).mp hstep
            obtain ⟨hheaders, hrun⟩ := ih.mp hrest
            exact ⟨List.forall_mem_cons.mpr ⟨hheader, hheaders⟩, .cons hread hrun⟩
          · rintro ⟨hheaders, hrun⟩
            obtain ⟨hheader, hheaders⟩ := List.forall_mem_cons.mp hheaders
            cases hrun with
            | cons hread hrest =>
                exact .cons ((rawStep_read_iff hevent).mpr ⟨hheader, hread⟩)
                  (ih.mpr ⟨hheaders, hrest⟩)

/-- Whatever bytes a new node reads, its proxies are sound. -/
theorem raw_run_sound {listens : Nat → Bool} {events : List RawEvent}
    (hrun : Run (RawStep gob) (newStateContext listens) events ctx) : ctx.Sound :=
  hrun.invariant (P := StateContext.Sound) (fun _ event _ h hstep => by
    cases hevent : event.event gob with
    | none =>
        obtain ⟨-, rfl⟩ := (rawStep_unread_iff hevent).mp hstep
        exact h
    | some read => exact step_sound h ((rawStep_read_iff hevent).mp hstep).2)
    (StateContext.sound_newStateContext listens)

end RawRuns

end Cluster
end VermouthGateway
