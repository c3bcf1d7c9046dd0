import VermouthGateway.Cluster.StandStore
import VermouthGateway.Cluster.Ports
import VermouthGateway.Proxy.Replays

/-!
# Limits across restarts of stand mode

A restart replays the recorded infos of the file, and records each of them again.
`SetRateLimit` changes the first info of a path, the last one makes its limiter, and
after one restart these are two infos.

* `StandEvent.limitAfter`: the limit of a path as it is meant: what was set since the
  last restart, or else what the path had after the first one.
* `Generation`: how many restarts a state has behind it, and the file.
* `LimitInherited.step`: every step does what they say.
* `restarts_undo_limits`: so a limit that is set after a restart is lost in the next one,
  although it was written to the file.
* `restarts_double_infos`: and every restart doubles the infos of a path.
-/

namespace VermouthGateway
namespace Cluster

open Go Proxy Balancing Runs Replays

/-- The limit of a path on a port. -/
def StateContext.limitOn (ctx : StateContext) (port : Int) (path : String) :
    Option (Limit × Int) :=
  (ctx.httpReverseProxyList.lookup port).bind fun proxy => limitOf proxy path

/-- The infos recorded on a port. -/
def StateContext.infosOn (ctx : StateContext) (port : Int) : GoMap String (List LimiterInfo) :=
  match ctx.httpReverseProxyList.lookup port with
  | none => ∅
  | some proxy => proxy.rateLimiterType

/-- The infos a snapshot has of a port. -/
def snapshotInfos (snapshot : ContextSnapshot) (port : Int) : GoMap String (List LimiterInfo) :=
  match snapshot.lookup port with
  | none => ∅
  | some proxy => proxy.rateLimiterType

/-- How many infos a prefix records of a path. -/
def copies (recorded : GoMap String (List LimiterInfo)) (prefixPath path : String) : Nat :=
  ((recorded.get prefixPath []).filter (LimiterInfo.limits prefixPath path)).length

/-! ## What is meant -/

/-- The entry neither removes the proxy of the port nor the limiter of the path. -/
def LogEntry.LeavesLimit (port : Int) (prefixPath path : String) (entry : LogEntry) : Prop :=
  (∀ call, entry.call = some (port, call) → call.LeavesLimit prefixPath path) ∧
    ∀ body, entry = .rmvHttpProxy body → body.port ≠ port

def Event.LeavesLimit (port : Int) (prefixPath path : String) : Event → Prop
  | .apply entry => entry.LeavesLimit port prefixPath path
  | .serve _ _ _ _ => True
  | .finish q => q ≠ port

def StandEvent.LeavesLimit (port : Int) (prefixPath path : String) : StandEvent → Prop
  | .on event => event.LeavesLimit port prefixPath path
  | _ => True

/-- A step that leaves the limit of the path; a restart comes when the file is written. -/
def LeavingStep (confs : List HttpProxyArgs) (port : Int) (prefixPath path : String)
    (s : StandNode) (event : StandEvent) (s' : StandNode) : Prop :=
  StandStep confs s event s' ∧ event.LeavesLimit port prefixPath path ∧
    (event = .restarted → s.file ≠ .empty)

def LogEntry.limitAfter (port : Int) (path : String) (rate : Limit × Int) (entry : LogEntry) :
    Limit × Int :=
  match entry.call with
  | none => rate
  | some (q, call) => if q = port then call.limitAfter path rate else rate

def Event.limitAfter (port : Int) (path : String) (rate : Limit × Int) : Event → Limit × Int
  | .apply entry => entry.limitAfter port path rate
  | _ => rate

/-- The limit after an event, when the first restart left `first`. -/
def StandEvent.limitAfter (port : Int) (path : String) (first : Limit × Int)
    (rate : Limit × Int) : StandEvent → Limit × Int
  | .on event => event.limitAfter port path rate
  | .restarted => first
  | .opened | .encoded => rate

/-- The number of restarts behind a state, and behind the one in the file. -/
structure Generation where
  now : Nat
  saved : SnapFile Nat

def Generation.next (g : Generation) : StandEvent → Generation
  | .on _ => g
  | .opened => { g with saved := .empty }
  | .encoded => { g with saved := .holds g.now }
  | .restarted =>
      match g.saved with
      | .holds n => { g with now := n + 1 }
      | _ => { g with now := 0 }

/-! ## Steps -/

/-- The port has its proxy, and the path its limiter. -/
def LimitOn (port : Int) (prefixPath path : String) (n : Nat) (last : LimiterInfo)
    (rate : Limit × Int) (ctx : StateContext) : Prop :=
  ∃ proxy, ctx.httpReverseProxyList.lookup port = some proxy ∧
    LimitKept prefixPath path n last rate proxy

section Steps

variable {port : Int} {prefixPath path : String} {n : Nat} {last : LimiterInfo}
  {rate : Limit × Int} {ctx ctx' : StateContext}

namespace LimitOn

theorem apply (h : LimitOn port prefixPath path n last rate ctx) {entry : LogEntry}
    (hleaves : entry.LeavesLimit port prefixPath path)
    (hrun : EStateM.run (StateContext.apply entry) ctx = .ok () ctx') :
    LimitOn port prefixPath path n last (entry.limitAfter port path rate) ctx' := by
  have hport : OnPort port (LimitKept prefixPath path n last rate) ctx := h
  refine hport.apply (fun call proxy proxy' hcall hkept hbody => ?_) (fun hnone proxy hkept => ?_)
    hleaves.2 hrun
  · rw [LogEntry.limitAfter, hcall]
    dsimp only
    rw [if_pos rfl]
    exact call.run_limitKept hkept (hleaves.1 call hcall) hbody
  · have hsame : entry.limitAfter port path rate = rate := by
      rw [LogEntry.limitAfter]
      cases htarget : entry.call with
      | none => rfl
      | some target =>
          obtain ⟨q, call⟩ := target
          exact if_neg fun hq => hnone call (by rw [htarget, hq])
    rw [hsame]
    exact hkept

theorem step (h : LimitOn port prefixPath path n last rate ctx) {event : Event}
    (hleaves : event.LeavesLimit port prefixPath path) (hstep : Step ctx event ctx') :
    LimitOn port prefixPath path n last (event.limitAfter port path rate) ctx' := by
  have hport : OnPort port (LimitKept prefixPath path n last rate) ctx := h
  cases hstep with
  | apply hrun => exact h.apply hleaves hrun
  | serve q peerAvailable allow r =>
      exact hport.serve q peerAvailable allow r
        (fun _ proxy hkept => limitKept_serveHTTP hkept peerAvailable allow r)
        fun _ _ hkept => hkept
  | finish hpending => exact hport.finish (fun _ hkept => hkept) hleaves

end LimitOn

/-- A restart restores the proxy that the file has for a port. -/
theorem restored_on_port {order : ContextOrder} {listens : Nat → Bool}
    {snapshot : ContextSnapshot} {node : Node} {proxy : HttpReverseProxy}
    (hrun : EStateM.run (Node.restoreFromSnap order snapshot) ⟨newStateContext listens, []⟩ =
      .ok () node) :
    node.ctx.httpReverseProxyList.lookup port = some proxy ↔ ∃ saved answer,
      snapshot.lookup port = some saved ∧
        EStateM.run (HttpReverseProxy.restore (order.rest port)) saved.decode =
          .ok answer proxy := by
  have hdone := run_restoreFromSnap_ok hrun
  have hmerged : ((⟨newStateContext listens, []⟩ : Node).unMarshal
      snapshot).ctx.httpReverseProxyList.lookup port =
        (snapshot.lookup port).map ProxySnapshot.decode :=
    (Node.lookup_unMarshal snapshot _ port).trans Option.or_none
  -- a port of the file has its round
  have hround : ∀ saved, snapshot.lookup port = some saved → ∃ answer proxy',
      EStateM.run (HttpReverseProxy.restore (order.rest port)) saved.decode =
        .ok answer proxy' ∧ node.ctx.httpReverseProxyList.lookup port = some proxy' := by
    intro saved hsaved
    rw [hsaved, Option.map_some] at hmerged
    obtain ⟨proxy₁, answer, proxy', hlookup, hbody, hrestored, -⟩ := hdone.round port
      ((order.ports.mem_keys _ _).mpr (Finmap.mem_iff.mpr ⟨_, hmerged⟩))
    cases hmerged.symm.trans hlookup
    exact ⟨answer, proxy', hbody, hrestored⟩
  constructor
  · intro hproxy
    have hmem := (hdone.mem_iff port).mp (Finmap.mem_iff.mpr ⟨proxy, hproxy⟩)
    obtain ⟨decoded, hdecoded⟩ := Finmap.mem_iff.mp hmem
    obtain ⟨saved, hsaved, -⟩ := Option.map_eq_some_iff.mp (hmerged.symm.trans hdecoded)
    obtain ⟨answer, proxy', hbody, hrestored⟩ := hround saved hsaved
    cases hproxy.symm.trans hrestored
    exact ⟨saved, answer, hsaved, hbody⟩
  · rintro ⟨saved, answer, hsaved, hbody⟩
    obtain ⟨answer', proxy', hbody', hrestored⟩ := hround saved hsaved
    cases hbody.symm.trans hbody'
    exact hrestored

end Steps

/-! ## Runs -/

/-- The file has the infos of the path, twice as many for every restart behind it. -/
inductive SavesInfos (port : Int) (prefixPath path : String) (n : Nat) (last : LimiterInfo) :
    SnapFile ContextSnapshot → SnapFile Nat → Prop
  | empty : SavesInfos port prefixPath path n last .empty .empty
  | holds {snapshot : ContextSnapshot} {saved : ProxySnapshot} {m : Nat}
      (hlookup : snapshot.lookup port = some saved)
      (htype : saved.prefixerType = typeHashPrefixer)
      (hrecord : OnRecord prefixPath path (n * 2 ^ m) last saved.rateLimiterType) :
      SavesInfos port prefixPath path n last (.holds snapshot) (.holds m)

/-- The node and its file have the infos they inherited. -/
structure LimitInherited (port : Int) (prefixPath path : String) (n : Nat) (last : LimiterInfo)
    (s : StandNode) (g : Generation) (rate : Limit × Int) : Prop where
  now : LimitOn port prefixPath path (n * 2 ^ g.now) last rate s.ctx
  saved : SavesInfos port prefixPath path n last s.file g.saved

section Runs

variable {confs : List HttpProxyArgs} {port : Int} {prefixPath path : String} {n : Nat}
  {last : LimiterInfo} {rate : Limit × Int} {s s₀ s₁ s₂ : StandNode} {g : Generation}
  {snapshot : ContextSnapshot}

/-- A restart from a file that has been written. -/
theorem inherits_restarted {m : Nat}
    (hsaved : SavesInfos port prefixPath path n last s.file (.holds m))
    (hstep : StandStep confs s .restarted s₁) :
    LimitInherited port prefixPath path n last s₁ ⟨m + 1, .holds m⟩ last.rate := by
  generalize hfile : s.file = file at hsaved
  cases hsaved with
  | @holds snapshot saved _ hlookup htype hrecord =>
      cases hstep with
      | configured habsent _ => cases hfile.symm.trans habsent
      | undecoded _ hempty => cases hfile.symm.trans hempty
      | @restored order listens _ node hholds hrun =>
          cases hfile.symm.trans hholds
          have hmem : port ∈ node.ctx.httpReverseProxyList := by
            refine ((run_restoreFromSnap_ok hrun).mem_iff port).mpr (Finmap.mem_iff.mpr ?_)
            exact ⟨_, (Node.lookup_unMarshal _ _ _).trans (by rw [hlookup]; rfl)⟩
          obtain ⟨proxy, hproxy⟩ := Finmap.mem_iff.mp hmem
          obtain ⟨saved', answer, hlookup', hbody⟩ := (restored_on_port hrun).mp hproxy
          cases hlookup.symm.trans hlookup'
          refine ⟨⟨proxy, hproxy, ?_⟩, hfile ▸ .holds hlookup htype hrecord⟩
          rw [Nat.pow_succ, ← Nat.mul_assoc]
          exact limitKept_restored rfl htype hrecord hbody

theorem LimitInherited.step (h : LimitInherited port prefixPath path n last s g rate)
    {event : StandEvent}
    (hstep : LeavingStep confs port prefixPath path s event s₁) :
    LimitInherited port prefixPath path n last s₁ (g.next event)
      (event.limitAfter port path last.rate rate) := by
  obtain ⟨hstep, hleaves, hwritten⟩ := hstep
  obtain ⟨now, saved⟩ := g
  cases event with
  | on event =>
      cases hstep with
      | on hon => exact ⟨h.now.step hleaves hon, h.saved⟩
  | opened =>
      cases hstep with
      | opened hidle => exact ⟨h.now, .empty⟩
  | encoded =>
      cases hstep with
      | encoded hwriting =>
          obtain ⟨proxy, hproxy, hkept⟩ := h.now
          have hmarshal : s.ctx.marshal.lookup port = some proxy.encode := by
            rw [StateContext.lookup_marshal, hproxy, Option.map_some]
          exact ⟨⟨proxy, hproxy, hkept⟩, .holds hmarshal hkept.type hkept.record⟩
  | restarted =>
      have hsaved := h.saved
      have hnonempty := hwritten rfl
      dsimp only at hsaved
      generalize hfile : s.file = file at hsaved hnonempty
      cases hsaved with
      | empty => exact absurd rfl hnonempty
      | holds hlookup htype hrecord =>
          exact inherits_restarted (hfile ▸ .holds hlookup htype hrecord) hstep

/-- The first restart: what the file has of the path is what is inherited. -/
theorem inherits_first (hfile : s₀.file = .holds snapshot)
    (honly : ∀ q, q ≠ prefixPath → copies (snapshotInfos snapshot port) q path = 0)
    (hrestart : StandStep confs s₀ .restarted s₁)
    (hlimit : s₁.ctx.limitOn port path = some rate) :
    ∃ last, last.rate = rate ∧ LimitInherited port prefixPath path
      (copies (snapshotInfos snapshot port) prefixPath path) last s₁ ⟨1, .holds 0⟩ rate := by
  obtain ⟨proxy, hproxy, hrate⟩ := Option.bind_eq_some_iff.mp hlimit
  have hfirst := hrestart
  cases hrestart with
  | configured habsent _ => cases hfile.symm.trans habsent
  | undecoded _ hempty => cases hfile.symm.trans hempty
  | restored hholds hrun =>
      cases hfile.symm.trans hholds
      obtain ⟨saved, answer, hlookup, hbody⟩ := (restored_on_port hrun).mp hproxy
      have hinfos : snapshotInfos snapshot port = saved.rateLimiterType := by
        rw [snapshotInfos, hlookup]
      rw [hinfos] at honly ⊢
      -- an unknown prefixer type leaves the proxy without limiters
      have htype : saved.prefixerType = typeHashPrefixer := by
        rcases HttpReverseProxy.run_restore_ok hbody with ⟨-, -, rfl⟩ | ⟨htype, -⟩
        · cases hrate
        · exact htype
      have hnone : ∀ q, q ≠ prefixPath →
          (saved.decode.rateLimiterType.get q []).filter (LimiterInfo.limits q path) = [] :=
        fun q hq => List.eq_nil_of_length_eq_zero (honly q hq)
      obtain ⟨n, last, hrecord⟩ := onRecord_of_restored htype hnone hbody (by rw [hrate]; rfl)
      have hcount : copies saved.rateLimiterType prefixPath path = n := hrecord.occurs.count
      have hsaved : SavesInfos port prefixPath path n last s₀.file (.holds 0) := by
        rw [hfile]
        exact .holds hlookup htype (by rw [Nat.pow_zero, Nat.mul_one]; exact hrecord)
      have hinherits := inherits_restarted hsaved hfirst
      obtain ⟨proxy', hproxy', hkept⟩ := hinherits.now
      cases hproxy.symm.trans hproxy'
      obtain rfl : rate = last.rate := Option.some.inj (hrate.symm.trans hkept.limit)
      exact ⟨last, rfl, hcount ▸ hinherits⟩

/-- A limit for `/api/users`. -/
def usersLimit : LogEntry := .setRateLimiter ⟨8080, "/api", "/users", "qps", 10, 5⟩

/-- What the first request to it records. -/
def usersInfo : LimiterInfo := ⟨"/users", "qps", inf, inf⟩

theorem onRecord_usersInfo : OnRecord "/api" "/api/users" 1 usersInfo
    ((∅ : GoMap String (List LimiterInfo)).insert "/api" [usersInfo]) where
  occurs := ⟨by decide +kernel, by decide +kernel⟩
  only q hq := by
    rw [GoMap.get, GoMap.lookup_insert_eq, if_neg hq]
    rfl

theorem copies_usersInfo {snapshot : ContextSnapshot}
    (hinfos : snapshotInfos snapshot 8080 =
      (∅ : GoMap String (List LimiterInfo)).insert "/api" [usersInfo]) :
    ∀ q, q ≠ "/api" → copies (snapshotInfos snapshot 8080) q "/api/users" = 0 := by
  intro q hq
  rw [hinfos, copies, onRecord_usersInfo.only q hq, List.length_nil]

theorem exists_apply_usersLimit {n : Nat} {last : LimiterInfo} {rate : Limit × Int}
    {ctx : StateContext} (h : LimitOn 8080 "/api" "/api/users" n last rate ctx) :
    ∃ ctx', EStateM.run (StateContext.apply usersLimit) ctx = .ok () ctx' := by
  obtain ⟨proxy, hproxy, hkept⟩ := h
  obtain ⟨limiters, hl, hmem⟩ := hkept.exists_limiters
  obtain ⟨limiter, hlimiter⟩ := Finmap.mem_iff.mp hmem
  have hset : EStateM.run (HttpReverseProxy.setRateLimit "/api" "/users" "qps" 10 5) proxy = _ :=
    HttpReverseProxy.run_setRateLimit hkept.free hl hlimiter
  rw [if_neg (by decide)] at hset
  have hcall : usersLimit.call = some (8080, .setRateLimit "/api" "/users" "qps" 10 5) := rfl
  rw [StateContext.apply_of_call hcall, StateContext.run_onProxy_some hproxy, ProxyCall.run, hset]
  exact ⟨_, rfl⟩

/-- The path is on record when the file is written.  After a restart it gets another
limit, which is written as well. -/
theorem exists_restarts : ∃ (ctx : StateContext) (snapshot : ContextSnapshot)
    (s₀ s₁ s₂ s₃ : StandNode),
    EStateM.run (StateContext.boot oneProxyConf (.sorted _ _)) (newStateContext fun _ => true) =
      .ok () ctx ∧
    Run (StandStep oneProxyConf) ⟨ctx, .absent, false⟩
      [.on (.serve 8080 true (fun _ => true) usersRequest), .opened, .encoded] s₀ ∧
    s₀.file = .holds snapshot ∧
    snapshotInfos snapshot 8080 = (∅ : GoMap String (List LimiterInfo)).insert "/api" [usersInfo] ∧
    StandStep oneProxyConf s₀ .restarted s₁ ∧
    s₁.ctx.limitOn 8080 "/api/users" = some usersInfo.rate ∧
    Run (LeavingStep oneProxyConf 8080 "/api" "/api/users") s₁ [.on (.apply usersLimit)] s₂ ∧
    Run (LeavingStep oneProxyConf 8080 "/api" "/api/users") s₂ [.opened, .encoded, .restarted]
      s₃ := by
  obtain ⟨ctx, hboot, hinfos⟩ : ∃ ctx,
      EStateM.run (StateContext.boot oneProxyConf (.sorted _ _)) (newStateContext fun _ => true) =
        .ok () ctx ∧
      snapshotInfos (ctx.serve 8080 true (fun _ => true) usersRequest).marshal 8080 =
        (∅ : GoMap String (List LimiterInfo)).insert "/api" [usersInfo] :=
    ⟨_, run_boot _ rfl, by decide +kernel⟩
  have hserve : Step ctx (.serve 8080 true (fun _ => true) usersRequest) _ := .serve _ _ _ _ _
  have hrouted := (routed_boot modesAgree_oneProxyConf hboot).step hserve
  have hsound := step_sound (StateContext.boot_sound hboot) hserve
  generalize ctx.serve 8080 true (fun _ => true) usersRequest = source at *
  -- the file has the port, and the info under the prefix alone
  obtain ⟨proxy, hproxy⟩ : ∃ proxy, source.httpReverseProxyList.lookup 8080 = some proxy := by
    refine Finmap.mem_iff.mp ((hrouted.mem_iff 8080).mpr ?_)
    exact Finmap.mem_insert.mpr (.inl rfl)
  have hsaved : source.marshal.lookup 8080 = some proxy.encode := by
    rw [StateContext.lookup_marshal, hproxy, Option.map_some]
  have hrecord : OnRecord "/api" "/api/users" (1 * 2 ^ 0) usersInfo
      proxy.encode.rateLimiterType := by
    have hsame : snapshotInfos source.marshal 8080 = proxy.encode.rateLimiterType := by
      rw [snapshotInfos, hsaved]
    rw [← hsame, hinfos]
    exact onRecord_usersInfo
  have hfile : SavesInfos 8080 "/api" "/api/users" 1 usersInfo (.holds source.marshal)
      (.holds 0) := .holds hsaved (hsound 8080 proxy hproxy).type hrecord
  -- the first restart
  obtain ⟨node, hnode⟩ := exists_restoreFromSnap hrouted hsound .sorted fun _ => true
  have hrestart : StandStep oneProxyConf ⟨source, .holds source.marshal, false⟩ .restarted
      ⟨node.ctx, .holds source.marshal, false⟩ := .restored rfl hnode
  have hinherited := inherits_restarted hfile hrestart
  -- the limit is set, and written
  obtain ⟨ctx₂, hset⟩ := exists_apply_usersLimit hinherited.now
  have hsetStep : Step node.ctx (.apply usersLimit) ctx₂ := .apply hset
  have hrouted₂ := (routed_restoreFromSnap hrouted hnode).step hsetStep
  have hsound₂ := step_sound (sound_restoredFromSnap (StateContext.sound_newStateContext _)
    (knownTypes_marshal hsound) hnode) hsetStep
  obtain ⟨node', hnode'⟩ := exists_restoreFromSnap hrouted₂ hsound₂ .sorted fun _ => true
  have hleaves : (StandEvent.on (.apply usersLimit)).LeavesLimit 8080 "/api" "/api/users" := by
    refine ⟨fun call hcall => ?_, fun body hbody => ?_⟩
    · cases hcall
      trivial
    · cases hbody
  -- the file is written when it is restored
  have hwritten : SnapFile.holds ctx₂.marshal ≠ .empty := by
    intro hempty
    cases hempty
  refine ⟨ctx, _, _, _, ⟨ctx₂, _, false⟩, ⟨node'.ctx, _, false⟩, hboot,
    .cons (.on hserve) (.cons (.opened rfl) (.single (.encoded rfl))), rfl, hinfos, hrestart,
    ?_, .single ⟨.on hsetStep, hleaves, StandEvent.noConfusion⟩,
    .cons ⟨.opened rfl, trivial, StandEvent.noConfusion⟩
      (.cons ⟨.encoded rfl, trivial, StandEvent.noConfusion⟩
        (.single ⟨.restored rfl hnode', trivial, fun _ => hwritten⟩))⟩
  obtain ⟨proxy', hproxy', hkept⟩ := hinherited.now
  rw [StateContext.limitOn, hproxy', Option.bind_some]
  exact hkept.limit

/-- After a restart a path keeps the limit it has then: a limit that is set later on is
in force until the next restart only, although it was written to the file. -/
theorem restarts_undo_limits {events : List StandEvent} (hfile : s₀.file = .holds snapshot)
    (honly : ∀ q, q ≠ prefixPath → copies (snapshotInfos snapshot port) q path = 0)
    (hrestart : StandStep confs s₀ .restarted s₁)
    (hlimit : s₁.ctx.limitOn port path = some rate)
    (hrun : Run (LeavingStep confs port prefixPath path) s₁ events s₂) :
    s₂.ctx.limitOn port path = some (events.foldl (StandEvent.limitAfter port path rate) rate) := by
  obtain ⟨last, rfl, hfirst⟩ := inherits_first hfile honly hrestart hlimit
  obtain ⟨g, hlast⟩ := hrun.refines_all
    (R := fun s rate => ∃ g, LimitInherited port prefixPath path _ last s g rate)
    (fun _ _ _ _ h hstep => ⟨_, h.choose_spec.step hstep⟩) ⟨_, hfirst⟩
  obtain ⟨proxy, hproxy, hkept⟩ := hlast.now
  rw [StateContext.limitOn, hproxy, Option.bind_some]
  exact hkept.limit

/-- A limit is set, written to the file and lost. -/
theorem restarts_undo_limits_users : ∃ s₁ s₂ s₃ : StandNode,
    Run (LeavingStep oneProxyConf 8080 "/api" "/api/users") s₁ [.on (.apply usersLimit)] s₂ ∧
    s₂.ctx.limitOn 8080 "/api/users" = some (every (second.tdiv 5), 10) ∧
    Run (LeavingStep oneProxyConf 8080 "/api" "/api/users") s₂ [.opened, .encoded, .restarted]
      s₃ ∧
    s₃.ctx.limitOn 8080 "/api/users" = some usersInfo.rate := by
  obtain ⟨ctx, snapshot, s₀, s₁, s₂, s₃, -, -, hfile, hinfos, hrestart, hlimit, hset, hlater⟩ :=
    exists_restarts
  have honly := copies_usersInfo hinfos
  exact ⟨s₁, s₂, s₃, hset, restarts_undo_limits hfile honly hrestart hlimit hset, hlater,
    restarts_undo_limits hfile honly hrestart hlimit (hset.append hlater)⟩

/-- Every restart behind a state has doubled the infos of the path. -/
theorem restarts_double_infos {events : List StandEvent} (hfile : s₀.file = .holds snapshot)
    (honly : ∀ q, q ≠ prefixPath → copies (snapshotInfos snapshot port) q path = 0)
    (hrestart : StandStep confs s₀ .restarted s₁)
    (hlimit : s₁.ctx.limitOn port path = some rate)
    (hrun : Run (LeavingStep confs port prefixPath path) s₁ events s₂) :
    copies (s₂.ctx.infosOn port) prefixPath path =
      copies (snapshotInfos snapshot port) prefixPath path *
        2 ^ (events.foldl Generation.next ⟨1, .holds 0⟩).now := by
  obtain ⟨last, rfl, hfirst⟩ := inherits_first hfile honly hrestart hlimit
  obtain ⟨rate, hlast⟩ := hrun.refines_all
    (R := fun s g => ∃ rate, LimitInherited port prefixPath path _ last s g rate)
    (fun _ _ _ _ h hstep => ⟨_, h.choose_spec.step hstep⟩) ⟨_, hfirst⟩
  obtain ⟨proxy, hproxy, hkept⟩ := hlast.now
  rw [StateContext.infosOn, hproxy]
  exact hkept.record.occurs.count

/-- The default info of the path, after two restarts. -/
theorem restarts_double_infos_users : ∃ s₁ s₃ : StandNode,
    Run (LeavingStep oneProxyConf 8080 "/api" "/api/users") s₁
      [.on (.apply usersLimit), .opened, .encoded, .restarted] s₃ ∧
    copies (s₃.ctx.infosOn 8080) "/api" "/api/users" = 4 := by
  obtain ⟨ctx, snapshot, s₀, s₁, s₂, s₃, -, -, hfile, hinfos, hrestart, hlimit, hset, hlater⟩ :=
    exists_restarts
  have hrun := hset.append hlater
  have hcopies := restarts_double_infos hfile (copies_usersInfo hinfos) hrestart hlimit hrun
  have hone : copies (Finmap.insert "/api" [usersInfo] ∅) "/api" "/api/users" = 1 :=
    onRecord_usersInfo.occurs.count
  rw [hinfos, hone] at hcopies
  exact ⟨s₁, s₃, hrun, hcopies⟩

end Runs

end Cluster
end VermouthGateway
