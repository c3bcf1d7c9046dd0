import VermouthGateway.Cluster.Reachable

/-!
# Stopped proxies

A request with state 2 clears the flag `Available` of a proxy, and one with
state 1 sets it.  Creation, decoding and the `Start` that `StateContext.Restore`
runs for every proxy write it, too.

* `StopStep` is a step of a node together with the ports that were stopped.
* `StopStep.holds_iff`: which steps leave every stopped proxy without the flag.
* `stopped_stays`: a run of such steps.
* `restore_starts`: a snapshot is taken and restored, and the proxy runs again.
-/

namespace VermouthGateway
namespace Cluster

open Go Proxy Runs

namespace StateContext

variable {ctx : StateContext} {port : Int} {proxy : HttpReverseProxy}

/-- The flag of the proxy on a port. -/
def availableAt (ctx : StateContext) (port : Int) : Option Bool :=
  (ctx.httpReverseProxyList.lookup port).map HttpReverseProxy.available

theorem availableAt_eq_some_iff {available : Bool} :
    ctx.availableAt port = some available ↔
      ∃ proxy, ctx.httpReverseProxyList.lookup port = some proxy ∧
        proxy.available = available :=
  Option.map_eq_some_iff

/-- A proxy that was changed and put back. -/
theorem availableAt_insert {goroutines : List Goroutine} {nextChan : Nat} (q : Int) :
    StateContext.availableAt { ctx with
      httpReverseProxyList := ctx.httpReverseProxyList.insert port proxy
      goroutines := goroutines
      nextChan := nextChan } q =
      if q = port then some proxy.available else ctx.availableAt q := by
  rw [availableAt, GoMap.lookup_insert_eq]
  split <;> rfl

/-- Whatever a request does, the flag is what it was. -/
theorem availableAt_serve (port : Int) (peerAvailable : Bool) (allow : QpsRateLimiter → Bool)
    (r : Utils.Request) (q : Int) :
    (ctx.serve port peerAvailable allow r).availableAt q = ctx.availableAt q := by
  rw [serve]
  cases hproxy : ctx.httpReverseProxyList.lookup port with
  | none =>
      rw [run_onProxy_none hproxy]
      rfl
  | some proxy =>
      rw [run_onProxy_some hproxy, memory_embed]
      rw [availableAt_insert, (frame_serveHTTP proxy peerAvailable allow r).2]
      split
      · next heq =>
          subst heq
          exact (availableAt_eq_some_iff.mpr ⟨proxy, hproxy, rfl⟩).symm
      · rfl

end StateContext

/-! ## Stopped ports -/

/-- The ports that are stopped after an entry. -/
def LogEntry.stops (entry : LogEntry) (stopped : Finset Int) : Finset Int :=
  match entry.call with
  | none => stopped
  | some (port, call) =>
      match call.switch with
      | none => stopped
      | some true => stopped.erase port
      | some false => insert port stopped

/-- Only requests stop a proxy and start it again. -/
def NodeEvent.stops : NodeEvent → Finset Int → Finset Int
  | .on (.apply entry), stopped => entry.stops stopped
  | _, stopped => stopped

/-- A node, and the ports whose proxies were stopped and neither started nor
closed since. -/
structure StoppedNode where
  node : Node
  stopped : Finset Int

/-- A proxy that is closed is not on its port any more. -/
inductive StopStep : StoppedNode → NodeEvent → StoppedNode → Prop
  | step {s : StoppedNode} {event : NodeEvent} {node : Node}
      (hstep : NodeStep s.node event node) :
      StopStep s event
        ⟨node, (event.stops s.stopped).filter (· ∈ node.ctx.httpReverseProxyList)⟩

/-- Every stopped proxy is without the flag. -/
def StoppedNode.Holds (s : StoppedNode) : Prop :=
  ∀ port ∈ s.stopped, s.node.ctx.availableAt port = some false

/-- The step does not start a stopped proxy behind the back of the requests: a
restore decodes it as stopped, and no goroutine of a restore calls `Start` on it. -/
def NodeEvent.LeavesStopped (stopped : Finset Int) : NodeEvent → Prop
  | .on _ => True
  | .started port => port ∉ stopped
  | .restore _ snapshot | .restoreFromSnap _ snapshot =>
      ∀ port ∈ stopped, ∀ s, snapshot.lookup port = some s → s.available = false

/-! ## One step -/

section Applying

variable {ctx ctx' : StateContext} {stopped : Finset Int} {entry : LogEntry}

/-- An entry stops the proxy it says, starts the one it says, and leaves the
others. -/
theorem availableAt_apply (h : ∀ port ∈ stopped, ctx.availableAt port = some false)
    (hrun : EStateM.run (StateContext.apply entry) ctx = .ok () ctx') {q : Int}
    (hq : q ∈ entry.stops stopped) (hmem : q ∈ ctx'.httpReverseProxyList) :
    ctx'.availableAt q = some false := by
  -- a call of a proxy method writes the flag only when it is `Start` or `Stop`
  cases hcall : entry.call with
  | some target =>
      obtain ⟨port, call⟩ := target
      rw [StateContext.apply_of_call hcall] at hrun
      obtain ⟨proxy, proxy', hproxy, hbody, rfl⟩ := StateContext.run_onProxy_ok hrun
      rw [StateContext.availableAt_insert, (call.run_frame hbody).2]
      rw [LogEntry.stops, hcall] at hq
      dsimp only at hq
      cases hswitch : call.switch with
      | none =>
          rw [hswitch] at hq
          have hold := h q hq
          split
          · next heq =>
              subst heq
              obtain ⟨other, hother, havailable⟩ := StateContext.availableAt_eq_some_iff.mp hold
              cases hproxy.symm.trans hother
              exact congrArg some havailable
          · exact hold
      | some available =>
          cases available with
          | true =>
              rw [hswitch] at hq
              obtain ⟨hne, hold⟩ := Finset.mem_erase.mp hq
              rw [if_neg hne]
              exact h q hold
          | false =>
              rw [hswitch] at hq
              split
              · rfl
              · next hne => exact h q ((Finset.mem_insert.mp hq).resolve_left hne)
  | none =>
      rw [LogEntry.stops, hcall] at hq
      have hold := h q hq
      obtain ⟨proxy, hproxy, -⟩ := StateContext.availableAt_eq_some_iff.mp hold
      have hport : q ∈ ctx.httpReverseProxyList := Finmap.mem_iff.mpr ⟨proxy, hproxy⟩
      -- the other entries add a proxy, delete one, or signal one
      rcases StateContext.apply_of_no_call hcall with
        ⟨body, rfl⟩ | ⟨body, rfl⟩ | ⟨body, rfl, -, -, happly⟩
      · obtain ⟨fresh, -, rfl⟩ := StateContext.run_handleAddHttpProxy_ok hrun
        rw [StateContext.withNewProxy]
        by_cases hused : body.port ∈ ctx.httpReverseProxyList
        · rw [if_pos hused]
          exact hold
        · have hne : q ≠ body.port := fun heq => hused (heq ▸ hport)
          rw [if_neg hused, StateContext.availableAt_insert, if_neg hne]
          exact hold
      · obtain ⟨g, -, rfl⟩ := StateContext.run_handleRemoveHttpProxy_ok hrun
        have hne : q ≠ body.port := (Finmap.mem_erase.mp hmem).1
        rw [StateContext.availableAt]
        rw [GoMap.lookup_erase_eq, if_neg hne]
        exact hold
      · rw [happly] at hrun
        obtain ⟨g, -, rfl⟩ := StateContext.run_close_ok hrun
        exact hold

end Applying

section Restoring

variable {node node' : Node} {snapshot : ContextSnapshot} {order : ContextOrder}

theorem availableAt_unMarshal (q : Int) :
    (node.unMarshal snapshot).ctx.availableAt q =
      ((snapshot.lookup q).map ProxySnapshot.available).or (node.ctx.availableAt q) := by
  rw [StateContext.availableAt, Node.lookup_unMarshal]
  cases snapshot.lookup q <;> rfl

/-- When every round keeps the flag, so does the loop. -/
theorem availableAt_of_roundsDone {starts : Bool} {body : Int → Eff HttpReverseProxy Bool}
    (hbody : ∀ port proxy answer proxy',
      EStateM.run (body port) proxy = .ok answer proxy' → proxy'.available = proxy.available)
    (h : RoundsDone starts body (order.ports.keys node.ctx.httpReverseProxyList) node node')
    (q : Int) : node'.ctx.availableAt q = node.ctx.availableAt q := by
  by_cases hq : q ∈ order.ports.keys node.ctx.httpReverseProxyList
  · obtain ⟨proxy, answer, proxy', hproxy, hround, hproxy', -⟩ := h.round q hq
    rw [StateContext.availableAt, hproxy', StateContext.availableAt, hproxy]
    exact congrArg some (hbody q proxy answer proxy' hround)
  · rw [StateContext.availableAt, (h.other q hq).1, StateContext.availableAt]

theorem availableAt_restore
    (hrun : EStateM.run (Node.restore order snapshot) node = .ok () node') (q : Int) :
    node'.ctx.availableAt q =
      ((snapshot.lookup q).map ProxySnapshot.available).or (node.ctx.availableAt q) := by
  rw [← availableAt_unMarshal]
  refine availableAt_of_roundsDone ?_ (run_restore_ok hrun) q
  intro port proxy answer proxy' hround
  obtain ⟨tree, -, hrestore⟩ := run_restoreProxy_ok hround
  have havailable := available_restore hrestore
  exact havailable

theorem availableAt_restoreFromSnap
    (hrun : EStateM.run (Node.restoreFromSnap order snapshot) node = .ok () node') (q : Int) :
    node'.ctx.availableAt q =
      ((snapshot.lookup q).map ProxySnapshot.available).or (node.ctx.availableAt q) := by
  rw [← availableAt_unMarshal]
  exact availableAt_of_roundsDone (fun _ _ _ _ hround => available_restore hround)
    (run_restoreFromSnap_ok hrun) q

/-- A restore starts a goroutine for every proxy, whatever its flag. -/
theorem starting_restore (h : node.ctx.Sound) (hknown : KnownTypes snapshot)
    (hrun : EStateM.run (Node.restore order snapshot) node = .ok () node') {port : Int}
    (hport : port ∈ node'.ctx.httpReverseProxyList) : port ∈ node'.starting := by
  have hrounds := run_restore_ok hrun
  obtain ⟨proxy, answer, proxy', hproxy, hround, -, hstarting⟩ := hrounds.round port
    ((order.ports.mem_keys _ _).mpr ((hrounds.mem_iff port).mp hport))
  obtain ⟨-, htype⟩ := free_unMarshal h hknown hproxy
  obtain ⟨tree, -, hrestore⟩ := run_restoreProxy_ok hround
  have hanswer := restore_true
    (show ({ proxy with acl := tree } : HttpReverseProxy).prefixerType = _ from htype) hrestore
  exact hstarting.mpr (Or.inr ⟨rfl, hanswer⟩)

/-- The stopped ports after decoding. -/
theorem holds_restored_iff {stopped : Finset Int}
    (h : ∀ port ∈ stopped, node.ctx.availableAt port = some false)
    (hrestored : ∀ q, node'.ctx.availableAt q =
      ((snapshot.lookup q).map ProxySnapshot.available).or (node.ctx.availableAt q)) :
    (∀ port ∈ stopped.filter (· ∈ node'.ctx.httpReverseProxyList),
        node'.ctx.availableAt port = some false) ↔
      ∀ port ∈ stopped, ∀ s, snapshot.lookup port = some s → s.available = false := by
  constructor
  · intro hholds port hport s hs
    have havailable := hrestored port
    rw [hs, Option.map_some, Option.some_or] at havailable
    obtain ⟨proxy, hproxy, -⟩ := StateContext.availableAt_eq_some_iff.mp havailable
    have hflag := hholds port
      (Finset.mem_filter.mpr ⟨hport, Finmap.mem_iff.mpr ⟨proxy, hproxy⟩⟩)
    exact Option.some.inj (havailable.symm.trans hflag)
  · intro hsnapshot port hport
    have hstopped := (Finset.mem_filter.mp hport).1
    rw [hrestored]
    cases hs : snapshot.lookup port with
    | none => exact h port hstopped
    | some s => exact congrArg some (hsnapshot port hstopped s hs)

end Restoring

/-- A step keeps the stopped proxies stopped exactly when it starts none of
them behind the back of the requests. -/
theorem StopStep.holds_iff {s s' : StoppedNode} {event : NodeEvent} (hstep : StopStep s event s')
    (h : s.Holds) : s'.Holds ↔ event.LeavesStopped s.stopped := by
  obtain ⟨hstep⟩ := hstep
  cases hstep with
  | @on event ctx hstep =>
      refine iff_of_true ?_ trivial
      intro q hkept
      obtain ⟨hq, hmem⟩ := Finset.mem_filter.mp hkept
      cases hstep with
      | apply hrun => exact availableAt_apply h hrun hq hmem
      | serve port peerAvailable allow r =>
          exact (StateContext.availableAt_serve port peerAvailable allow r q).trans (h q hq)
      | @finish port hpending =>
          -- the port is deleted, which ends what is said about it
          have hne : q ≠ port := (Finmap.mem_erase.mp hmem).1
          show ((s.node.ctx.httpReverseProxyList.erase port).lookup q).map _ = _
          rw [GoMap.lookup_erase_eq, if_neg hne]
          exact h q hq
  | @started port ctx hmem hrun =>
      obtain ⟨proxy, proxy', hproxy, hstart, rfl⟩ := StateContext.run_onProxy_ok hrun
      have hflag := (ProxyCall.run_frame .start hstart).2
      have hstarted : ∀ q, StateContext.availableAt { s.node.ctx with
          httpReverseProxyList := s.node.ctx.httpReverseProxyList.insert port proxy' } q =
            if q = port then some true else s.node.ctx.availableAt q := by
        intro q
        rw [StateContext.availableAt_insert, hflag]
        rfl
      constructor
      · intro hholds hport
        -- `Start` writes true, so a port that counts as stopped breaks the promise
        have hcontra := hholds port (Finset.mem_filter.mpr
          ⟨hport, Finmap.mem_insert.mpr (Or.inl rfl)⟩)
        rw [hstarted, if_pos rfl] at hcontra
        cases hcontra
      · intro hport q hq
        have hq := (Finset.mem_filter.mp hq).1
        have hne : q ≠ port := fun heq => hport (heq ▸ hq)
        exact (hstarted q).trans ((if_neg hne).trans (h q hq))
  | restore hrun => exact holds_restored_iff h (availableAt_restore hrun)
  | restoreFromSnap hrun => exact holds_restored_iff h (availableAt_restoreFromSnap hrun)

/-! ## Runs -/

/-- What is promised of the stopped proxies: they are not available, and answer
every request without forwarding it. -/
def StoppedNode.Refuses (s : StoppedNode) : Prop :=
  ∀ port ∈ s.stopped, ∃ proxy, s.node.ctx.httpReverseProxyList.lookup port = some proxy ∧
    proxy.available = false ∧ ∀ peerAvailable allow r,
      EStateM.run (HttpReverseProxy.serveHTTP peerAvailable allow r) proxy = .ok .notFound proxy

theorem StoppedNode.Holds.refuses {s : StoppedNode} (h : s.Holds) : s.Refuses := by
  intro port hport
  obtain ⟨proxy, hproxy, havailable⟩ := StateContext.availableAt_eq_some_iff.mp (h port hport)
  refine ⟨proxy, hproxy, havailable, fun peerAvailable allow r => ?_⟩
  rw [HttpReverseProxy.serveHTTP, EStateM.run_bind, EStateM.run_get]
  dsimp only
  rw [havailable]
  rfl

/-- A step that starts no stopped proxy behind the back of the requests. -/
def QuietRestoreStep (s : StoppedNode) (event : NodeEvent) (s' : StoppedNode) : Prop :=
  event.LeavesStopped s.stopped ∧ StopStep s event s'

/-- In every run in which no restore starts a stopped proxy, a proxy that was
stopped stays so until a request starts it or it is closed. -/
theorem stopped_stays {node : Node} {events : List NodeEvent} {s : StoppedNode}
    (hrun : Run QuietRestoreStep ⟨node, ∅⟩ events s) : s.Refuses := by
  have hstart : StoppedNode.Holds ⟨node, ∅⟩ := fun _ hport => absurd hport (Finset.notMem_empty _)
  have h : s.Holds := Run.invariant (P := StoppedNode.Holds)
    (fun _ _ _ h hstep => (hstep.2.holds_iff h).mpr hstep.1) hrun hstart
  exact h.refuses

/-- A new proxy that is stopped. -/
theorem apply_stop : ∃ ctx₁ ctx₂ proxy,
    EStateM.run (StateContext.apply (.addHttpProxy ⟨8080, typeHashPrefixer⟩))
      (newStateContext fun _ => true) = .ok () ctx₁ ∧
    EStateM.run (StateContext.apply (.chgState ⟨8080, 2⟩)) ctx₁ = .ok () ctx₂ ∧
    ctx₂.httpReverseProxyList = (∅ : GoMap Int HttpReverseProxy).insert 8080 proxy ∧
    proxy.available = false ∧ proxy.paths = ∅ ∧ proxy.rateLimiterType = ∅ ∧
    proxy.acl.record = ∅ :=
  ⟨_, _, _, rfl, rfl, rfl, rfl, rfl, rfl, rfl⟩

/-- It is stopped in the snapshot that is taken then and restored. -/
theorem run_stop_restore : ∃ events s, Run QuietRestoreStep ⟨emptyNode, ∅⟩ events s ∧
    8080 ∈ s.stopped ∧ 8080 ∈ s.node.starting ∧ s.node.ctx.Sound := by
  obtain ⟨ctx₁, ctx₂, proxy, hadd, hstop, hlist, havailable, hpaths, hlimiters, hrecord⟩ :=
    apply_stop
  have hsound : ctx₂.Sound := StateContext.apply_sound (StateContext.apply_sound
    (reachable_empty fun _ => true).sound hadd) hstop
  have hproxy : ctx₂.httpReverseProxyList.lookup 8080 = some proxy := by
    rw [hlist, Finmap.lookup_insert]
  have hport : 8080 ∈ ctx₂.httpReverseProxyList := Finmap.mem_iff.mpr ⟨proxy, hproxy⟩
  have hmarshal : ∀ q, ctx₂.marshal.lookup q = if q = 8080 then some proxy.encode else none := by
    intro q
    rw [StateContext.lookup_marshal, hlist, GoMap.lookup_insert_eq]
    split <;> rfl
  have hdecoded : ∀ readd order,
      Completes (EStateM.run (restoreProxy readd order) proxy.encode.decode) := by
    intro readd order
    refine (completes_restoreProxy_decode_iff readd order proxy.encode).mpr
      ⟨fun text htext => ?_, Or.inr ⟨fun k hk => ?_, fun k infos hk => ?_⟩⟩
    · rw [show proxy.encode.record = proxy.acl.record from rfl, hrecord] at htext
      exact absurd htext Finmap.notMem_empty
    · rw [show proxy.encode.decode.paths = proxy.paths from rfl, hpaths] at hk
      exact absurd hk Finmap.notMem_empty
    · rw [show proxy.encode.decode.rateLimiterType = proxy.rateLimiterType from rfl,
        hlimiters] at hk
      cases hk
  obtain ⟨node', hrestore⟩ : ∃ node',
      EStateM.run (Node.restore .sorted ctx₂.marshal) ⟨ctx₂, []⟩ = .ok () node' := by
    refine run_restore_of_rounds (fun q s hs => ?_) fun q habsent other hother => ?_
    · rw [hmarshal] at hs
      split at hs
      · cases hs
        exact hdecoded _ _
      · cases hs
    · rw [hlist, GoMap.lookup_insert_eq] at hother
      split at hother
      · next hq =>
          refine absurd (Finmap.mem_iff.mpr ⟨proxy.encode, ?_⟩) habsent
          rw [hmarshal, if_pos hq]
      · cases hother
  have hport' : 8080 ∈ node'.ctx.httpReverseProxyList :=
    (mem_restore hrestore 8080).mpr (Or.inr hport)
  have hknown := knownTypes_marshal hsound
  have hstarting : 8080 ∈ node'.starting := starting_restore hsound hknown hrestore hport'
  refine ⟨[.on (.apply (.addHttpProxy ⟨8080, typeHashPrefixer⟩)),
      .on (.apply (.chgState ⟨8080, 2⟩)), .restore .sorted ctx₂.marshal], _,
    .cons ⟨trivial, .step (.on (.apply hadd))⟩
      (.cons ⟨trivial, .step (.on (.apply hstop))⟩ (.single ⟨?_, .step (.restore hrestore)⟩)),
    ?_, hstarting, sound_restored hsound hknown hrestore⟩
  · -- the snapshot has the flag that `Stop` wrote
    intro port _ s hs
    rw [hmarshal] at hs
    split at hs
    · cases hs
      exact havailable
    · cases hs
  · refine Finset.mem_filter.mpr ⟨Finset.mem_filter.mpr ⟨?_, hport⟩, hport'⟩
    exact Finset.mem_insert_self _ _

theorem stopped_stays_restored : ∃ events s, Run QuietRestoreStep ⟨emptyNode, ∅⟩ events s ∧
    8080 ∈ s.stopped ∧ s.Refuses := by
  obtain ⟨events, s, hrun, hstopped, -, -⟩ := run_stop_restore
  exact ⟨events, s, hrun, hstopped, stopped_stays hrun⟩

/-- The goroutine that the restore has started runs. -/
theorem restore_starts : ¬ ∀ (node : Node) (events : List NodeEvent) (s : StoppedNode),
    Reachable node → Run StopStep ⟨node, ∅⟩ events s → s.Refuses := by
  intro hclaim
  obtain ⟨events, s, hrun, hstopped, hstarting, hsound⟩ := run_stop_restore
  have hquiet := hrun.mono fun _ _ _ hstep => hstep.2
  obtain ⟨proxy, hproxy, -, -⟩ := hclaim _ _ _ (reachable_empty _) hquiet 8080 hstopped
  have hstart : EStateM.run (StateContext.onProxy 8080 HttpReverseProxy.start) s.node.ctx =
      .ok () { s.node.ctx with
        httpReverseProxyList := s.node.ctx.httpReverseProxyList.insert 8080
          { proxy with available := true } } := by
    rw [StateContext.run_onProxy_some hproxy,
      HttpReverseProxy.run_start (hsound 8080 proxy hproxy).free]
    rfl
  have hstarted : StopStep s (.started 8080) _ := .step (.started hstarting hstart)
  obtain ⟨found, hfound, havailable, -⟩ := hclaim _ _ _ (reachable_empty _)
    (hquiet.append (.single hstarted)) 8080 (Finset.mem_filter.mpr
      ⟨hstopped, Finmap.mem_insert.mpr (Or.inl rfl)⟩)
  rw [Finmap.lookup_insert] at hfound
  cases hfound
  cases havailable

end Cluster
end VermouthGateway
