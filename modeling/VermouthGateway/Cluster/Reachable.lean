import VermouthGateway.Cluster.Events
import VermouthGateway.Cluster.Snapshot

/-!
# The states a node can reach

A node starts from a configuration.  Then entries and requests come, shutdowns
come to an end, and snapshots that some node has taken are restored; the
goroutines a restore starts run at some later point.

* `NodeStep` has one case for each of these.
* `Reachable.sound`: in every reachable state every proxy is sound.
-/

namespace VermouthGateway
namespace Cluster

open Go Proxy Balancing

inductive NodeEvent
  | on (event : Event)
  | started (port : Int)
  | restore (order : ContextOrder) (snapshot : ContextSnapshot)
  | restoreFromSnap (order : ContextOrder) (snapshot : ContextSnapshot)

/-- The snapshot an event restores. -/
def NodeEvent.snapshot : NodeEvent → Option ContextSnapshot
  | .restore _ snapshot => some snapshot
  | .restoreFromSnap _ snapshot => some snapshot
  | _ => none

namespace Node

/-- The `Start` of a proxy that is gone changes nothing. -/
def withCtx (node : Node) (ctx : StateContext) : Node where
  ctx := ctx
  starting := node.starting.filter (· ∈ ctx.httpReverseProxyList)

end Node

/-- The steps of a node.  A request to a port that was open before a restore goes to the
proxy that was replaced and leaves the context alone, so it needs no step here. -/
inductive NodeStep : Node → NodeEvent → Node → Prop
  | on {node : Node} {event : Event} {ctx : StateContext} (hstep : Step node.ctx event ctx) :
      NodeStep node (.on event) (node.withCtx ctx)
  | started {node : Node} {port : Int} {ctx : StateContext} (hmem : port ∈ node.starting)
      (hrun : EStateM.run (StateContext.onProxy port HttpReverseProxy.start) node.ctx =
        .ok () ctx) :
      NodeStep node (.started port) ⟨ctx, node.starting.erase port⟩
  | restore {node node' : Node} {order : ContextOrder} {snapshot : ContextSnapshot}
      (hrun : EStateM.run (Node.restore order snapshot) node = .ok () node') :
      NodeStep node (.restore order snapshot) node'
  | restoreFromSnap {node node' : Node} {order : ContextOrder} {snapshot : ContextSnapshot}
      (hrun : EStateM.run (Node.restoreFromSnap order snapshot) node = .ok () node') :
      NodeStep node (.restoreFromSnap order snapshot) node'

/-- The states of a node, started from a configuration; what it restores was
taken of some node. -/
inductive Reachable : Node → Prop
  | boot {confs : List HttpProxyArgs} {order : RangeOrder Int HttpReverseProxy}
      {listens : Nat → Bool} {ctx : StateContext}
      (hrun : EStateM.run (StateContext.boot confs order) (newStateContext listens) =
        .ok () ctx) :
      Reachable ⟨ctx, []⟩
  | step {node node' : Node} {event : NodeEvent} (h : Reachable node)
      (hlocal : event.snapshot = none) (hstep : NodeStep node event node') : Reachable node'
  | restore {node node' source : Node} {event : NodeEvent} (h : Reachable node)
      (hsource : Reachable source) (htaken : event.snapshot = some source.ctx.marshal)
      (hstep : NodeStep node event node') : Reachable node'

/-! ## Sound states -/

/-- The proxies a snapshot was taken of have a known type. -/
def KnownTypes (snapshot : ContextSnapshot) : Prop :=
  ∀ port s, snapshot.lookup port = some s → s.prefixerType = typeHashPrefixer

theorem knownTypes_marshal {ctx : StateContext} (h : ctx.Sound) : KnownTypes ctx.marshal := by
  intro port s hs
  rw [StateContext.lookup_marshal] at hs
  obtain ⟨proxy, hproxy, rfl⟩ := Option.map_eq_some_iff.mp hs
  exact (h port proxy hproxy).type

section Restoring

variable {node node' : Node} {snapshot : ContextSnapshot} {order : ContextOrder}

/-- Both decoded and surviving proxies have a free lock and a known type. -/
theorem free_unMarshal (h : node.ctx.Sound) (hknown : KnownTypes snapshot) {port : Int}
    {proxy : HttpReverseProxy}
    (hproxy : (node.unMarshal snapshot).ctx.httpReverseProxyList.lookup port = some proxy) :
    proxy.mu = .free ∧ proxy.prefixerType = typeHashPrefixer := by
  rw [Node.lookup_unMarshal] at hproxy
  cases hs : snapshot.lookup port with
  | none =>
      rw [hs, Option.map_none, Option.none_or] at hproxy
      exact ⟨(h port proxy hproxy).free, (h port proxy hproxy).type⟩
  | some s =>
      rw [hs] at hproxy
      cases hproxy
      exact ⟨rfl, hknown port s hs⟩

/-- `Restore` answers true on a proxy of a known type. -/
theorem restore_true {proxy proxy' : HttpReverseProxy} {order : RestoreOrder} {answer : Bool}
    (htype : proxy.prefixerType = typeHashPrefixer)
    (hrun : EStateM.run (HttpReverseProxy.restore order) proxy = .ok answer proxy') :
    answer = true := by
  rcases HttpReverseProxy.run_restore_ok hrun with ⟨hne, -⟩ | ⟨-, hanswer, -⟩
  · exact absurd htype hne
  · exact hanswer

/-- When every round makes a sound proxy, so does the loop. -/
theorem sound_of_roundsDone {starts : Bool} {body : Int → Eff HttpReverseProxy Bool}
    (hbody : ∀ port proxy answer proxy',
      node.ctx.httpReverseProxyList.lookup port = some proxy →
        EStateM.run (body port) proxy = .ok answer proxy' → Proxy.Sound proxy')
    (h : RoundsDone starts body (order.ports.keys node.ctx.httpReverseProxyList) node node') :
    node'.ctx.Sound := by
  intro port proxy' hproxy'
  have hport : port ∈ node.ctx.httpReverseProxyList :=
    (h.mem_iff port).mp (Finmap.mem_iff.mpr ⟨proxy', hproxy'⟩)
  obtain ⟨proxy, answer, restored, hlookup, hround, hrestored, -⟩ :=
    h.round port ((order.ports.mem_keys _ _).mpr hport)
  rw [hproxy'] at hrestored
  cases hrestored
  exact hbody port proxy answer proxy' hlookup hround

theorem sound_restored (h : node.ctx.Sound) (hknown : KnownTypes snapshot)
    (hrun : EStateM.run (Node.restore order snapshot) node = .ok () node') :
    node'.ctx.Sound := by
  refine sound_of_roundsDone ?_ (run_restore_ok hrun)
  intro port proxy answer proxy' hproxy hround
  obtain ⟨hfree, htype⟩ := free_unMarshal h hknown hproxy
  obtain ⟨tree, -, hrestore⟩ := run_restoreProxy_ok hround
  obtain rfl := restore_true
    (show ({ proxy with acl := tree } : HttpReverseProxy).prefixerType = _ from htype) hrestore
  exact sound_restore (show ({ proxy with acl := tree } : HttpReverseProxy).mu = .free from hfree)
    hrestore

theorem sound_restoredFromSnap (h : node.ctx.Sound) (hknown : KnownTypes snapshot)
    (hrun : EStateM.run (Node.restoreFromSnap order snapshot) node = .ok () node') :
    node'.ctx.Sound := by
  refine sound_of_roundsDone ?_ (run_restoreFromSnap_ok hrun)
  intro port proxy answer proxy' hproxy hround
  obtain ⟨hfree, htype⟩ := free_unMarshal h hknown hproxy
  obtain rfl := restore_true htype hround
  exact sound_restore hfree hround

end Restoring

theorem NodeStep.sound {node node' : Node} {event : NodeEvent} (h : node.ctx.Sound)
    (hknown : ∀ snapshot, event.snapshot = some snapshot → KnownTypes snapshot)
    (hstep : NodeStep node event node') : node'.ctx.Sound := by
  cases hstep with
  | on hstep => exact step_sound h hstep
  | @started port ctx hmem hrun =>
      obtain ⟨proxy, proxy', hproxy, hstart, rfl⟩ := StateContext.run_onProxy_ok hrun
      exact h.insert (ProxyCall.run_sound .start (h port proxy hproxy) hstart) port _ _
  | restore hrun => exact sound_restored h (hknown _ rfl) hrun
  | restoreFromSnap hrun => exact sound_restoredFromSnap h (hknown _ rfl) hrun

theorem Reachable.sound {node : Node} (h : Reachable node) : node.ctx.Sound := by
  induction h with
  | boot hrun => exact StateContext.boot_sound hrun
  | step h hlocal hstep ih =>
      refine hstep.sound ih fun snapshot hsnapshot => ?_
      rw [hlocal] at hsnapshot
      cases hsnapshot
  | restore h hsource htaken hstep ih ihsource =>
      refine hstep.sound ih fun snapshot hsnapshot => ?_
      rw [htaken] at hsnapshot
      cases hsnapshot
      exact knownTypes_marshal ihsource

/-! ## Reaching a state -/

/-- A node without a configuration starts empty. -/
theorem reachable_empty (listens : Nat → Bool) : Reachable ⟨newStateContext listens, []⟩ := by
  refine .boot (show EStateM.run
    (StateContext.boot [] (.sorted Int HttpReverseProxy)) (newStateContext listens) = _ from ?_)
  rw [StateContext.boot, EStateM.run_bind, run_forEach_nil]
  dsimp only
  rw [EStateM.run_bind, EStateM.run_get]
  dsimp only
  rw [show (newStateContext listens).httpReverseProxyList = ∅ from rfl, RangeOrder.keys_empty]
  rfl

/-- Applying entries one after the other is a run. -/
theorem run_of_applied {entries : List LogEntry} {ctx ctx' : StateContext}
    (hrun : EStateM.run (forEach entries StateContext.apply) ctx = .ok () ctx') :
    Runs.Run Step ctx (entries.map .apply) ctx' := by
  induction entries generalizing ctx with
  | nil =>
      cases hrun
      exact .nil _
  | cons entry entries ih =>
      obtain ⟨u, ctx₁, hentry, hrest⟩ := run_forEach_cons_ok hrun
      exact .cons (.apply hentry) (ih hrest)

/-- Events of the context alone, from an empty node on. -/
theorem reachable_of_run {listens : Nat → Bool} {events : List Event} {ctx : StateContext}
    (hrun : Runs.Run Step (newStateContext listens) events ctx) : Reachable ⟨ctx, []⟩ := by
  refine Runs.Run.invariant (P := fun ctx => Reachable ⟨ctx, []⟩) ?_ hrun
    (reachable_empty listens)
  intro ctx event ctx' h hstep
  exact h.step (show (NodeEvent.on event).snapshot = none from rfl) (.on hstep)

theorem reachable_nodeWith {port : Int} {proxy : HttpReverseProxy}
    (hnew : newHttpReverseProxy ⟨port, typeHashPrefixer, []⟩ 0 = .ok proxy) :
    Reachable (nodeWith port proxy) := by
  have hrun : EStateM.run (StateContext.apply (.addHttpProxy ⟨port, typeHashPrefixer⟩))
      (newStateContext fun _ => true) =
        .ok () ((newStateContext fun _ => true).withNewProxy port proxy) :=
    StateContext.run_handleAddHttpProxy hnew
  exact reachable_of_run (.single (.apply hrun))

end Cluster
end VermouthGateway
