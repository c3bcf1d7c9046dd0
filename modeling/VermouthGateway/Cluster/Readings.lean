import VermouthGateway.Cluster.EventLoop
import VermouthGateway.Cluster.Register
import VermouthGateway.Discovery.Readings

/-!
# Two readings of a service

The events of a reading wait until `HandleNamespaceEvent` takes them; in cluster mode
the entries it appends are applied later, in between.

* `InboxStep` has one case for each of these steps.
* `Inbox.Additive` is the invariant: only additions of hosts are on the way, and the
  removals that `REMOVE_HOSTS` asks for are refused.
* `keepsHosts_iff`: when a service that has not changed keeps its hosts and its
  readings say so.
-/

namespace VermouthGateway
namespace Cluster

open Go Proxy Balancing Runs
open Discovery (ZookeeperServiceInfo roundEvents Contained ResolvesToRead)

/-! ## Handling without removals -/

namespace Vermouth

section Handling

variable {v v' : Vermouth} {port : Int} {e : Discovery.Event}

/-- What `ADD_HOST` can do. -/
theorem run_addHost_event_cases (hopt : e.opt = .addHost)
    (hrun : EStateM.run (handleNamespaceEvent port e) v = .ok () v') :
    let body : HttpProxyHostBody := ⟨port, servicePrefix e.serviceName, e.host⟩
    v' = v ∨
      (∃ ctx, EStateM.run (StateContext.apply (.addHttpProxyHost body)) v.ctx = .ok () ctx ∧
        v' = { v with ctx := ctx }) ∨
      v' = { v with raftLog := v.raftLog ++ [.addHttpProxyHost body] } := by
  rw [handleNamespaceEvent, hopt] at hrun
  dsimp only at hrun
  rw [EStateM.run_bind, run_checkAndCreateAside] at hrun
  obtain ⟨answer, hcall⟩ := run_dropAnswer_ok hrun
  exact run_withProxy_cases hcall

/-- Applying an added host keeps everything that is listed. -/
theorem listed_addHttpProxyHost {ctx ctx' : StateContext} {body : HttpProxyHostBody}
    (h : ctx.Sound)
    (hrun : EStateM.run (StateContext.apply (.addHttpProxyHost body)) ctx = .ok () ctx') {q : Int}
    {prefixPath host : String} (hlisted : ctx.Listed q prefixPath host) :
    ctx'.Listed q prefixPath host := by
  refine hlisted.onProxy hrun fun proxy proxy' hproxy hbody hmem => ?_
  obtain ⟨p, hcopies⟩ := (h _ proxy hproxy).copies
  exact mem_getHosts_addHost hcopies hbody hmem

end Handling

end Vermouth

/-! ## The events on the way -/

/-- A node with the events of a discovery that it has not handled yet. -/
structure Inbox where
  v : Vermouth
  pending : List Discovery.Event

inductive InboxEvent
  | handled (e : Discovery.Event)
  | applied (entry : LogEntry)

/-- An event is handled, or an entry of the log is applied. -/
inductive InboxStep (port : Int) : Inbox → InboxEvent → Inbox → Prop
  | handled {v v' : Vermouth} {e : Discovery.Event} {pending : List Discovery.Event}
      (hrun : EStateM.run (Vermouth.handleNamespaceEvent port e) v = .ok () v') :
      InboxStep port ⟨v, e :: pending⟩ (.handled e) ⟨v', pending⟩
  | applied {v : Vermouth} {ctx : StateContext} {entry : LogEntry} {rest : List LogEntry}
      {pending : List Discovery.Event} (hlog : v.raftLog = entry :: rest)
      (hrun : EStateM.run (StateContext.apply entry) v.ctx = .ok () ctx) :
      InboxStep port ⟨v, pending⟩ (.applied entry) ⟨{ v with ctx := ctx, raftLog := rest }, pending⟩

namespace Inbox

/-- Only additions of hosts are on the way. -/
structure Additive (s : Inbox) : Prop where
  sound : s.v.ctx.Sound
  pending : ∀ e ∈ s.pending, e.opt = .removeHosts ∨ e.opt = .addHost
  log : ∀ entry ∈ s.v.raftLog, ∃ body, entry = .addHttpProxyHost body

/-- What is listed in one state is listed in the other. -/
def ListsAll (s s' : Inbox) : Prop :=
  ∀ q prefixPath host, s.v.ctx.Listed q prefixPath host → s'.v.ctx.Listed q prefixPath host

variable {s s' : Inbox} {port : Int}

/-- A step keeps the invariant and everything that is listed. -/
theorem Additive.step {event : InboxEvent} (h : s.Additive) (hstep : InboxStep port s event s') :
    s'.Additive ∧ ListsAll s s' := by
  cases hstep with
  | @handled v v' e pending hrun =>
      have hrest : ∀ other ∈ pending, other.opt = .removeHosts ∨ other.opt = .addHost :=
        fun other hother => h.pending other (List.mem_cons_of_mem e hother)
      rcases h.pending e List.mem_cons_self with hopt | hopt
      · obtain rfl := Vermouth.run_removeHosts_ok hopt hrun
        exact ⟨⟨h.sound, hrest, h.log⟩, fun _ _ _ hlisted => hlisted⟩
      · rcases Vermouth.run_addHost_event_cases hopt hrun with rfl | ⟨ctx, hctx, rfl⟩ | rfl
        · exact ⟨⟨h.sound, hrest, h.log⟩, fun _ _ _ hlisted => hlisted⟩
        · exact ⟨⟨StateContext.apply_sound h.sound hctx, hrest, h.log⟩,
            fun _ _ _ hlisted => Vermouth.listed_addHttpProxyHost h.sound hctx hlisted⟩
        · refine ⟨⟨h.sound, hrest, fun entry hentry => ?_⟩, fun _ _ _ hlisted => hlisted⟩
          rcases List.mem_append.mp hentry with hold | hnew
          · exact h.log entry hold
          · exact ⟨_, List.mem_singleton.mp hnew⟩
  | @applied v ctx entry rest pending hlog hrun =>
      have hlogged := h.log
      dsimp only at hlogged
      rw [hlog] at hlogged
      obtain ⟨body, rfl⟩ := hlogged entry List.mem_cons_self
      exact ⟨⟨StateContext.apply_sound h.sound hrun, h.pending,
          fun other hother => hlogged other (List.mem_cons_of_mem _ hother)⟩,
        fun _ _ _ hlisted => Vermouth.listed_addHttpProxyHost h.sound hrun hlisted⟩

/-- So does a run. -/
theorem Additive.run {events : List InboxEvent} (h : s.Additive)
    (hrun : Run (InboxStep port) s events s') : s'.Additive ∧ ListsAll s s' := by
  refine Run.invariant (P := fun s₁ => s₁.Additive ∧ ListsAll s s₁) ?_ hrun
    ⟨h, fun _ _ _ hlisted => hlisted⟩
  rintro s₁ event s₂ ⟨hadditive, hlists⟩ hstep
  obtain ⟨hnext, hkept⟩ := hadditive.step hstep
  exact ⟨hnext, fun q prefixPath host hlisted =>
    hkept q prefixPath host (hlists q prefixPath host hlisted)⟩

end Inbox

/-! ## An unchanged service -/

/-- What is asked of the readings of a service: the hosts to add are among the hosts to
keep, and while two of them are processed, one after the other from any state, no host is
removed at any step. -/
structure KeepsHosts (lookupHost : String → Option (List String)) (service : String)
    (nodes : List String) (infos : GoMap String ZookeeperServiceInfo) : Prop where
  contained : ∀ order, Contained (roundEvents order lookupHost service nodes infos)
  kept : ∀ (mode : Mode) (node : Node) (port : Int)
    (order order' : RangeOrder String ZookeeperServiceInfo) (before after : List InboxEvent)
    (s s' : Inbox), Reachable node →
    Run (InboxStep port) ⟨⟨mode, node.ctx, []⟩,
      roundEvents order lookupHost service nodes infos ++
        roundEvents order' lookupHost service nodes infos⟩ before s →
    Run (InboxStep port) s after s' → s.ListsAll s'

/-- An unchanged service keeps its hosts when the names of its nodes resolve to addresses
of the reading itself. -/
theorem keepsHosts_iff (lookupHost : String → Option (List String)) (service : String)
    (nodes : List String) (infos : GoMap String ZookeeperServiceInfo) :
    KeepsHosts lookupHost service nodes infos ↔ ResolvesToRead lookupHost nodes infos := by
  constructor
  · intro h
    exact Discovery.contained_iff.mp (h.contained (.sorted _ _))
  · intro h
    refine ⟨fun order => Discovery.contained_iff.mpr h, ?_⟩
    intro mode node port order order' before after s s' hreachable hbefore hafter
    have hstart : Inbox.Additive ⟨⟨mode, node.ctx, []⟩,
        roundEvents order lookupHost service nodes infos ++
          roundEvents order' lookupHost service nodes infos⟩ := by
      refine ⟨hreachable.sound, fun e he => ?_, fun entry hentry => nomatch hentry⟩
      rcases List.mem_append.mp he with he | he
      · exact (Discovery.roundEvents_spec he).2
      · exact (Discovery.roundEvents_spec he).2
    exact ((hstart.run hbefore).1.run hafter).2

/-- A node that is registered under a name. -/
def localUsers : GoMap String ZookeeperServiceInfo :=
  (∅ : GoMap String ZookeeperServiceInfo).insert "node-1" ⟨"localhost", 8080⟩

/-- The name is to be kept and its address to be added. -/
theorem named_host_not_kept : ¬ ∀ (lookupHost : String → Option (List String))
    (service : String) (nodes : List String) (infos : GoMap String ZookeeperServiceInfo),
    KeepsHosts lookupHost service nodes infos := by
  intro hclaim
  have hcontained := (hclaim (fun _ => some ["127.0.0.1"]) "users" ["node-1"] localUsers).contained
    (.sorted _ _)
  obtain ⟨other, info, hinfo, haddress, -⟩ := Discovery.contained_iff.mp hcontained "node-1"
    (List.mem_singleton_self _) "127.0.0.1" ⟨by decide, _, rfl, List.mem_singleton_self _⟩
  rw [localUsers, GoMap.lookup_insert_eq] at hinfo
  split at hinfo
  · cases hinfo
    exact absurd haddress (by decide)
  · cases hinfo

end Cluster
end VermouthGateway
