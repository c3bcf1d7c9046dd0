import VermouthGateway.Cluster.Watches

/-!
# Snapshots that are written late

`Snapshot` answers the context itself, and raft calls `Persist` on it at some
later time, while it goes on applying entries.  What is written down under an
index may therefore hold entries that come after it, and a node that starts
from it applies these entries again.

A node that restores a snapshot while it runs makes new proxies for the ports in it,
and the listeners that are open there go on serving the old ones.  Its other proxies
stay; the log has them in some later entry.

* `RaftStep`: any number of nodes over one committed log.  Each applies the log
  at its own pace, serves, has snapshots taken and written, and starts over from
  one that was written by any of them.
* `Tracked.step`: what a node watches is ahead of the log at worst.
* `watch_caught_up`: a node that has applied the whole log watches what the log
  means.
* `served_of_run`: its listeners serve what it watches as long as it has installed
  no snapshot since it started.
-/

namespace VermouthGateway
namespace Cluster

open Go Proxy Balancing Runs Registers

/-- A node with what raft knows of it. -/
structure Replica where
  node : Node
  applied : Nat
  /-- The index of a snapshot that has been taken and not been written. -/
  noted : Option Nat
  /-- The proxies that a snapshot has replaced: the listener of the port keeps them. -/
  kept : Int → Option HttpReverseProxy

/-- The proxy that the listener of a port serves, if there is a listener. -/
def Replica.served (r : Replica) (port : Int) : Option HttpReverseProxy :=
  (r.kept port).or (r.node.ctx.httpReverseProxyList.lookup port)

/-- What the listeners keep when a snapshot is restored. -/
def Replica.keptOver (r : Replica) (snapshot : ContextSnapshot) (port : Int) :
    Option HttpReverseProxy :=
  if port ∈ snapshot then r.served port else r.kept port

/-- Nodes over one committed log, with the snapshots they have written. -/
structure RaftGroup (ι : Type) where
  log : List LogEntry
  replicas : ι → Replica
  stored : List (Nat × ContextSnapshot)

inductive RaftEvent (ι : Type)
  | commit (entry : LogEntry)
  | apply (i : ι)
  | own (i : ι) (event : NodeEvent)
  | serveKept (i : ι) (port : Int) (peerAvailable : Bool) (allow : QpsRateLimiter → Bool)
      (r : Utils.Request)
  | snapshot (i : ι)
  | persist (i : ι)
  | install (i : ι) (order : ContextOrder) (index : Nat) (snapshot : ContextSnapshot)
  | restart (i : ι) (order : ContextOrder) (listens : Nat → Bool) (index : Nat)
      (snapshot : ContextSnapshot)

/-- An event of the node alone. -/
def NodeEvent.Own : NodeEvent → Prop
  | .on (.apply _) => False
  | .on _ => True
  | .started _ => True
  | _ => False

/-- The port a request of the event is for. -/
def NodeEvent.port : NodeEvent → Option Int
  | .on (.serve port _ _ _) => some port
  | _ => none

/-- What the log means to nodes that started from a configuration. -/
def logRouting (G : GatewayRouting) (log : List LogEntry) : GatewayRouting :=
  log.foldl LogEntry.route G

/-- Every entry finds what it refers to when the ones before it are applied,
and none closes a proxy. -/
def LogFits (G : GatewayRouting) (log : List LogEntry) : Prop :=
  ∀ (n : Nat) (entry : LogEntry), log[n]? = some entry →
    entry.Fits (logRouting G (log.take n))

section Group

variable {ι : Type} [DecidableEq ι]

def RaftGroup.set (c : RaftGroup ι) (i : ι) (r : Replica) : RaftGroup ι :=
  { c with replicas := Function.update c.replicas i r }

/-- The steps of the nodes. -/
inductive RaftStep : RaftGroup ι → RaftEvent ι → RaftGroup ι → Prop
  | commit (c : RaftGroup ι) (entry : LogEntry) :
      RaftStep c (.commit entry) { c with log := c.log ++ [entry] }
  | apply {c : RaftGroup ι} {i : ι} {entry : LogEntry} {ctx : StateContext}
      (hentry : c.log[(c.replicas i).applied]? = some entry)
      (hrun : EStateM.run (StateContext.apply entry) (c.replicas i).node.ctx = .ok () ctx) :
      RaftStep c (.apply i) (c.set i { c.replicas i with
        node := (c.replicas i).node.withCtx ctx, applied := (c.replicas i).applied + 1 })
  | own {c : RaftGroup ι} {i : ι} {event : NodeEvent} {node : Node} (hown : event.Own)
      (hport : ∀ port, event.port = some port → (c.replicas i).kept port = none)
      (hstep : NodeStep (c.replicas i).node event node) :
      RaftStep c (.own i event) (c.set i { c.replicas i with node := node })
  | serveKept {c : RaftGroup ι} {i : ι} {port : Int} {proxy : HttpReverseProxy}
      (hkept : (c.replicas i).kept port = some proxy) (peerAvailable : Bool)
      (allow : QpsRateLimiter → Bool) (r : Utils.Request) :
      RaftStep c (.serveKept i port peerAvailable allow r) (c.set i { c.replicas i with
        kept := Function.update (c.replicas i).kept port
          (some (memory (EStateM.run (HttpReverseProxy.serveHTTP peerAvailable allow r) proxy))) })
  -- the context is not copied
  | snapshot (c : RaftGroup ι) (i : ι) :
      RaftStep c (.snapshot i)
        (c.set i { c.replicas i with noted := some (c.replicas i).applied })
  | persist {c : RaftGroup ι} {i : ι} {index : Nat}
      (hnoted : (c.replicas i).noted = some index) :
      RaftStep c (.persist i)
        { c.set i { c.replicas i with noted := none } with
          stored := (index, (c.replicas i).node.ctx.marshal) :: c.stored }
  -- raft sends newer snapshots only; a proxy that the snapshot lacks stays
  | install {c : RaftGroup ι} {i : ι} {order : ContextOrder} {index : Nat}
      {snapshot : ContextSnapshot} {node : Node} (hstored : (index, snapshot) ∈ c.stored)
      (hnewer : (c.replicas i).applied ≤ index)
      (hrun : EStateM.run (Node.restore order snapshot) (c.replicas i).node = .ok () node) :
      RaftStep c (.install i order index snapshot)
        (c.set i { c.replicas i with
          node := node
          applied := index
          kept := (c.replicas i).keptOver snapshot })
  -- `Run` comes after the restore
  | restart {c : RaftGroup ι} {i : ι} {order : ContextOrder} {listens : Nat → Bool}
      {index : Nat} {snapshot : ContextSnapshot} {node : Node}
      (hstored : (index, snapshot) ∈ c.stored)
      (hrun : EStateM.run (Node.restore order snapshot) ⟨newStateContext listens, []⟩ =
        .ok () node) :
      RaftStep c (.restart i order listens index snapshot)
        (c.set i ⟨node, index, none, fun _ => none⟩)

/-- Every node has started from the configuration. -/
structure Started (confs : List HttpProxyArgs) (c : RaftGroup ι) : Prop where
  log : c.log = []
  stored : c.stored = []
  boot : ∀ i, ∃ order listens ctx,
    EStateM.run (StateContext.boot confs order) (newStateContext listens) = .ok () ctx ∧
      c.replicas i = ⟨⟨ctx, []⟩, 0, none, fun _ => none⟩

/-- The log only grows. -/
theorem RaftStep.log_prefix {c c' : RaftGroup ι} {event : RaftEvent ι}
    (hstep : RaftStep c event c') : ∃ more, c'.log = c.log ++ more := by
  cases hstep with
  | commit entry => exact ⟨[entry], rfl⟩
  | _ => exact ⟨[], (List.append_nil _).symm⟩

end Group

/-! ## What a log does to a watch -/

section Logs

variable {β : Type} {w : Watch β} {G : GatewayRouting} {log more : List LogEntry}

theorem logRouting_append (G : GatewayRouting) (log : List LogEntry) (entry : LogEntry) :
    logRouting G (log ++ [entry]) = entry.route (logRouting G log) := by
  rw [logRouting, List.foldl_append]
  rfl

theorem LogFits.of_append (h : LogFits G (log ++ more)) : LogFits G log := by
  intro n entry hentry
  obtain ⟨hlt, -⟩ := List.getElem?_eq_some_iff.mp hentry
  have hfits := h n entry (by rw [List.getElem?_append_left hlt, hentry])
  rwa [List.take_append_of_le_length (Nat.le_of_lt hlt)] at hfits

theorem logFits_single {entry : LogEntry} (h : entry.Fits G) : LogFits G [entry] := by
  intro n entry' hentry
  cases n with
  | zero =>
      cases hentry
      exact h
  | succ n => cases hentry

/-- The watch reads off the meaning of a log what the log leaves in a register. -/
theorem watch_logRouting (hkeeps : w.keeps G) (hadmits : ∀ entry ∈ log, w.admits entry)
    (hfits : LogFits G log) {n : Nat} (hn : n ≤ log.length) :
    w.keeps (logRouting G (log.take n)) ∧
      w.value (logRouting G (log.take n)) = after (log.map w.op) (w.value G) n := by
  induction n with
  | zero => exact ⟨hkeeps, rfl⟩
  | succ n ih =>
      obtain ⟨hkept, hvalue⟩ := ih (Nat.le_of_succ_le hn)
      have hentry : log[n]? = some log[n] := List.getElem?_eq_getElem hn
      have hop : (log.map w.op)[n]? = some (w.op log[n]) := by
        rw [List.getElem?_map, hentry, Option.map_some]
      obtain ⟨hnext, hread⟩ := w.route hkept (hadmits _ (List.getElem_mem hn))
        (hfits n _ hentry)
      rw [List.take_add_one, hentry, Option.toList_some, logRouting_append, after_succ hop,
        ← hvalue]
      exact ⟨hnext, hread⟩

theorem watch_fits (hkeeps : w.keeps G) (hadmits : ∀ entry ∈ log, w.admits entry)
    (hfits : LogFits G log) : Registers.Fits (log.map w.op) (w.value G) := by
  intro n b hop
  rw [List.getElem?_map] at hop
  obtain ⟨entry, hentry, hwrite⟩ := Option.map_eq_some_iff.mp hop
  obtain ⟨hlt, -⟩ := List.getElem?_eq_some_iff.mp hentry
  rw [← (watch_logRouting hkeeps hadmits hfits (Nat.le_of_lt hlt)).2]
  exact w.writes hwrite (hfits n entry hentry)

end Logs

/-! ## The invariant -/

/-- The routing of a context is ahead of an index of the log at worst. -/
def Holds {β : Type} (w : Watch β) (base : GatewayRouting) (log : List LogEntry) (index : Nat)
    (ctx : StateContext) : Prop :=
  ∃ G, Routed ctx G ∧ w.keeps G ∧ Ahead (log.map w.op) (w.value base) index (w.value G)

/-- A node is where raft has it, and nothing is being shut down. -/
structure TrackedReplica {β : Type} (w : Watch β) (base : GatewayRouting) (log : List LogEntry)
    (r : Replica) : Prop where
  applied : r.applied ≤ log.length
  noted : ∀ index, r.noted = some index → index ≤ r.applied
  holds : Holds w base log r.applied r.node.ctx
  idle : ∀ port, .shuttingDown port ∉ r.node.ctx.goroutines

/-- A snapshot was written of such a context. -/
def HoldsSnapshot {β : Type} (w : Watch β) (base : GatewayRouting) (log : List LogEntry)
    (index : Nat) (snapshot : ContextSnapshot) : Prop :=
  ∃ ctx, snapshot = ctx.marshal ∧ Holds w base log index ctx

structure Tracked {ι β : Type} (w : Watch β) (base : GatewayRouting) (c : RaftGroup ι) :
    Prop where
  replicas : ∀ i, TrackedReplica w base c.log (c.replicas i)
  stored : ∀ index snapshot, (index, snapshot) ∈ c.stored →
    index ≤ c.log.length ∧ HoldsSnapshot w base c.log index snapshot

section Steps

variable {β : Type} {w : Watch β} {base : GatewayRouting} {log : List LogEntry} {r : Replica}

theorem Holds.mono {ctx : StateContext} {index index' : Nat} (h : Holds w base log index ctx)
    (hle : index' ≤ index) : Holds w base log index' ctx := by
  obtain ⟨G, hrouted, hkeeps, hahead⟩ := h
  exact ⟨G, hrouted, hkeeps, hahead.mono hle⟩

theorem Holds.append {ctx : StateContext} {index : Nat} (h : Holds w base log index ctx)
    (entry : LogEntry) : Holds w base (log ++ [entry]) index ctx := by
  obtain ⟨G, hrouted, hkeeps, hahead⟩ := h
  refine ⟨G, hrouted, hkeeps, ?_⟩
  rw [List.map_append]
  exact hahead.append _

theorem TrackedReplica.append (h : TrackedReplica w base log r) (entry : LogEntry) :
    TrackedReplica w base (log ++ [entry]) r where
  applied := by
    rw [List.length_append]
    exact h.applied.trans (Nat.le_add_right _ _)
  noted := h.noted
  holds := h.holds.append entry
  idle := h.idle

theorem idle_apply {ctx ctx' : StateContext} {entry : LogEntry} (hopen : ¬ entry.Closes)
    (hidle : ∀ port, .shuttingDown port ∉ ctx.goroutines)
    (hrun : EStateM.run (StateContext.apply entry) ctx = .ok () ctx') (port : Int) :
    .shuttingDown port ∉ ctx'.goroutines := by
  cases hcall : entry.call with
  | some target =>
      rw [StateContext.apply_of_call hcall] at hrun
      obtain ⟨proxy, proxy', hproxy, hbody, rfl⟩ := StateContext.run_onProxy_ok hrun
      exact hidle port
  | none =>
      by_cases hadd : ∃ body, entry = .addHttpProxy body
      · obtain ⟨body, rfl⟩ := hadd
        obtain ⟨proxy, hnew, rfl⟩ := StateContext.run_handleAddHttpProxy_ok hrun
        exact mt shuttingDown_withNewProxy.mp (hidle port)
      · exact absurd ⟨hcall, fun body heq => hadd ⟨body, heq⟩⟩ hopen

theorem LogEntry.Fits.not_closes {G : GatewayRouting} {entry : LogEntry} (h : entry.Fits G) :
    ¬ entry.Closes := by
  rintro ⟨hcall, hnew⟩
  rcases h with ⟨port, call, R, hsome, -⟩ | ⟨body, rfl⟩
  · rw [hcall] at hsome
    cases hsome
  · exact hnew body rfl

/-- The next entry. -/
theorem TrackedReplica.apply (h : TrackedReplica w base log r) (hkeeps : w.keeps base)
    (hadmits : ∀ entry ∈ log, w.admits entry) (hfits : LogFits base log) {entry : LogEntry}
    {ctx : StateContext} (hentry : log[r.applied]? = some entry)
    (hrun : EStateM.run (StateContext.apply entry) r.node.ctx = .ok () ctx) :
    TrackedReplica w base log
      { r with node := r.node.withCtx ctx, applied := r.applied + 1 } := by
  have hopen : ¬ entry.Closes := (hfits _ entry hentry).not_closes
  obtain ⟨G, hrouted, hkept, hahead⟩ := h.holds
  have hfitsHere : entry.Fits G := hrouted.fits_of_apply hopen hrun
  obtain ⟨hlt, -⟩ := List.getElem?_eq_some_iff.mp hentry
  obtain ⟨hnext, hread⟩ := w.route hkept (hadmits entry (List.mem_of_getElem? hentry)) hfitsHere
  refine ⟨hlt, fun index hindex => (h.noted index hindex).trans (Nat.le_succ _), ?_, ?_⟩
  · refine ⟨entry.route G, hrouted.apply hrun, hnext, ?_⟩
    rw [hread]
    refine hahead.step (watch_fits hkeeps hadmits hfits) ?_ fun b hop => w.writes hop hfitsHere
    rw [List.getElem?_map, hentry, Option.map_some]
  · exact idle_apply hopen h.idle hrun

/-- An event of the node alone does not touch the routing. -/
theorem TrackedReplica.own (h : TrackedReplica w base log r) {event : NodeEvent} {node : Node}
    (hown : event.Own) (hstep : NodeStep r.node event node) :
    TrackedReplica w base log { r with node := node } := by
  obtain ⟨G, hrouted, hkept, hahead⟩ := h.holds
  cases hstep with
  | on hstep =>
      cases hstep with
      | apply hrun => exact hown.elim
      | serve port peerAvailable allow req =>
          refine ⟨h.applied, h.noted, ⟨G, hrouted.serve port peerAvailable allow req, hkept,
            hahead⟩, fun q => ?_⟩
          have hsame : (r.node.ctx.serve port peerAvailable allow req).goroutines =
              r.node.ctx.goroutines := by
            rw [StateContext.serve]
            cases hproxy : r.node.ctx.httpReverseProxyList.lookup port with
            | none => rw [StateContext.run_onProxy_none hproxy]; rfl
            | some proxy => rw [StateContext.run_onProxy_some hproxy, memory_embed]
          show _ ∉ (r.node.ctx.serve port peerAvailable allow req).goroutines
          rw [hsame]
          exact h.idle q
      | @finish port hpending => exact absurd hpending (h.idle port)
  | started hmem hrun =>
      obtain ⟨proxy, proxy', hproxy, hstart, rfl⟩ := StateContext.run_onProxy_ok hrun
      obtain ⟨R, hR, hrep⟩ := hrouted.lookup hproxy
      exact ⟨h.applied, h.noted, ⟨G, hrouted.rewrite hR
        (ProxyCall.run_represents .start hrep hstart) rfl, hkept, hahead⟩, h.idle⟩
  | restore hrun => exact hown.elim
  | restoreFromSnap hrun => exact hown.elim

section Restores

variable {start node : Node} {order : ContextOrder} {index : Nat} {snapshot : ContextSnapshot}

theorem idle_restore (hidle : ∀ port, .shuttingDown port ∉ start.ctx.goroutines)
    (hrun : EStateM.run (Node.restore order snapshot) start = .ok () node) (port : Int) :
    .shuttingDown port ∉ node.ctx.goroutines := by
  have hsame : node.ctx.goroutines = start.ctx.goroutines := by
    rw [(run_restore_ok hrun).frame]
    rfl
  rw [hsame]
  exact hidle port

theorem port_not_cleared (port : Int) (log : List LogEntry) (m : Nat) :
    (log.map (portWatch port).op)[m]? ≠ some .clear := by
  intro hclear
  rw [List.getElem?_map] at hclear
  obtain ⟨entry, -, hop⟩ := Option.map_eq_some_iff.mp hclear
  exact portOp_ne_clear port entry hop

/-- The log has no proxy on a port up to the index of a snapshot that lacks it. -/
theorem absent_before {port : Int} (hfits : LogFits base log) (hindex : index ≤ log.length)
    (hports : HoldsSnapshot (portWatch port) base log index snapshot)
    (habsent : port ∉ snapshot) {k : Nat} (hk : k ≤ index) :
    (logRouting base (log.take k)).lookup port = none := by
  obtain ⟨source, rfl, G, hrouted, -, ⟨m, hm, -, hvalue⟩ | ⟨m, -, hclear⟩⟩ := hports
  · have hnone : G.lookup port = none := Finmap.lookup_eq_none.mpr fun hmem =>
      habsent ((source.mem_marshal port).mpr ((hrouted.mem_iff port).mpr hmem))
    rw [(portWatch port).absent hnone] at hvalue
    have hlog := (watch_logRouting (w := portWatch port) trivial (fun _ _ => trivial) hfits
      (hk.trans hindex)).2
    by_contra hsome
    have hheld : after (log.map (portWatch port).op) ((portWatch port).value base) k ≠ none := by
      rw [← hlog]
      exact fun hnone => hsome (hasPort_eq_none.mp hnone)
    obtain ⟨l, -, hclear⟩ := exists_clear hheld (hk.trans hm) hvalue.symm
    exact port_not_cleared port log l hclear
  · exact absurd hclear (port_not_cleared port log m)

/-- A snapshot that a node restores over what it has.  What the snapshot lacks is not in
the log up to its index, so the node is ahead of that index there. -/
theorem TrackedReplica.install (h : TrackedReplica w base log r) (hkeeps : w.keeps base)
    (hadmits : ∀ entry ∈ log, w.admits entry) (hfits : LogFits base log)
    {kept : Int → Option HttpReverseProxy} (hindex : index ≤ log.length)
    (hnewer : r.applied ≤ index) (hsource : HoldsSnapshot w base log index snapshot)
    (hports : HoldsSnapshot (portWatch w.port) base log index snapshot)
    (hrun : EStateM.run (Node.restore order snapshot) r.node = .ok () node) :
    TrackedReplica w base log ⟨node, index, r.noted, kept⟩ := by
  obtain ⟨source, rfl, G, hrouted, hkept, hahead⟩ := hsource
  obtain ⟨G₀, hrouted₀, hkept₀, hahead₀⟩ := h.holds
  refine ⟨hindex, fun n hn => (h.noted n hn).trans hnewer,
    ⟨G ∪ G₀, routed_restore_over hrouted hrouted₀ hrun, w.union hkept hkept₀, ?_⟩,
    idle_restore h.idle hrun⟩
  have hunion := GoMap.lookup_union_eq G G₀ w.port
  cases hport : G.lookup w.port with
  | some R =>
      rw [hport, Option.some_or, ← hport] at hunion
      rw [w.local_value hunion]
      exact hahead
  | none =>
      rw [hport, Option.none_or] at hunion
      rw [w.local_value hunion]
      have hlacks : w.port ∉ source.marshal := fun hmem => Finmap.lookup_eq_none.mp hport
        ((hrouted.mem_iff w.port).mp ((source.mem_marshal w.port).mp hmem))
      have habsent : ∀ k ≤ index, (logRouting base (log.take k)).lookup w.port = none :=
        fun k hk => absent_before hfits hindex hports hlacks hk
      refine hahead₀.of_none (by rwa [List.length_map]) (fun k hk => ?_) fun k hk hclear => ?_
      · rw [← (watch_logRouting hkeeps hadmits hfits (hk.trans hindex)).2]
        exact w.absent (habsent k hk)
      · rw [List.getElem?_map] at hclear
        obtain ⟨entry, hentry, hop⟩ := Option.map_eq_some_iff.mp hclear
        exact w.clears hop (hfits k entry hentry) (habsent k (Nat.le_of_lt hk))

/-- A node that starts from a snapshot has nothing else. -/
theorem trackedReplica_restart {listens : Nat → Bool} (hindex : index ≤ log.length)
    (hsource : HoldsSnapshot w base log index snapshot)
    (hrun : EStateM.run (Node.restore order snapshot) ⟨newStateContext listens, []⟩ =
      .ok () node) :
    TrackedReplica w base log ⟨node, index, none, fun _ => none⟩ := by
  obtain ⟨source, rfl, G, hrouted, hkept, hahead⟩ := hsource
  have hempty : ∀ port ∈ (newStateContext listens).httpReverseProxyList,
      port ∈ source.marshal := fun _ hport => absurd hport Finmap.notMem_empty
  exact ⟨hindex, nofun, ⟨G, routed_restore hrouted hempty hrun, hkept, hahead⟩,
    idle_restore (fun _ => List.not_mem_nil) hrun⟩

end Restores

theorem idle_boot {confs : List HttpProxyArgs} {order : RangeOrder Int HttpReverseProxy}
    {listens : Nat → Bool} {ctx : StateContext}
    (hboot : EStateM.run (StateContext.boot confs order) (newStateContext listens) = .ok () ctx)
    (port : Int) : .shuttingDown port ∉ ctx.goroutines := by
  obtain ⟨u, ctx₁, hconfs, -⟩ := run_bind_ok hboot
  have hnone : ctx₁.goroutines = [] := by
    refine run_forEach_ok (P := fun ctx => ctx.goroutines = []) hconfs rfl ?_
    intro args _ ctx u ctx' hctx hround
    obtain ⟨proxy, -, rfl⟩ := StateContext.run_bootProxy_ok hround
    exact hctx
  cases hboot.symm.trans (run_boot order hconfs)
  dsimp only
  rw [hnone, List.nil_append]
  intro hmem
  obtain ⟨q, -, hq⟩ := List.mem_flatMap.mp hmem
  obtain ⟨q', n, hawaits⟩ := Paired.awaits_of_startedFor hq
  cases hawaits

/-- The nodes as they have started. -/
theorem tracked_started {ι : Type} {c : RaftGroup ι} {confs : List HttpProxyArgs}
    (hagree : ∀ args ∈ confs, ModesAgree args) (h : Started confs c)
    (hkeeps : w.keeps (confRouting confs)) :
    Tracked w (confRouting confs) c where
  replicas i := by
    obtain ⟨order, listens, ctx, hboot, hi⟩ := h.boot i
    rw [hi, h.log]
    exact ⟨le_rfl, nofun, ⟨_, routed_boot hagree hboot, hkeeps, ahead_after le_rfl⟩,
      idle_boot hboot⟩
  stored index snapshot hstored := by
    rw [h.stored] at hstored
    cases hstored

section Group

variable {ι : Type} [DecidableEq ι] {c c' : RaftGroup ι}

theorem replicas_set {P : Replica → Prop} {i : ι} {r : Replica} (h : ∀ j, P (c.replicas j))
    (hr : P r) (j : ι) : P ((c.set i r).replicas j) := by
  show P (Function.update c.replicas i r j)
  rw [Function.update_apply]
  split
  · exact hr
  · exact h j

theorem Tracked.set (h : Tracked w base c) {i : ι} {r : Replica}
    (hr : TrackedReplica w base c.log r) : Tracked w base (c.set i r) :=
  ⟨replicas_set h.replicas hr, h.stored⟩

/-- Every step keeps what a log that fits makes of a watch, when the port of the watch
is tracked too. -/
theorem Tracked.step (h : Tracked w base c) (hports : Tracked (portWatch w.port) base c)
    (hkeeps : w.keeps base) {event : RaftEvent ι} (hstep : RaftStep c event c')
    (hadmits : ∀ entry ∈ c.log, w.admits entry) (hfits : LogFits base c.log) :
    Tracked w base c' := by
  cases hstep with
  | commit entry =>
      refine ⟨fun i => (h.replicas i).append entry, fun index snapshot hstored => ?_⟩
      obtain ⟨hindex, ctx, hmarshal, hholds⟩ := h.stored index snapshot hstored
      refine ⟨?_, ctx, hmarshal, hholds.append entry⟩
      rw [List.length_append]
      exact hindex.trans (Nat.le_add_right _ _)
  | apply hentry hrun => exact h.set ((h.replicas _).apply hkeeps hadmits hfits hentry hrun)
  | own hown hport hstep => exact h.set ((h.replicas _).own hown hstep)
  | @serveKept i port proxy hkept peerAvailable allow r =>
      have hi := h.replicas i
      exact h.set ⟨hi.applied, hi.noted, hi.holds, hi.idle⟩
  | snapshot i =>
      have hi := h.replicas i
      refine h.set ⟨hi.applied, fun index hindex => ?_, hi.holds, hi.idle⟩
      cases hindex
      exact le_rfl
  | @persist i index hnoted =>
      have hi := h.replicas i
      have hle := hi.noted index hnoted
      have hset : Tracked w base (c.set i { c.replicas i with noted := none }) :=
        h.set ⟨hi.applied, nofun, hi.holds, hi.idle⟩
      refine ⟨hset.replicas, fun index' snapshot hstored => ?_⟩
      -- the context is as raft has it, which is no earlier than the index noted
      rcases List.mem_cons.mp hstored with heq | hold
      · cases heq
        exact ⟨hle.trans hi.applied, _, rfl, hi.holds.mono hle⟩
      · exact h.stored index' snapshot hold
  | @install i order index snapshot node hstored hnewer hrun =>
      obtain ⟨hindex, hsource⟩ := h.stored index snapshot hstored
      exact h.set ((h.replicas i).install hkeeps hadmits hfits hindex hnewer hsource
        (hports.stored index snapshot hstored).2 hrun)
  | @restart i order listens index snapshot node hstored hrun =>
      obtain ⟨hindex, hsource⟩ := h.stored index snapshot hstored
      exact h.set (trackedReplica_restart hindex hsource hrun)

/-- The invariant of a run whose log fits in the end. -/
theorem tracked_run {confs : List HttpProxyArgs} {events : List (RaftEvent ι)}
    (hagree : ∀ args ∈ confs, ModesAgree args) (hstart : Started confs c)
    (hkeeps : w.keeps (confRouting confs)) (hrun : Run RaftStep c events c')
    (hadmits : ∀ entry ∈ c'.log, w.admits entry) (hfits : LogFits (confRouting confs) c'.log) :
    Tracked w (confRouting confs) c' := by
  have hinv : (∀ entry ∈ c'.log, w.admits entry) → LogFits (confRouting confs) c'.log →
      Tracked w (confRouting confs) c' ∧ Tracked (portWatch w.port) (confRouting confs) c' := by
    refine Run.invariant (P := fun c => (∀ entry ∈ c.log, w.admits entry) →
      LogFits (confRouting confs) c.log →
        Tracked w (confRouting confs) c ∧ Tracked (portWatch w.port) (confRouting confs) c) ?_ hrun
      fun _ _ => ⟨tracked_started hagree hstart hkeeps, tracked_started hagree hstart trivial⟩
    intro s event s' ih hstep hadmits hfits
    obtain ⟨more, hlog⟩ := hstep.log_prefix
    rw [hlog] at hadmits hfits
    have hadmits' : ∀ entry ∈ s.log, w.admits entry :=
      fun entry hentry => hadmits entry (List.mem_append_left more hentry)
    obtain ⟨htracked, hports⟩ := ih hadmits' hfits.of_append
    exact ⟨htracked.step hports hkeeps hstep hadmits' hfits.of_append,
      hports.step hports trivial hstep (fun _ _ => trivial) hfits.of_append⟩
  exact (hinv hadmits hfits).1

/-- At the end of the log a node watches what the log means. -/
theorem watch_caught_up {confs : List HttpProxyArgs} {events : List (RaftEvent ι)}
    (hagree : ∀ args ∈ confs, ModesAgree args) (hstart : Started confs c)
    (hkeeps : w.keeps (confRouting confs)) (hrun : Run RaftStep c events c')
    (hadmits : ∀ entry ∈ c'.log, w.admits entry) (hfits : LogFits (confRouting confs) c'.log)
    {i : ι} (hcaught : (c'.replicas i).applied = c'.log.length) {G : GatewayRouting}
    (hG : Routed (c'.replicas i).node.ctx G) :
    w.value G = w.value (logRouting (confRouting confs) c'.log) := by
  obtain ⟨G', hrouted, -, hahead⟩ :=
    ((tracked_run hagree hstart hkeeps hrun hadmits hfits).replicas i).holds
  obtain rfl := hG.unique hrouted
  have hmeaning := (watch_logRouting hkeeps hadmits hfits le_rfl).2
  rw [List.take_length] at hmeaning
  rw [hmeaning]
  rw [hcaught, ← List.length_map w.op] at hahead
  rw [hahead.caught_up, List.length_map]

end Group
end Steps

/-! ## What the listeners serve -/

section Listeners

variable {ι : Type} [DecidableEq ι] {c c' : RaftGroup ι} {i : ι}

/-- Whether the node has installed a snapshot since it started. -/
def noteInstall (i : ι) (installed : Bool) : RaftEvent ι → Bool
  | .install j _ _ _ => installed || j = i
  | .restart j _ _ _ _ => installed && j ≠ i
  | _ => installed

def installedSince (i : ι) (events : List (RaftEvent ι)) : Bool :=
  events.foldl (noteInstall i) false

/-- A node keeps old proxies only after it has installed a snapshot. -/
def KeepsNothing (i : ι) (c : RaftGroup ι) (installed : Bool) : Prop :=
  installed = false → ∀ port, (c.replicas i).kept port = none

theorem kept_set (j : ι) (r : Replica) :
    ((c.set j r).replicas i).kept = if i = j then r.kept else (c.replicas i).kept := by
  show (Function.update c.replicas j r i).kept = _
  rw [Function.update_apply]
  split <;> rfl

/-- The step has left what node `i` keeps alone. -/
theorem KeepsNothing.of_same {installed : Bool} (h : KeepsNothing i c installed) {j : ι}
    {r : Replica} (hkept : r.kept = (c.replicas j).kept) :
    KeepsNothing i (c.set j r) installed := by
  intro hnone
  rw [kept_set]
  split
  next heq =>
    rw [hkept, ← heq]
    exact h hnone
  · exact h hnone

theorem KeepsNothing.step {installed : Bool} (h : KeepsNothing i c installed)
    {event : RaftEvent ι} (hstep : RaftStep c event c') :
    KeepsNothing i c' (noteInstall i installed event) := by
  cases hstep with
  | commit entry => exact h
  | apply hentry hrun => exact h.of_same rfl
  | own hown hport hstep => exact h.of_same rfl
  | @serveKept j port proxy hkept peerAvailable allow r =>
      intro hnone
      rw [kept_set]
      split
      next heq =>
        -- there is nothing to serve
        rw [← heq, h hnone] at hkept
        cases hkept
      · exact h hnone
  | snapshot j => exact h.of_same rfl
  | persist hnoted => exact h.of_same rfl
  | @install j order index snapshot node hstored hnewer hrun =>
      intro hnone
      obtain ⟨hbefore, hother⟩ := Bool.or_eq_false_iff.mp hnone
      rw [kept_set, if_neg fun heq => of_decide_eq_false hother heq.symm]
      exact h hbefore
  | @restart j order listens index snapshot node hstored hrun =>
      intro hnone
      rw [kept_set]
      split
      · exact fun _ => rfl
      next hne =>
        refine h (Bool.eq_false_iff.mpr fun hinstalled => ?_)
        rw [noteInstall, hinstalled, Bool.true_and, decide_eq_false_iff_not, not_not] at hnone
        exact hne hnone.symm

/-- A node that has installed no snapshot since it started serves the proxies it has. -/
theorem served_of_run {confs : List HttpProxyArgs} {events : List (RaftEvent ι)}
    (hstart : Started confs c) (hrun : Run RaftStep c events c')
    (hlive : installedSince i events = false) (port : Int) :
    (c'.replicas i).served port = (c'.replicas i).node.ctx.httpReverseProxyList.lookup port := by
  have hbegin : KeepsNothing i c false := by
    intro _
    obtain ⟨order, listens, ctx, -, hi⟩ := hstart.boot i
    rw [hi]
    exact fun _ => rfl
  have hnothing : KeepsNothing i c' (installedSince i events) :=
    hrun.refines_all (R := KeepsNothing i) (fun _ _ _ _ h hstep => h.step hstep) hbegin
  rw [Replica.served, hnothing hlive port, Option.none_or]

end Listeners

end Cluster
end VermouthGateway
