import VermouthGateway.Discovery.Zookeeper
import VermouthGateway.Foundation.Runs
import Mathlib.Data.String.Basic

/-!
# One watcher for each service

`Shutdown` is written by both kinds of goroutine: `watchServices` makes an entry
when it starts a watcher, the watcher deletes it when it has noticed that it was
cancelled.  In between the service may be back.

* `Watched` is the invariant: an entry has one watcher, and the services that
  are live at the point where `watchServices` is have an uncancelled entry.
* `one_watcher`: every service of the list is watched in a run in which no
  service comes back before its last watcher is gone.
* `service_unwatched`: one that comes back earlier.
-/

namespace VermouthGateway
namespace Discovery

open Runs

/-- The last event that was sent about a service itself. -/
def lastLifecycle (sent : List Event) (service : String) : Option Opt :=
  (sent.find? fun e => e.serviceName = service && e.isLifecycle).map Event.opt

/-- A running `watchNode` of the service. -/
def ZookeeperDiscovery.Watches (zk : ZookeeperDiscovery) (goroutine : Nat) (service : String) :
    Prop :=
  ∃ node, zk.watchNodes.lookup goroutine = some node ∧ node.service = service

/-- The service has an uncancelled entry with one running watcher, and was
announced. -/
structure OneWatcher (zk : ZookeeperDiscovery) (service : String) : Prop where
  entry : ∃ ctx, zk.shutdown.lookup service = some ctx ∧ ctx ∉ zk.cancelled
  watcher : ∃! goroutine, zk.Watches goroutine service
  announced : lastLifecycle zk.sent service = some .addService

/-- `watchServices` waits, and every cancelled watcher has returned. -/
def ZookeeperDiscovery.Settled (zk : ZookeeperDiscovery) : Prop :=
  zk.watchServices = .waiting ∧ ∀ goroutine service ctx, zk.Watches goroutine service →
    zk.shutdown.lookup service = some ctx → ctx ∉ zk.cancelled

/-- When a service of the new list has an entry already, it was in the last
list: the watcher it had before, if any, is gone. -/
def WatchEvent.Timely (zk : ZookeeperDiscovery) : WatchEvent → Prop
  | .skipped service => service ∈ zk.services
  | _ => True

/-! ## The invariant -/

namespace ServicesPc

/-- The services `watchServices` has an uncancelled, announced entry for. -/
def Live (services : Finset String) : ServicesPc → String → Prop
  | .reading, service => service ∈ services
  | .dropping cur todo, service => service ∈ services ∧ (service ∈ cur ∨ service ∈ todo)
  | .removing cur _ todo, service => service ∈ services ∧ (service ∈ cur ∨ service ∈ todo)
  | .adding cur todo, service => service ∈ cur ∧ (service ∈ services ∨ service ∉ todo)
  | .announcing cur new todo, service =>
      service ∈ cur ∧ service ≠ new ∧ (service ∈ services ∨ service ∉ todo)
  | .starting cur _ todo, service => service ∈ cur ∧ (service ∈ services ∨ service ∉ todo)
  | .waiting, service => service ∈ services

/-- The service whose watcher is about to be started. -/
def pending : ServicesPc → Option String
  | .announcing _ service _ => some service
  | .starting _ service _ => some service
  | _ => none

/-- The loop that drops services goes once over each of the last list, and
stops at those that are not in the new one. -/
def Shape (services : Finset String) : ServicesPc → Prop
  | .dropping _ todo => todo.Nodup ∧ ∀ service ∈ todo, service ∈ services
  | .removing cur service todo => (service :: todo).Nodup ∧
      (∀ other ∈ todo, other ∈ services) ∧ service ∉ cur
  | _ => True

end ServicesPc

structure Watched (zk : ZookeeperDiscovery) : Prop where
  running : zk.panicked = false
  shape : zk.watchServices.Shape zk.services
  ctxs : ∀ service ctx, zk.shutdown.lookup service = some ctx → ctx < zk.next
  done : ∀ ctx ∈ zk.cancelled, ctx < zk.next
  goroutines : ∀ goroutine ∈ zk.watchNodes, goroutine < zk.next
  apart : ∀ service service' ctx, zk.shutdown.lookup service = some ctx →
    zk.shutdown.lookup service' = some ctx → service = service'
  /-- A watcher looks at the entry of its service. -/
  owner : ∀ goroutine node, zk.watchNodes.lookup goroutine = some node →
    ∃ ctx, zk.shutdown.lookup node.service = some ctx ∧
      ∀ ctx', node.pc = .selecting ctx' → ctx' = ctx
  one : ∀ goroutine goroutine' service, zk.Watches goroutine service →
    zk.Watches goroutine' service → goroutine = goroutine'
  watcher : ∀ service ∈ zk.shutdown, zk.watchServices.pending ≠ some service →
    ∃ goroutine, zk.Watches goroutine service
  pending : ∀ service, zk.watchServices.pending = some service →
    (∀ goroutine, ¬ zk.Watches goroutine service) ∧
      ∃ ctx, zk.shutdown.lookup service = some ctx ∧ ctx ∉ zk.cancelled
  quiet : ∀ goroutine node events, zk.watchNodes.lookup goroutine = some node →
    node.pc = .sending events → ∀ event ∈ events, event.isLifecycle = false
  live : ∀ service, zk.watchServices.Live zk.services service →
    (∃ ctx, zk.shutdown.lookup service = some ctx ∧ ctx ∉ zk.cancelled) ∧
      lastLifecycle zk.sent service = some .addService

theorem watched_newZookeeperDiscovery : Watched newZookeeperDiscovery := by
  have hempty : ∀ goroutine service, ¬ newZookeeperDiscovery.Watches goroutine service := by
    rintro goroutine service ⟨node, hnode, -⟩
    cases hnode
  exact
    { running := rfl
      shape := trivial
      ctxs := fun _ _ hentry => nomatch hentry
      done := fun _ hmem => absurd hmem (Finset.notMem_empty _)
      goroutines := fun _ hmem => absurd hmem Finmap.notMem_empty
      apart := fun _ _ _ hentry => nomatch hentry
      owner := fun _ _ hnode => nomatch hnode
      one := fun _ _ _ hwatches => absurd hwatches (hempty _ _)
      watcher := fun _ hmem => absurd hmem Finmap.notMem_empty
      pending := fun _ hpending => nomatch hpending
      quiet := fun _ _ _ hnode => nomatch hnode
      live := fun _ hlive => absurd hlive (Finset.notMem_empty _) }

/-! ## The steps -/

theorem lastLifecycle_cons (e : Event) (sent : List Event) (service : String) :
    lastLifecycle (e :: sent) service =
      if e.serviceName = service ∧ e.isLifecycle = true then some e.opt
      else lastLifecycle sent service := by
  rw [lastLifecycle, List.find?_cons]
  by_cases hmatch : e.serviceName = service ∧ e.isLifecycle = true
  · simp [hmatch]
  · have hfalse : (decide (e.serviceName = service) && e.isLifecycle) = false := by
      simpa using hmatch
    rw [hfalse, if_neg hmatch]
    rfl

namespace Watched

variable {zk : ZookeeperDiscovery} {service : String} {goroutine : Nat} {node : WatchNode}

/-- `watchServices` moves on without touching the entries. -/
theorem move (h : Watched zk) {services : Finset String} {pc : ServicesPc} {sent : List Event}
    (hshape : pc.Shape services) (hpending : pc.pending = zk.watchServices.pending)
    (hlive : ∀ service, pc.Live services service →
      (∃ ctx, zk.shutdown.lookup service = some ctx ∧ ctx ∉ zk.cancelled) ∧
        lastLifecycle sent service = some .addService) :
    Watched { zk with services := services, watchServices := pc, sent := sent } where
  running := h.running
  shape := hshape
  ctxs := h.ctxs
  done := h.done
  goroutines := h.goroutines
  apart := h.apart
  owner := h.owner
  one := h.one
  watcher service hmem hnot := h.watcher service hmem (by rwa [← hpending])
  pending service hpend := h.pending service (by rwa [← hpending])
  quiet := h.quiet
  live := hlive

/-- A live service that is not the one the event is about stays live. -/
theorem live_cons (h : Watched zk) (hlive : zk.watchServices.Live zk.services service) (e : Event)
    (hother : e.serviceName ≠ service) :
    (∃ ctx, zk.shutdown.lookup service = some ctx ∧ ctx ∉ zk.cancelled) ∧
      lastLifecycle (e :: zk.sent) service = some .addService := by
  rw [lastLifecycle_cons, if_neg fun hmatch => hother hmatch.1]
  exact h.live service hlive

theorem cancel (h : Watched zk) {cur : Finset String} {todo : List String} {ctx : Nat}
    (hpc : zk.watchServices = .dropping cur (service :: todo)) (hcur : service ∉ cur)
    (hentry : zk.shutdown.lookup service = some ctx) :
    Watched { zk with
      cancelled := insert ctx zk.cancelled
      watchServices := .removing cur service todo } where
  running := h.running
  shape := by
    have hshape := h.shape
    rw [hpc] at hshape
    exact ⟨hshape.1, fun other hother => hshape.2 other (List.mem_cons_of_mem _ hother), hcur⟩
  ctxs := h.ctxs
  done ctx' hmem := by
    rcases Finset.mem_insert.mp hmem with rfl | hmem
    · exact h.ctxs service ctx' hentry
    · exact h.done ctx' hmem
  goroutines := h.goroutines
  apart := h.apart
  owner := h.owner
  one := h.one
  watcher service' hmem _ := h.watcher service' hmem (by
    rw [hpc]
    exact fun hpend => nomatch hpend)
  pending _ hpend := nomatch hpend
  quiet := h.quiet
  live service' hlive := by
    obtain ⟨hservices, hcase⟩ := hlive
    have hshape := h.shape
    rw [hpc] at hshape
    -- the service being dropped is not in the list that was read, so it is no longer live
    have hne : service' ≠ service := by
      rintro rfl
      rcases hcase with hmem | hmem
      · exact hcur hmem
      · exact (List.nodup_cons.mp hshape.1).1 hmem
    have hold : zk.watchServices.Live zk.services service' := by
      rw [hpc]
      exact ⟨hservices, hcase.imp id (List.mem_cons_of_mem _)⟩
    obtain ⟨⟨ctx', hentry', huncancelled⟩, hlast⟩ := h.live service' hold
    refine ⟨⟨ctx', hentry', fun hmem => ?_⟩, hlast⟩
    rcases Finset.mem_insert.mp hmem with rfl | hmem
    · exact hne (h.apart service' service ctx' hentry' hentry)
    · exact huncancelled hmem

theorem create (h : Watched zk) {cur : Finset String} {todo : List String}
    (hpc : zk.watchServices = .adding cur (service :: todo)) (hentry : service ∉ zk.shutdown) :
    Watched { zk with
      shutdown := zk.shutdown.insert service zk.next
      next := zk.next + 1
      watchServices := .announcing cur service todo } where
  running := h.running
  shape := trivial
  -- the entry gets a context that is new, so it is neither shared nor cancelled
  ctxs service' ctx hlookup := by
    rw [GoMap.lookup_insert_eq] at hlookup
    split at hlookup
    · cases hlookup
      exact Nat.lt_succ_self _
    · exact Nat.lt_succ_of_lt (h.ctxs service' ctx hlookup)
  done ctx hmem := Nat.lt_succ_of_lt (h.done ctx hmem)
  goroutines g hmem := Nat.lt_succ_of_lt (h.goroutines g hmem)
  apart service₁ service₂ ctx h₁ h₂ := by
    rw [GoMap.lookup_insert_eq] at h₁ h₂
    split at h₁
    · next heq =>
        cases h₁
        split at h₂
        · next heq' => rw [heq, heq']
        · exact absurd (h.ctxs service₂ _ h₂) (Nat.lt_irrefl _)
    · split at h₂
      · cases h₂
        exact absurd (h.ctxs service₁ _ h₁) (Nat.lt_irrefl _)
      · exact h.apart service₁ service₂ ctx h₁ h₂
  owner g node' hnode' := by
    obtain ⟨ctx, hlookup, hselects⟩ := h.owner g node' hnode'
    refine ⟨ctx, ?_, hselects⟩
    have hne : node'.service ≠ service := by
      rintro rfl
      exact hentry (Finmap.mem_iff.mpr ⟨ctx, hlookup⟩)
    rw [GoMap.lookup_insert_eq, if_neg hne]
    exact hlookup
  one := h.one
  watcher service' hmem hnot := by
    have hne : service' ≠ service := by
      rintro rfl
      exact hnot rfl
    refine h.watcher service' ((Finmap.mem_insert.mp hmem).resolve_left hne) ?_
    rw [hpc]
    exact fun hpend => nomatch hpend
  pending service' hpend := by
    cases hpend
    refine ⟨?_, zk.next, Finmap.lookup_insert _, fun hmem => Nat.lt_irrefl _ (h.done _ hmem)⟩
    rintro g ⟨node', hnode', rfl⟩
    obtain ⟨ctx, hlookup, -⟩ := h.owner g node' hnode'
    exact hentry (Finmap.mem_iff.mpr ⟨ctx, hlookup⟩)
  quiet := h.quiet
  live service' hlive := by
    obtain ⟨hcur, hne, hcase⟩ := hlive
    have hold : zk.watchServices.Live zk.services service' := by
      rw [hpc]
      refine ⟨hcur, hcase.imp id fun hnot hmem => ?_⟩
      rcases List.mem_cons.mp hmem with heq | hmem
      · exact hne heq
      · exact hnot hmem
    obtain ⟨⟨ctx, hlookup, huncancelled⟩, hlast⟩ := h.live service' hold
    refine ⟨⟨ctx, ?_, huncancelled⟩, hlast⟩
    rw [GoMap.lookup_insert_eq, if_neg hne]
    exact hlookup

theorem start (h : Watched zk) {cur : Finset String} {todo : List String}
    (hpc : zk.watchServices = .starting cur service todo) :
    Watched { zk with
      watchServices := .adding cur todo
      watchNodes := zk.watchNodes.insert zk.next ⟨service, .reading⟩
      next := zk.next + 1 } := by
  obtain ⟨hnone, ctx, hentry, huncancelled⟩ := h.pending service (by rw [hpc]; rfl)
  -- the goroutine is new, and the service it is started for had none
  have hfresh : zk.next ∉ zk.watchNodes := fun hmem => Nat.lt_irrefl _ (h.goroutines _ hmem)
  have hwatches : ∀ g service', ZookeeperDiscovery.Watches
      { zk with
        watchServices := .adding cur todo
        watchNodes := zk.watchNodes.insert zk.next ⟨service, .reading⟩
        next := zk.next + 1 } g service' ↔
      (g = zk.next ∧ service' = service) ∨ zk.Watches g service' := by
    intro g service'
    rw [ZookeeperDiscovery.Watches, ZookeeperDiscovery.Watches]
    dsimp only
    rw [GoMap.lookup_insert_eq]
    by_cases hg : g = zk.next
    · subst hg
      rw [if_pos rfl, Finmap.lookup_eq_none.mpr hfresh]
      simp [eq_comm]
    · rw [if_neg hg]
      simp [hg]
  refine
    { running := h.running
      shape := trivial
      ctxs := fun service' ctx' hlookup => Nat.lt_succ_of_lt (h.ctxs service' ctx' hlookup)
      done := fun ctx' hmem => Nat.lt_succ_of_lt (h.done ctx' hmem)
      goroutines := ?_
      apart := h.apart
      owner := ?_
      one := ?_
      watcher := ?_
      pending := fun _ hpend => nomatch hpend
      quiet := ?_
      live := fun service' hlive => h.live service' (by rw [hpc]; exact hlive) }
  · intro g hmem
    rcases Finmap.mem_insert.mp hmem with rfl | hmem
    · exact Nat.lt_succ_self _
    · exact Nat.lt_succ_of_lt (h.goroutines g hmem)
  · intro g node' hnode'
    rw [GoMap.lookup_insert_eq] at hnode'
    split at hnode'
    · cases hnode'
      exact ⟨ctx, hentry, fun _ hselects => nomatch hselects⟩
    · exact h.owner g node' hnode'
  · intro g g' service' hg hg'
    rcases (hwatches g service').mp hg with ⟨rfl, rfl⟩ | hold
    · rcases (hwatches g' service').mp hg' with ⟨rfl, -⟩ | hold'
      · rfl
      · exact absurd hold' (hnone g')
    · rcases (hwatches g' service').mp hg' with ⟨rfl, rfl⟩ | hold'
      · exact absurd hold (hnone g)
      · exact h.one g g' service' hold hold'
  · intro service' hmem _
    by_cases heq : service' = service
    · exact ⟨zk.next, (hwatches _ _).mpr (Or.inl ⟨rfl, heq⟩)⟩
    · obtain ⟨g, hg⟩ := h.watcher service' hmem (by
        rw [hpc]
        exact fun hpend => heq (Option.some.inj hpend).symm)
      exact ⟨g, (hwatches _ _).mpr (Or.inr hg)⟩
  · intro g node' events hnode' hsending
    rw [GoMap.lookup_insert_eq] at hnode'
    split at hnode'
    · cases hnode'
      cases hsending
    · exact h.quiet g node' events hnode' hsending

theorem watches_setNode {pc : NodePc} (hnode : zk.watchNodes.lookup goroutine = some node)
    (g : Nat) (service : String) :
    (zk.setNode goroutine node pc).Watches g service ↔ zk.Watches g service := by
  rw [ZookeeperDiscovery.Watches, ZookeeperDiscovery.Watches, ZookeeperDiscovery.setNode]
  dsimp only
  rw [GoMap.lookup_insert_eq]
  by_cases hg : g = goroutine
  · subst hg
    rw [if_pos rfl, hnode]
    simp
  · rw [if_neg hg]

/-- A `watchNode` goes on. -/
theorem nodeStep (h : Watched zk) {pc : NodePc} {sent : List Event}
    (hnode : zk.watchNodes.lookup goroutine = some node)
    (howner : ∀ ctx ctx', zk.shutdown.lookup node.service = some ctx → pc = .selecting ctx' →
      ctx' = ctx)
    (hquiet : ∀ events, pc = .sending events → ∀ event ∈ events, event.isLifecycle = false)
    (hsent : ∀ service, lastLifecycle sent service = lastLifecycle zk.sent service) :
    Watched { zk.setNode goroutine node pc with sent := sent } where
  running := h.running
  shape := h.shape
  ctxs := h.ctxs
  done := h.done
  goroutines g hmem := by
    rcases Finmap.mem_insert.mp hmem with rfl | hmem
    · exact h.goroutines g (Finmap.mem_iff.mpr ⟨node, hnode⟩)
    · exact h.goroutines g hmem
  apart := h.apart
  owner g node' hnode' := by
    obtain ⟨ctx, hentry, hselects⟩ := h.owner goroutine node hnode
    have hlookup : (zk.watchNodes.insert goroutine { node with pc := pc }).lookup g =
      some node' := hnode'
    rw [GoMap.lookup_insert_eq] at hlookup
    split at hlookup
    · cases hlookup
      exact ⟨ctx, hentry, fun ctx' hpc => howner ctx ctx' hentry hpc⟩
    · exact h.owner g node' hlookup
  one g g' service hg hg' :=
    h.one g g' service ((watches_setNode hnode g service).mp hg)
      ((watches_setNode hnode g' service).mp hg')
  watcher service hmem hnot := by
    obtain ⟨g, hg⟩ := h.watcher service hmem hnot
    exact ⟨g, (watches_setNode hnode g service).mpr hg⟩
  pending service hpend := by
    obtain ⟨hnone, hentry⟩ := h.pending service hpend
    exact ⟨fun g hg => hnone g ((watches_setNode hnode g service).mp hg), hentry⟩
  quiet g node' events hnode' hsending := by
    have hlookup : (zk.watchNodes.insert goroutine { node with pc := pc }).lookup g =
      some node' := hnode'
    rw [GoMap.lookup_insert_eq] at hlookup
    split at hlookup
    · cases hlookup
      exact hquiet events hsending
    · exact h.quiet g node' events hlookup hsending
  live service hlive := by
    obtain ⟨hentry, hlast⟩ := h.live service hlive
    exact ⟨hentry, (hsent service).trans hlast⟩

/-- A cancelled `watchNode` deletes the entry of its service and returns. -/
theorem close (h : Watched zk) {ctx : Nat}
    (hnode : zk.watchNodes.lookup goroutine = some node) (hpc : node.pc = .selecting ctx)
    (hdone : ctx ∈ zk.cancelled) :
    Watched { zk with
      shutdown := zk.shutdown.erase node.service
      watchNodes := zk.watchNodes.erase goroutine } := by
  obtain ⟨ctx', hentry, hselects⟩ := h.owner goroutine node hnode
  obtain rfl := hselects ctx hpc
  -- the entry that goes is a cancelled one; the live ones stay
  have hkept : ∀ service ctx', zk.shutdown.lookup service = some ctx' → ctx' ∉ zk.cancelled →
      (zk.shutdown.erase node.service).lookup service = some ctx' := by
    intro service ctx' hlookup huncancelled
    have hne : service ≠ node.service := by
      rintro rfl
      cases hentry.symm.trans hlookup
      exact huncancelled hdone
    exact GoMap.lookup_erase_eq_some_iff.mpr ⟨hne, hlookup⟩
  have hsub : ∀ service ctx', (zk.shutdown.erase node.service).lookup service = some ctx' →
      zk.shutdown.lookup service = some ctx' :=
    fun service ctx' hlookup => (GoMap.lookup_erase_eq_some_iff.mp hlookup).2
  have hnodes : ∀ g node', (zk.watchNodes.erase goroutine).lookup g = some node' →
      g ≠ goroutine ∧ zk.watchNodes.lookup g = some node' :=
    fun g node' => GoMap.lookup_erase_eq_some_iff.mp
  have hwatches : ∀ g service, ZookeeperDiscovery.Watches
      { zk with
        shutdown := zk.shutdown.erase node.service
        watchNodes := zk.watchNodes.erase goroutine } g service → zk.Watches g service := by
    rintro g service ⟨node', hnode', hservice⟩
    exact ⟨node', (hnodes g node' hnode').2, hservice⟩
  refine
    { running := h.running
      shape := h.shape
      ctxs := fun service ctx' hlookup => h.ctxs service ctx' (hsub service ctx' hlookup)
      done := h.done
      goroutines := fun g hmem => h.goroutines g (Finmap.mem_erase.mp hmem).2
      apart := fun service service' ctx' h₁ h₂ =>
        h.apart service service' ctx' (hsub service ctx' h₁) (hsub service' ctx' h₂)
      owner := ?_
      one := fun g g' service hg hg' =>
        h.one g g' service (hwatches g service hg) (hwatches g' service hg')
      watcher := ?_
      pending := ?_
      quiet := fun g node' events hnode' =>
        h.quiet g node' events (hnodes g node' hnode').2
      live := ?_ }
  · intro g node' hnode'
    obtain ⟨hg, hnode'⟩ := hnodes g node' hnode'
    obtain ⟨ctx', hlookup, hown⟩ := h.owner g node' hnode'
    refine ⟨ctx', ?_, hown⟩
    -- another watcher has another service, so its entry stays
    have hne : node'.service ≠ node.service := fun heq =>
      hg (h.one g goroutine node.service ⟨node', hnode', heq⟩ ⟨node, hnode, rfl⟩)
    exact GoMap.lookup_erase_eq_some_iff.mpr ⟨hne, hlookup⟩
  · intro service hmem hnot
    obtain ⟨hne, hmem⟩ := Finmap.mem_erase.mp hmem
    obtain ⟨g, node', hnode', hservice⟩ := h.watcher service hmem hnot
    have hg : g ≠ goroutine := by
      rintro rfl
      cases hnode.symm.trans hnode'
      exact hne hservice.symm
    exact ⟨g, node', GoMap.lookup_erase_eq_some_iff.mpr ⟨hg, hnode'⟩, hservice⟩
  · intro service hpend
    obtain ⟨hnone, ctx', hlookup, huncancelled⟩ := h.pending service hpend
    exact ⟨fun g hg => hnone g (hwatches g service hg), ctx',
      hkept service ctx' hlookup huncancelled, huncancelled⟩
  · intro service hlive
    obtain ⟨⟨ctx', hlookup, huncancelled⟩, hlast⟩ := h.live service hlive
    exact ⟨⟨ctx', hkept service ctx' hlookup huncancelled, huncancelled⟩, hlast⟩

end Watched

/-- Every timely step keeps the invariant. -/
theorem WatchStep.watched {zk zk' : ZookeeperDiscovery} {event : WatchEvent}
    (hstep : WatchStep zk event zk') (htimely : event.Timely zk) (h : Watched zk) :
    Watched zk' := by
  have hshape := h.shape
  cases hstep with
  | listed hpc hnodup hrange =>
      refine h.move ⟨hnodup, fun service hmem => (hrange service).mp hmem⟩ (by rw [hpc]; rfl) ?_
      intro service hlive
      exact h.live service (by rw [hpc]; exact hlive.1)
  | @kept cur service todo hpc hcur =>
      rw [hpc] at hshape
      refine h.move ⟨hshape.1.of_cons, fun other hother =>
        hshape.2 other (List.mem_cons_of_mem _ hother)⟩ (by rw [hpc]; rfl) ?_
      rintro other ⟨hservices, hcase⟩
      exact h.live other (by rw [hpc]; exact ⟨hservices, hcase.imp id (List.mem_cons_of_mem _)⟩)
  | cancelled hpc hcur hentry => exact h.cancel hpc hcur hentry
  | @cancelledNil cur service todo hpc hcur hentry =>
      rw [hpc] at hshape
      -- a service of the last list still has its entry when the loop reaches it
      have hlive : zk.watchServices.Live zk.services service := by
        rw [hpc]
        exact ⟨hshape.2 service List.mem_cons_self, Or.inr List.mem_cons_self⟩
      obtain ⟨⟨ctx, hlookup, -⟩, -⟩ := h.live service hlive
      rw [hentry] at hlookup
      cases hlookup
  | @removed cur service todo hpc =>
      rw [hpc] at hshape
      obtain ⟨hnodup, hservices, hcur⟩ := hshape
      refine h.move ⟨(List.nodup_cons.mp hnodup).2, hservices⟩ (by rw [hpc]; rfl) ?_
      rintro other ⟨hother, hcase⟩
      refine h.live_cons (by rw [hpc]; exact ⟨hother, hcase⟩) _ ?_
      rintro rfl
      rcases hcase with hmem | hmem
      · exact hcur hmem
      · exact (List.nodup_cons.mp hnodup).1 hmem
  | @dropped cur todo hpc hnodup hrange =>
      refine h.move trivial (by rw [hpc]; rfl) ?_
      rintro service ⟨hcur, hcase⟩
      have hservices : service ∈ zk.services :=
        hcase.resolve_right fun hnot => hnot ((hrange service).mpr hcur)
      exact h.live service (by rw [hpc]; exact ⟨hservices, Or.inl hcur⟩)
  | @skipped cur service todo hpc hentry =>
      -- the step the run has to be timely for
      refine h.move trivial (by rw [hpc]; rfl) ?_
      rintro other ⟨hcur, hcase⟩
      refine h.live other ?_
      rw [hpc]
      by_cases heq : other = service
      · subst heq
        exact ⟨hcur, Or.inl htimely⟩
      · refine ⟨hcur, hcase.imp id fun hnot hmem => ?_⟩
        exact hnot ((List.mem_cons.mp hmem).resolve_left heq)
  | created hpc hentry => exact h.create hpc hentry
  | @announced cur service todo hpc =>
      refine h.move trivial (by rw [hpc]; rfl) ?_
      rintro other ⟨hcur, hcase⟩
      by_cases heq : other = service
      · subst heq
        refine ⟨(h.pending other (by rw [hpc]; rfl)).2, ?_⟩
        rw [lastLifecycle_cons, if_pos ⟨rfl, rfl⟩]
      · exact h.live_cons (by rw [hpc]; exact ⟨hcur, heq, hcase⟩) _ (Ne.symm heq)
  | started hpc => exact h.start hpc
  | @added cur hpc =>
      refine h.move trivial (by rw [hpc]; rfl) ?_
      intro service hlive
      exact h.live service (by rw [hpc]; exact ⟨hlive, Or.inr List.not_mem_nil⟩)
  | notified hpc =>
      refine h.move trivial (by rw [hpc]; rfl) ?_
      intro service hlive
      exact h.live service (by rw [hpc]; exact hlive)
  | @nodeRead goroutine node order lookupHost nodes infos hnode hpc =>
      refine h.nodeStep hnode (fun _ _ _ hselects => nomatch hselects) ?_ fun _ => rfl
      intro events hevents event hevent
      cases hevents
      obtain ⟨-, hopt⟩ := roundEvents_spec hevent
      rw [Event.isLifecycle]
      rcases hopt with hopt | hopt <;> rw [hopt] <;> rfl
  | @nodeSent goroutine node event events hnode hpc =>
      have hquiet := h.quiet goroutine node _ hnode hpc
      refine h.nodeStep hnode (fun _ _ _ hselects => nomatch hselects) ?_ ?_
      · intro rest hrest other hother
        cases hrest
        exact hquiet other (List.mem_cons_of_mem _ hother)
      · intro service
        rw [lastLifecycle_cons, if_neg]
        rintro ⟨-, hlifecycle⟩
        rw [hquiet event List.mem_cons_self] at hlifecycle
        cases hlifecycle
  | @nodeSelects goroutine node ctx hnode hpc hentry =>
      refine h.nodeStep hnode ?_ (fun _ hevents => nomatch hevents) fun _ => rfl
      rintro ctx' ctx'' hlookup hselects
      cases hselects
      exact Option.some.inj (hentry.symm.trans hlookup)
  | @nodeSelectsNil goroutine node hnode hpc hentry =>
      -- the entry of a running watcher is there, whether it is cancelled or not
      obtain ⟨ctx, hlookup, -⟩ := h.owner goroutine node hnode
      rw [hentry] at hlookup
      cases hlookup
  | nodeNotified hnode hpc =>
      exact h.nodeStep hnode (fun _ _ _ hselects => nomatch hselects)
        (fun _ hevents => nomatch hevents) fun _ => rfl
  | nodeClosed hnode hpc hdone => exact h.close hnode hpc hdone

theorem Watched.oneWatcher {zk : ZookeeperDiscovery} (h : Watched zk)
    (hwaiting : zk.watchServices = .waiting) {service : String} (hservice : service ∈ zk.services) :
    OneWatcher zk service := by
  obtain ⟨⟨ctx, hentry, huncancelled⟩, hlast⟩ :=
    h.live service (by rw [hwaiting]; exact hservice)
  obtain ⟨goroutine, hwatches⟩ := h.watcher service (Finmap.mem_iff.mpr ⟨ctx, hentry⟩)
    (by rw [hwaiting]; exact fun hpend => nomatch hpend)
  exact ⟨⟨ctx, hentry, huncancelled⟩,
    ⟨goroutine, hwatches, fun other hother => h.one other goroutine service hother hwatches⟩, hlast⟩

/-! ## Runs -/

/-- A step that finds no entry of a watcher which is still to return. -/
def TimelyStep (zk : ZookeeperDiscovery) (event : WatchEvent) (zk' : ZookeeperDiscovery) : Prop :=
  event.Timely zk ∧ WatchStep zk event zk'

/-- Neither goroutine has panicked, and when all is settled every service has
its watcher. -/
structure WatchersKept (zk : ZookeeperDiscovery) : Prop where
  running : zk.panicked = false
  watched : zk.Settled → ∀ service ∈ zk.services, OneWatcher zk service

/-- In every run in which no service comes back before its last watcher has
returned, every service has one watcher. -/
theorem one_watcher {events : List WatchEvent} {zk : ZookeeperDiscovery}
    (hrun : Run TimelyStep newZookeeperDiscovery events zk) : WatchersKept zk := by
  have h : Watched zk := Run.invariant (P := Watched)
    (fun _ _ _ h hstep => hstep.2.watched hstep.1 h) hrun watched_newZookeeperDiscovery
  exact ⟨h.running, fun hsettled service hservice => h.oneWatcher hsettled.1 hservice⟩

/-- One service is found, and its watcher is started. -/
def usersWatched : ZookeeperDiscovery where
  services := {"users"}
  shutdown := (∅ : GoMap String Nat).insert "users" 0
  cancelled := ∅
  watchServices := .waiting
  watchNodes := (∅ : GoMap Nat WatchNode).insert 1 ⟨"users", .reading⟩
  next := 2
  sent := [{ opt := .addService, serviceName := "users" }]
  panicked := false

theorem run_usersWatched : Run TimelyStep newZookeeperDiscovery
    [.listed {"users"} [], .dropped ["users"], .created "users", .announced "users",
      .started "users", .added] usersWatched :=
  .cons ⟨trivial, .listed rfl List.nodup_nil (by simp [newZookeeperDiscovery])⟩
    (.cons ⟨trivial, .dropped rfl (List.nodup_singleton _) (by simp)⟩
      (.cons ⟨trivial, .created rfl Finmap.notMem_empty⟩
        (.cons ⟨trivial, .announced rfl⟩
          (.cons ⟨trivial, .started rfl⟩ (.single ⟨trivial, .added rfl⟩)))))

theorem one_watcher_users : ∃ events, Run TimelyStep newZookeeperDiscovery events usersWatched ∧
    WatchersKept usersWatched :=
  ⟨_, run_usersWatched, one_watcher run_usersWatched⟩

/-- The service goes and comes back while its cancelled watcher has not
returned. -/
def usersBack : ZookeeperDiscovery where
  services := {"users"}
  shutdown := (∅ : GoMap String Nat).insert "users" 0
  cancelled := insert 0 ∅
  watchServices := .waiting
  watchNodes := (∅ : GoMap Nat WatchNode).insert 1 ⟨"users", .reading⟩
  next := 2
  sent := [{ opt := .removeService, serviceName := "users" },
    { opt := .addService, serviceName := "users" }]
  panicked := false

theorem run_usersBack : Run WatchStep usersWatched
    [.notified, .listed ∅ ["users"], .cancelled "users", .removed "users", .dropped [], .added,
      .notified, .listed {"users"} [], .dropped ["users"], .skipped "users", .added] usersBack :=
  .cons (.notified rfl)
    (.cons (.listed rfl (List.nodup_singleton _) (by simp [usersWatched]))
      (.cons (.cancelled rfl (Finset.notMem_empty _) (Finmap.lookup_insert _))
        (.cons (.removed rfl)
          (.cons (.dropped rfl List.nodup_nil (by simp))
            (.cons (.added rfl)
              (.cons (.notified rfl)
                (.cons (.listed rfl List.nodup_nil (by simp))
                  (.cons (.dropped rfl (List.nodup_singleton _) (by simp))
                    (.cons (.skipped rfl (Finmap.mem_insert.mpr (Or.inl rfl)))
                      (.single (.added rfl)))))))))))

/-- Then the watcher notices and returns. -/
theorem run_users_lost : ∃ events zk, Run WatchStep usersBack events zk ∧
    zk.watchServices = .waiting ∧ "users" ∈ zk.services ∧
    zk.shutdown.lookup "users" = none ∧ ∀ goroutine, goroutine ∉ zk.watchNodes := by
  have hrun : Run WatchStep usersBack
      [.nodeRead 1, .nodeSent 1 { opt := .removeHosts, serviceName := "users"
                                  children := _ },
        .nodeSelects 1, .nodeClosed 1] _ :=
    .cons (.nodeRead (.sorted _ _) (fun _ => none) [] ∅ (Finmap.lookup_insert _) rfl)
      (.cons (.nodeSent (Finmap.lookup_insert _) rfl)
        (.cons (.nodeSelects (Finmap.lookup_insert _) rfl (Finmap.lookup_insert _))
          (.single (.nodeClosed (Finmap.lookup_insert _) rfl (Finset.mem_insert_self _ _)))))
  refine ⟨_, _, hrun, rfl, Finset.mem_singleton_self _, Finmap.lookup_erase _ _, ?_⟩
  intro goroutine hmem
  obtain ⟨hne, hmem⟩ := Finmap.mem_erase.mp hmem
  simp only [ZookeeperDiscovery.setNode, usersBack, Finmap.mem_insert, hne, false_or] at hmem
  exact Finmap.notMem_empty hmem

/-- The service is in the list, and nothing watches it any more. -/
theorem service_unwatched : ¬ ∀ (events : List WatchEvent) (zk : ZookeeperDiscovery),
    Run WatchStep newZookeeperDiscovery events zk → WatchersKept zk := by
  intro hclaim
  obtain ⟨events, zk, hrun, hwaiting, hservice, hentry, hnone⟩ := run_users_lost
  have hsettled : zk.Settled := by
    refine ⟨hwaiting, ?_⟩
    rintro goroutine service ctx ⟨node, hnode, -⟩
    exact absurd (Finmap.mem_iff.mpr ⟨node, hnode⟩) (hnone goroutine)
  have hwatched := run_usersWatched.mono fun _ _ _ hstep => hstep.2
  obtain ⟨ctx, hlookup, -⟩ := ((hclaim _ zk (hwatched.append (run_usersBack.append hrun))).watched
    hsettled "users" hservice).entry
  rw [hentry] at hlookup
  cases hlookup

end Discovery
end VermouthGateway
