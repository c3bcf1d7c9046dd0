import VermouthGateway.Proxy.RoutingTables

/-!
# The hosts of a prefix

`GetHosts` answers from `Paths`, which copies the list a balancer reports.

* `Balances` is a round-robin prefix with its hosts; `run_addHost_balances` and
  `run_removeHost_balances` say what the calls make of it, and
  `run_addHost_idle` when one of them returns.
* `mem_getHosts_addPrefix`, `mem_getHosts_addHost`: on any prefix the two calls
  keep the hosts that were there, and when they list the new one.
-/

namespace VermouthGateway
namespace Proxy

open Go Balancing
open HttpReverseProxy

/-- The prefix is routed by round robin to these hosts. -/
structure Balances (proxy : HttpReverseProxy) (prefixPath : String) (hosts : List String) :
    Prop where
  routed : ∃ p r, proxy.prefixMapping = some p ∧
    p.getBalancer prefixPath = some (.roundRobin r) ∧ r.hosts = hosts
  paths : proxy.paths.lookup prefixPath = some hosts

section RoundRobin

variable {proxy proxy' : HttpReverseProxy} {prefixPath host : String} {hosts : List String}

namespace Balances

theorem getHosts (h : Balances proxy prefixPath hosts) : proxy.getHosts prefixPath = hosts :=
  GoMap.get_of_lookup h.paths

theorem prefixExists (h : Balances proxy prefixPath hosts) :
    proxy.prefixExists prefixPath = true := by
  rw [HttpReverseProxy.prefixExists, h.paths]
  rfl

theorem hostExists (h : Balances proxy prefixPath hosts) (host : String) :
    proxy.hostExists prefixPath host = decide (host ∈ hosts) := by
  rw [HttpReverseProxy.hostExists, GoMap.get_of_lookup h.paths]

/-- The prefix gets another list of hosts. -/
theorem withBalancer (p : HashPrefixer) (r : RoundRobin) :
    Balances (proxy.withBalancer p prefixPath (.roundRobin r)) prefixPath r.hosts where
  routed := ⟨_, r, rfl, Finmap.lookup_insert _, rfl⟩
  paths := Finmap.lookup_insert _

end Balances

/-- A call that changes the hosts of a round-robin prefix. -/
theorem run_updateHosts_balances {body : Eff Balancer Unit} {onHosts : List String}
    (h : Balances proxy prefixPath hosts)
    (hbody : ∀ r b', r.hosts = hosts → EStateM.run body (.roundRobin r) = .ok () b' →
      ∃ r', b' = .roundRobin r' ∧ r'.hosts = onHosts)
    (hrun : EStateM.run (updateHosts prefixPath body) proxy = .ok () proxy') :
    Balances proxy' prefixPath onHosts := by
  obtain ⟨p, r, hp, hb, hhosts⟩ := h.routed
  obtain ⟨-, p', b, b', hp', hb', hcall, rfl⟩ := run_updateHosts_ok hrun
  cases hp.symm.trans hp'
  cases hb.symm.trans hb'
  obtain ⟨r', rfl, rfl⟩ := hbody r b' hhosts hcall
  exact Balances.withBalancer p r'

theorem run_addHost_balances (h : Balances proxy prefixPath hosts)
    (hrun : EStateM.run (addHost prefixPath host) proxy = .ok () proxy') :
    Balances proxy' prefixPath (RoundRobin.addedHosts hosts host) := by
  refine run_updateHosts_balances h ?_ hrun
  rintro r b' rfl hcall
  have hfree := (Balancer.completes_add_iff _ host).mp (by rw [hcall]; trivial)
  rw [Balancer.add, Balancer.run_dispatch_roundRobin, RoundRobin.run_add hfree] at hcall
  cases hcall
  exact ⟨_, rfl, rfl⟩

theorem run_removeHost_balances (h : Balances proxy prefixPath hosts)
    (hrun : EStateM.run (removeHost prefixPath host) proxy = .ok () proxy') :
    Balances proxy' prefixPath (hosts.erase host) := by
  refine run_updateHosts_balances h ?_ hrun
  rintro r b' rfl hcall
  have hfree := (Balancer.completes_remove_iff _ host).mp (by rw [hcall]; trivial)
  rw [Balancer.remove, Balancer.run_dispatch_roundRobin, RoundRobin.run_remove hfree] at hcall
  cases hcall
  exact ⟨_, rfl, rfl⟩

/-- The locks that a change of the hosts asks for are free. -/
def Idle (proxy : HttpReverseProxy) (prefixPath : String) : Prop :=
  proxy.mu = .free ∧ ∃ p r, proxy.prefixMapping = some p ∧
    p.getBalancer prefixPath = some (.roundRobin r) ∧ r.mu = .free

/-- `AddHost` then returns, and gives both locks back. -/
theorem run_addHost_idle (h : Idle proxy prefixPath) (host : String) :
    ∃ proxy', EStateM.run (addHost prefixPath host) proxy = .ok () proxy' ∧
      Idle proxy' prefixPath := by
  obtain ⟨hfree, p, r, hp, hb, hlock⟩ := h
  have hadd : EStateM.run (Balancer.add host) (.roundRobin r) =
      .ok () (.roundRobin { r with hosts := RoundRobin.addedHosts r.hosts host }) := by
    rw [Balancer.add, Balancer.run_dispatch_roundRobin, RoundRobin.run_add hlock]
    rfl
  refine ⟨proxy.withBalancer p prefixPath
    (.roundRobin { r with hosts := RoundRobin.addedHosts r.hosts host }), ?_, hfree, ?_⟩
  · rw [addHost, run_updateHosts hfree hp, hb]
    dsimp only
    rw [hadd]
  · exact ⟨_, _, rfl, Finmap.lookup_insert _, hlock⟩

end RoundRobin

/-! ## Any prefix -/

section Listed

variable {proxy proxy' : HttpReverseProxy} {p : HashPrefixer} {prefixPath q addr : String}

theorem getHosts_of_balancer (h : Copies proxy p) {b : Balancer}
    (hb : p.getBalancer prefixPath = some b) : proxy.getHosts prefixPath = b.hosts := by
  have hroute := h.paths prefixPath
  rw [lookup_routes_of_balancer hb] at hroute
  exact GoMap.get_of_lookup hroute

theorem getHosts_of_unrouted (h : Copies proxy p) (hnot : prefixPath ∉ p.mapping) :
    proxy.getHosts prefixPath = [] := by
  have hnone : p.routes.lookup prefixPath = none :=
    Finmap.lookup_eq_none.mpr fun hmem => hnot ((p.mem_routes prefixPath).mp hmem)
  rw [getHosts, GoMap.get, h.paths, hnone]
  rfl

theorem getHosts_withBalancer (b : Balancer) :
    (proxy.withBalancer p prefixPath b).getHosts q =
      if q = prefixPath then b.hosts else proxy.getHosts q := by
  rw [getHosts, HttpReverseProxy.withBalancer, GoMap.get]
  dsimp only
  rw [GoMap.lookup_insert_eq]
  split <;> rfl

theorem getHosts_withPrefix (algo : String) (isStatic : Bool) (b : Balancer) :
    (proxy.withPrefix p prefixPath algo isStatic b).getHosts q =
      if q = prefixPath then b.hosts else proxy.getHosts q := by
  rw [getHosts, HttpReverseProxy.withPrefix, GoMap.get]
  dsimp only
  rw [GoMap.lookup_insert_eq]
  split <;> rfl

/-- `AddPrefix` keeps every listed host. -/
theorem mem_getHosts_addPrefix (h : Copies proxy p) {algo : String} {hosts : List String}
    {isStatic : Bool}
    (hrun : EStateM.run (addPrefix prefixPath algo hosts isStatic) proxy = .ok () proxy')
    (hlisted : addr ∈ proxy.getHosts q) : addr ∈ proxy'.getHosts q := by
  obtain ⟨-, p', hp', ⟨-, rfl⟩ | ⟨hnew, b, hbuild, rfl⟩⟩ := run_addPrefix_ok hrun
  · exact hlisted
  · cases h.router.symm.trans hp'
    have hne : q ≠ prefixPath := by
      rintro rfl
      rw [getHosts_of_unrouted h hnew] at hlisted
      cases hlisted
    rwa [getHosts_withPrefix, if_neg hne]

/-- On a new prefix `AddPrefix` lists the hosts it was given. -/
theorem getHosts_addPrefix_new (h : Copies proxy p) {algo : String} {hosts : List String}
    {isStatic : Bool} (hnew : prefixPath ∉ p.mapping)
    (hrun : EStateM.run (addPrefix prefixPath algo hosts isStatic) proxy = .ok () proxy') :
    proxy'.getHosts prefixPath = hosts := by
  obtain ⟨-, p', hp', ⟨hold, rfl⟩ | ⟨-, b, hbuild, rfl⟩⟩ := run_addPrefix_ok hrun
  · cases h.router.symm.trans hp'
    exact absurd hold hnew
  · rw [getHosts_withPrefix, if_pos rfl]
    exact congrArg View.hosts (build_ok hbuild).1

theorem mem_addedHosts {hosts : List String} {host : String} :
    addr ∈ RoundRobin.addedHosts hosts host ↔ addr ∈ hosts ∨ addr = host := by
  rw [RoundRobin.addedHosts]
  split
  · next hmem =>
      refine ⟨Or.inl, ?_⟩
      rintro (hold | rfl)
      · exact hold
      · exact hmem
  · rw [List.mem_append, List.mem_singleton]

/-- `AddHost` keeps every listed host. -/
theorem mem_getHosts_addHost (h : Copies proxy p) {host : String}
    (hrun : EStateM.run (addHost prefixPath host) proxy = .ok () proxy')
    (hlisted : addr ∈ proxy.getHosts q) : addr ∈ proxy'.getHosts q := by
  obtain ⟨-, p', b, b', hp', hb, hcall, rfl⟩ := run_updateHosts_ok hrun
  cases h.router.symm.trans hp'
  rw [getHosts_withBalancer]
  split
  · next heq =>
      subst heq
      rw [getHosts_of_balancer h hb] at hlisted
      have hhosts : b'.hosts = (b.view.add host).hosts :=
        congrArg View.hosts (Balancer.run_add_view hcall)
      rw [hhosts, View.add]
      split
      · exact mem_addedHosts.mpr (Or.inl hlisted)
      · exact hlisted
  · exact hlisted

/-- By round robin `AddHost` lists the new host. -/
theorem mem_getHosts_addHost_self (h : Copies proxy p) {host : String} {b : Balancer}
    (hb : p.getBalancer prefixPath = some b) (hmode : b.mode = typeRoundRobin)
    (hrun : EStateM.run (addHost prefixPath host) proxy = .ok () proxy') :
    host ∈ proxy'.getHosts prefixPath := by
  obtain ⟨-, p', b₁, b', hp', hb₁, hcall, rfl⟩ := run_updateHosts_ok hrun
  cases h.router.symm.trans hp'
  cases hb.symm.trans hb₁
  have hhosts : b'.hosts = (b.view.add host).hosts :=
    congrArg View.hosts (Balancer.run_add_view hcall)
  have hview : b.view.mode = typeRoundRobin := hmode
  rw [getHosts_withBalancer, if_pos rfl, hhosts, View.add, if_pos hview]
  exact mem_addedHosts.mpr (Or.inr rfl)

end Listed

end Proxy
end VermouthGateway
