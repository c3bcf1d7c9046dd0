import VermouthGateway.Proxy.Restore

/-!
# The routing tables survive a snapshot

The router of a proxy is not part of its snapshot; `Restore` builds a new one
from `Paths`, `BalancerType` and `StaticMapping`.  It finds the router again
because these tables mirror it: this is the invariant `Mirrored`, and every
completed routing call keeps it.

* `RoutingCall.run_mirrored`: one call; `runCalls_mirrored`: a sequence.
* `routing_survives_restore`: a proxy reached by routing calls is restored with
  the same routes and tables, in whatever order the maps are ranged over.
-/

namespace VermouthGateway
namespace Proxy

open Go Balancing Acl
open HttpReverseProxy

/-- The calls that change the routing of a proxy. -/
inductive RoutingCall
  | addPrefix (prefixPath algo : String) (hosts : List String) (isStatic : Bool)
  | removePrefix (prefixPath : String)
  | addHost (prefixPath host : String)
  | removeHost (prefixPath host : String)
  | changeStatic (prefixPath : String)
  | changeLb (prefixPath lb : String)

def RoutingCall.run : RoutingCall → Eff HttpReverseProxy Unit
  | .addPrefix prefixPath algo hosts isStatic =>
      HttpReverseProxy.addPrefix prefixPath algo hosts isStatic
  | .removePrefix prefixPath => HttpReverseProxy.removePrefix prefixPath
  | .addHost prefixPath host => HttpReverseProxy.addHost prefixPath host
  | .removeHost prefixPath host => HttpReverseProxy.removeHost prefixPath host
  | .changeStatic prefixPath => HttpReverseProxy.changeStatic prefixPath
  | .changeLb prefixPath lb => HttpReverseProxy.changeLb prefixPath lb

/-- `Paths` copies the router `p`, and every routed prefix has a static flag. -/
structure Copies (proxy : HttpReverseProxy) (p : HashPrefixer) : Prop where
  router : proxy.prefixMapping = some p
  paths : ∀ q, proxy.paths.lookup q = (p.routes.lookup q).map View.hosts
  static : ∀ q ∈ p.routes, q ∈ proxy.staticMapping

/-- All the tables mirror the router `p`. -/
structure Mirrors (proxy : HttpReverseProxy) (p : HashPrefixer) : Prop
    extends Copies proxy p where
  modes : ∀ q, proxy.balancerType.lookup q = (p.routes.lookup q).map View.mode
  supported : ∀ q v, p.routes.lookup q = some v → Supported v.mode

/-- The tables of a proxy mirror its router, and there are no limiters and no
black list. -/
structure Mirrored (proxy : HttpReverseProxy) : Prop where
  free : proxy.mu = .free
  type : proxy.prefixerType = typeHashPrefixer
  mirrors : ∃ p, Mirrors proxy p
  infos : proxy.rateLimiterType = ∅
  limiters : proxy.rateLimiters = some ∅
  record : proxy.acl.record = ∅

theorem mirrored_newHttpReverseProxy {args : HttpProxyArgs} {shutdown : Nat}
    {proxy : HttpReverseProxy} (h : newHttpReverseProxy args shutdown = .ok proxy) :
    Mirrored proxy := by
  rw [newHttpReverseProxy, buildPrefixer] at h
  by_cases htype : args.prefixerType = typeHashPrefixer
  · rw [if_pos htype] at h
    cases h
    refine ⟨rfl, htype, ⟨newHashPrefixer, ⟨rfl, ?_, ?_⟩, ?_, ?_⟩, rfl, rfl, rfl⟩
    · intro q
      rw [HashPrefixer.routes_newHashPrefixer]
      rfl
    · intro q hq
      rw [HashPrefixer.routes_newHashPrefixer] at hq
      exact absurd hq Finmap.notMem_empty
    · intro q
      rw [HashPrefixer.routes_newHashPrefixer]
      rfl
    · intro q v hv
      rw [HashPrefixer.routes_newHashPrefixer] at hv
      cases hv
  · rw [if_neg htype] at h
    cases h

section Steps

variable {proxy : HttpReverseProxy} {p : HashPrefixer} {prefixPath : String}

/-- Adding a prefix writes the four tables alike. -/
theorem Copies.withPrefix (h : Copies proxy p) (algo : String) (isStatic : Bool)
    (b : Balancer) :
    Copies (proxy.withPrefix p prefixPath algo isStatic b)
      ⟨p.mapping.insert prefixPath b⟩ := by
  refine ⟨rfl, ?_, ?_⟩
  · intro q
    rw [HttpReverseProxy.withPrefix]
    dsimp only
    rw [GoMap.lookup_insert_eq, HashPrefixer.routes_insert, GoMap.lookup_insert_eq, h.paths]
    split <;> rfl
  · intro q hq
    rw [HashPrefixer.routes_insert, Finmap.mem_insert] at hq
    rw [HttpReverseProxy.withPrefix]
    dsimp only
    rw [Finmap.mem_insert]
    exact hq.imp id (h.static q)

theorem Mirrors.withPrefix (h : Mirrors proxy p) {algo : String} {hosts : List String}
    {isStatic : Bool} {b : Balancer} (hbuild : build algo hosts = .ok b) :
    Mirrors (proxy.withPrefix p prefixPath algo isStatic b) ⟨p.mapping.insert prefixPath b⟩ := by
  have hview := (build_ok hbuild).1
  refine ⟨h.toCopies.withPrefix algo isStatic b, ?_, ?_⟩
  · intro q
    rw [HttpReverseProxy.withPrefix]
    dsimp only
    rw [GoMap.lookup_insert_eq, HashPrefixer.routes_insert, GoMap.lookup_insert_eq, h.modes,
      hview]
    split <;> rfl
  · intro q v hv
    rw [HashPrefixer.routes_insert, GoMap.lookup_insert_eq] at hv
    split at hv
    · cases hv
      rw [hview]
      exact supported_of_build hbuild
    · exact h.supported q v hv

/-- Removing a prefix erases it from the tables but for its static flag. -/
theorem Copies.withoutPrefix (h : Copies proxy p) :
    Copies (proxy.withoutPrefix p prefixPath) (p.remove prefixPath) := by
  refine ⟨rfl, ?_, ?_⟩
  · intro q
    rw [HttpReverseProxy.withoutPrefix]
    dsimp only
    rw [GoMap.lookup_erase_eq, HashPrefixer.routes_remove, GoMap.lookup_erase_eq, h.paths]
    split <;> rfl
  · intro q hq
    rw [HashPrefixer.routes_remove, Finmap.mem_erase] at hq
    exact h.static q hq.2

theorem Mirrors.withoutPrefix (h : Mirrors proxy p) :
    Mirrors (proxy.withoutPrefix p prefixPath) (p.remove prefixPath) := by
  refine ⟨h.toCopies.withoutPrefix, ?_, ?_⟩
  · intro q
    rw [HttpReverseProxy.withoutPrefix]
    dsimp only
    rw [GoMap.lookup_erase_eq, HashPrefixer.routes_remove, GoMap.lookup_erase_eq, h.modes]
    split <;> rfl
  · intro q v hv
    rw [HashPrefixer.routes_remove, GoMap.lookup_erase_eq_some_iff] at hv
    exact h.supported q v hv.2

theorem lookup_routes_of_balancer {b : Balancer} (hb : p.getBalancer prefixPath = some b) :
    p.routes.lookup prefixPath = some b.view := by
  rw [HashPrefixer.lookup_routes, hb]
  rfl

/-- Changing the hosts of a routed prefix copies them to `Paths`. -/
theorem Copies.withBalancer (h : Copies proxy p) {b : Balancer} (b' : Balancer)
    (hb : p.getBalancer prefixPath = some b) :
    Copies (proxy.withBalancer p prefixPath b') ⟨p.mapping.insert prefixPath b'⟩ := by
  refine ⟨rfl, ?_, ?_⟩
  · intro q
    rw [HttpReverseProxy.withBalancer]
    dsimp only
    rw [GoMap.lookup_insert_eq, HashPrefixer.routes_insert, GoMap.lookup_insert_eq, h.paths]
    split <;> rfl
  · intro q hq
    rw [HashPrefixer.routes_insert, Finmap.mem_insert] at hq
    rcases hq with rfl | hq
    · exact h.static q (Finmap.mem_iff.mpr ⟨b.view, lookup_routes_of_balancer hb⟩)
    · exact h.static q hq

theorem Mirrors.withBalancer (h : Mirrors proxy p) {b b' : Balancer}
    (hb : p.getBalancer prefixPath = some b) (hmode : b'.mode = b.mode) :
    Mirrors (proxy.withBalancer p prefixPath b') ⟨p.mapping.insert prefixPath b'⟩ := by
  have hroute := lookup_routes_of_balancer hb
  refine ⟨h.toCopies.withBalancer b' hb, ?_, ?_⟩
  · intro q
    rw [HashPrefixer.routes_insert, GoMap.lookup_insert_eq]
    by_cases hq : q = prefixPath
    · subst hq
      rw [if_pos rfl]
      show proxy.balancerType.lookup q = some b'.mode
      rw [h.modes, hroute, hmode]
      rfl
    · rw [if_neg hq]
      exact h.modes q
  · intro q v hv
    rw [HashPrefixer.routes_insert, GoMap.lookup_insert_eq] at hv
    split at hv
    · cases hv
      rw [Balancer.view_mode, hmode]
      exact h.supported prefixPath b.view hroute
    · exact h.supported q v hv

theorem Copies.setStatic (h : Copies proxy p) (isStatic : Bool) :
    Copies { proxy with staticMapping := proxy.staticMapping.insert prefixPath isStatic } p :=
  { h with
    static := fun q hq => Finmap.mem_insert.mpr (Or.inr (h.static q hq)) }

theorem Mirrors.setStatic (h : Mirrors proxy p) (isStatic : Bool) :
    Mirrors { proxy with staticMapping := proxy.staticMapping.insert prefixPath isStatic } p :=
  ⟨h.toCopies.setStatic isStatic, h.modes, h.supported⟩

/-- Removing a prefix records nothing. -/
theorem nothing_withoutPrefix (p : HashPrefixer) (prefixPath : String)
    (hinfos : proxy.rateLimiterType = ∅)
    (hlimiters : proxy.rateLimiters = some ∅) :
    (proxy.withoutPrefix p prefixPath).rateLimiterType = ∅ ∧
      (proxy.withoutPrefix p prefixPath).rateLimiters = some ∅ := by
  rw [HttpReverseProxy.withoutPrefix]
  dsimp only
  rw [hinfos, hlimiters]
  exact ⟨rfl, rfl⟩

end Steps

/-- Every completed routing call keeps the tables in step with the router. -/
theorem RoutingCall.run_mirrored {proxy proxy' : HttpReverseProxy} (call : RoutingCall)
    (h : Mirrored proxy) (hrun : EStateM.run call.run proxy = .ok () proxy') :
    Mirrored proxy' := by
  obtain ⟨hfree, htype, ⟨p, hp⟩, hinfos, hlimiters, hrecord⟩ := h
  cases call with
  | addPrefix prefixPath algo hosts isStatic =>
      obtain ⟨-, p₁, hp₁, ⟨-, rfl⟩ | ⟨-, b, hbuild, rfl⟩⟩ := run_addPrefix_ok hrun
      · exact ⟨hfree, htype, ⟨p, hp⟩, hinfos, hlimiters, hrecord⟩
      · obtain rfl : p = p₁ := Option.some.inj (hp.router.symm.trans hp₁)
        exact ⟨hfree, htype, ⟨_, hp.withPrefix hbuild⟩, hinfos, hlimiters, hrecord⟩
  | removePrefix prefixPath =>
      obtain ⟨-, p₁, hp₁, rfl⟩ := run_removePrefix_ok hrun
      obtain rfl : p = p₁ := Option.some.inj (hp.router.symm.trans hp₁)
      obtain ⟨hinfos', hlimiters'⟩ := nothing_withoutPrefix p prefixPath hinfos hlimiters
      exact ⟨hfree, htype, ⟨_, hp.withoutPrefix⟩, hinfos', hlimiters', hrecord⟩
  | addHost prefixPath host =>
      obtain ⟨-, p₁, b, b', hp₁, hb, hbody, rfl⟩ := run_updateHosts_ok hrun
      obtain rfl : p = p₁ := Option.some.inj (hp.router.symm.trans hp₁)
      have hmode := Balancer.run_add_mode hbody
      exact ⟨hfree, htype, ⟨_, hp.withBalancer hb hmode⟩, hinfos, hlimiters, hrecord⟩
  | removeHost prefixPath host =>
      obtain ⟨-, p₁, b, b', hp₁, hb, hbody, rfl⟩ := run_updateHosts_ok hrun
      obtain rfl : p = p₁ := Option.some.inj (hp.router.symm.trans hp₁)
      have hmode := Balancer.run_remove_mode hbody
      exact ⟨hfree, htype, ⟨_, hp.withBalancer hb hmode⟩, hinfos, hlimiters, hrecord⟩
  | changeStatic prefixPath =>
      rw [RoutingCall.run, run_changeStatic hfree] at hrun
      cases hrun
      exact ⟨hfree, htype, ⟨p, hp.setStatic _⟩, hinfos, hlimiters, hrecord⟩
  | changeLb prefixPath lb =>
      obtain ⟨-, p₁, b, b', hp₁, hb, hbuild, rfl⟩ := run_changeLb_ok hrun
      obtain rfl : p = p₁ := Option.some.inj (hp.router.symm.trans hp₁)
      obtain ⟨hinfos', hlimiters'⟩ := nothing_withoutPrefix p prefixPath hinfos hlimiters
      exact ⟨hfree, htype, ⟨_, hp.withoutPrefix.withPrefix hbuild⟩, hinfos', hlimiters', hrecord⟩

theorem runCalls_mirrored {proxy proxy' : HttpReverseProxy} {calls : List RoutingCall}
    (h : Mirrored proxy) (hrun : EStateM.run (forEach calls RoutingCall.run) proxy =
      .ok () proxy') : Mirrored proxy' :=
  run_forEach_ok hrun h fun call _ _ _ _ hmirrored hcall => call.run_mirrored hmirrored hcall

/-- The routing of two proxies is the same: the same prefixes on balancers of
the same mode with the same hosts, and the same tables. -/
structure SameRouting (proxy proxy' : HttpReverseProxy) : Prop where
  routes : proxy'.prefixMapping.map HashPrefixer.routes =
    proxy.prefixMapping.map HashPrefixer.routes
  paths : proxy'.paths = proxy.paths
  balancerType : proxy'.balancerType = proxy.balancerType
  staticMapping : proxy'.staticMapping = proxy.staticMapping

/-- What `Restore` builds the router from is the same. -/
structure SameFields (proxy start : HttpReverseProxy) : Prop where
  type : start.prefixerType = proxy.prefixerType
  paths : start.paths = proxy.paths
  balancerType : start.balancerType = proxy.balancerType
  staticMapping : start.staticMapping = proxy.staticMapping

section Snapshots

variable {proxy proxy' start : HttpReverseProxy} {p : HashPrefixer}

/-- A snapshot has all of it. -/
theorem sameFields_decode (proxy : HttpReverseProxy) : SameFields proxy proxy.encode.decode :=
  ⟨rfl, rfl, rfl, rfl⟩

/-- A prefix in `Paths` is routed as the tables say. -/
theorem Mirrors.route (h : Mirrors proxy p) {q : String} {hosts : List String}
    (hq : proxy.paths.lookup q = some hosts) :
    p.routes.lookup q = some ⟨proxy.balancerType.get q "", hosts⟩ := by
  rw [h.paths] at hq
  obtain ⟨v, hv, rfl⟩ := Option.map_eq_some_iff.mp hq
  have hbalancer : proxy.balancerType.lookup q = some v.mode := by
    rw [h.modes, hv]
    rfl
  rw [hv, GoMap.get_of_lookup hbalancer]

theorem Mirrors.prefixesSupported (h : Mirrors proxy p) : proxy.PrefixesSupported := by
  intro k hk
  obtain ⟨hosts, hhosts⟩ := Finmap.mem_iff.mp hk
  exact h.supported k _ (h.route hhosts)

/-- A proxy restored from the fields of a mirrored one routes alike. -/
theorem Mirrors.sameRouting (h : Mirrors proxy p) (hfields : SameFields proxy start)
    {tree : RadixTree} (hrestored : Restored start tree proxy') : SameRouting proxy proxy' := by
  obtain ⟨static, router, limiters, recorded, hframe⟩ := hrestored.frame
  obtain ⟨router', hrouter', hroutes⟩ := hrestored.routes
  have hstatic := hrestored.static
  rw [hfields.paths, hfields.balancerType] at hroutes
  rw [hfields.paths, hfields.staticMapping] at hstatic
  refine ⟨?_, by rw [hframe]; exact hfields.paths, by rw [hframe]; exact hfields.balancerType, ?_⟩
  · rw [hrouter', h.router]
    refine congrArg some (Finmap.ext_lookup fun q => ?_)
    rw [hroutes]
    cases hq : proxy.paths.lookup q with
    | none =>
        rw [h.paths, Option.map_eq_none_iff] at hq
        rw [hq]
        rfl
    | some hosts => exact (h.route hq).symm
  · refine Finmap.ext_lookup fun q => ?_
    rw [hstatic]
    split
    · next hq =>
        obtain ⟨hosts, hhosts⟩ := Finmap.mem_iff.mp hq
        obtain ⟨flag, hflag⟩ := Finmap.mem_iff.mp
          (h.static q (Finmap.mem_iff.mpr ⟨_, h.route hhosts⟩))
        rw [GoMap.get_of_lookup hflag, hflag]
    · rfl

/-- Tables that mirror a router mirror every router with the same routes. -/
theorem SameRouting.mirrors (hsame : SameRouting proxy proxy') (h : Mirrors proxy p) :
    ∃ p', Mirrors proxy' p' := by
  obtain ⟨hroutes, hpaths, hmodes, hstatic⟩ := hsame
  rw [h.router] at hroutes
  obtain ⟨p', hp', heq⟩ := Option.map_eq_some_iff.mp hroutes
  refine ⟨p', ⟨hp', ?_, ?_⟩, ?_, ?_⟩
  · intro q
    rw [hpaths, heq, h.paths]
  · intro q hq
    rw [heq] at hq
    rw [hstatic]
    exact h.static q hq
  · intro q
    rw [hmodes, heq, h.modes]
  · intro q v hv
    rw [heq] at hv
    exact h.supported q v hv

end Snapshots

/-- Restoring from the exported fields of a mirrored proxy finds its routing. -/
theorem Mirrored.restore {proxy : HttpReverseProxy} (h : Mirrored proxy)
    (order : RestoreOrder) :
    ∃ proxy', EStateM.run (HttpReverseProxy.restore order) proxy.encode.decode =
        .ok true proxy' ∧ SameRouting proxy proxy' := by
  obtain ⟨-, htype, ⟨p, hp⟩, hinfos, -, hrecord⟩ := h
  have hspeeds : proxy.encode.decode.SpeedsNonzero := by
    intro k infos hk
    have hempty : proxy.rateLimiterType.lookup k = some infos := hk
    rw [hinfos] at hempty
    cases hempty
  have hacl := rebuildAcl_empty (show proxy.encode.decode.acl.record = ∅ from hrecord) order
  obtain ⟨answer, proxy', hrun⟩ := completes_iff.mp
    ((completes_restore_iff order (show proxy.encode.decode.mu = .free from rfl)).mpr
      (Or.inr ⟨hp.prefixesSupported, hspeeds, newRadixTree, hacl⟩))
  rcases run_restore_ok hrun with ⟨hne, -⟩ | ⟨-, rfl, -, -, tree, -, hrestored⟩
  · exact absurd htype hne
  · exact ⟨proxy', hrun, hp.sameRouting (sameFields_decode proxy) hrestored⟩

/-- A proxy reached from a new one by completed routing calls is restored from
its exported fields with the same routing, whatever the orders. -/
theorem routing_survives_restore {args : HttpProxyArgs} {shutdown : Nat}
    {start proxy : HttpReverseProxy} {calls : List RoutingCall}
    (hnew : newHttpReverseProxy args shutdown = .ok start)
    (hrun : EStateM.run (forEach calls RoutingCall.run) start = .ok () proxy)
    (order : RestoreOrder) :
    ∃ proxy', EStateM.run (HttpReverseProxy.restore order) proxy.encode.decode =
        .ok true proxy' ∧ SameRouting proxy proxy' :=
  (runCalls_mirrored (mirrored_newHttpReverseProxy hnew) hrun).restore order

/-- One registered prefix, restored in key order. -/
theorem routing_survives_restore_one_prefix : ∃ start proxy,
    newHttpReverseProxy ⟨8080, typeHashPrefixer, []⟩ 0 = .ok start ∧
    EStateM.run (forEach [.addPrefix "/api" "round-robin" ["10.0.0.1:80"] false]
      RoutingCall.run) start = .ok () proxy ∧
    ∃ proxy', EStateM.run (HttpReverseProxy.restore .sorted) proxy.encode.decode =
        .ok true proxy' ∧ SameRouting proxy proxy' := by
  obtain ⟨start, hnew⟩ : ∃ start,
      newHttpReverseProxy ⟨8080, typeHashPrefixer, []⟩ 0 = .ok start := ⟨_, rfl⟩
  obtain ⟨u, proxy, hrun⟩ : ∃ u proxy,
      EStateM.run (forEach [.addPrefix "/api" "round-robin" ["10.0.0.1:80"] false]
        RoutingCall.run) start = .ok u proxy := by
    cases hnew
    exact ⟨_, _, rfl⟩
  exact ⟨start, proxy, hnew, hrun, routing_survives_restore hnew hrun .sorted⟩

end Proxy
end VermouthGateway
