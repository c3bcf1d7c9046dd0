import VermouthGateway.Proxy.Routing
import VermouthGateway.Proxy.Sound

/-!
# What a proxy routes

`Routing` is the routing of a proxy as it is meant: a map from the registered
prefixes to an algorithm and a list of hosts, and the static flags.  A proxy
keeps it four times over, in its router and in three tables; `Represents` says
that they all tell the same.

* `RoutingCall.route`: what a call means.
* `ProxyCall.run_represents`, `represents_serveHTTP`: calls do what they mean,
  and requests change nothing.
* `forwarded_by_routing`: a request is forwarded as the routing says.
-/

namespace VermouthGateway
namespace Proxy

open Go Balancing Acl
open HttpReverseProxy

structure Routing where
  routes : GoMap String View
  static : GoMap String Bool

namespace Routing

/-- Nothing is routed. -/
def empty : Routing := ⟨∅, ∅⟩

/-- The routing with another view on a prefix, where it is routed. -/
def onRoute (R : Routing) (prefixPath : String) (f : View → View) : Routing :=
  match R.routes.lookup prefixPath with
  | none => R
  | some v => { R with routes := R.routes.insert prefixPath (f v) }

theorem onRoute_of_lookup {R : Routing} {prefixPath : String} {v : View}
    (h : R.routes.lookup prefixPath = some v) (f : View → View) :
    R.onRoute prefixPath f = { R with routes := R.routes.insert prefixPath (f v) } := by
  rw [onRoute, h]

/-- A routed prefix that the path is, or continues with a slash. -/
structure Candidate (R : Routing) (path q : String) : Prop where
  registered : q ∈ R.routes
  nonempty : q ≠ ""
  leads : path = q ∨ ∃ rest, path = q ++ "/" ++ rest

/-- The prefix a path belongs to: the longest candidate, or else the root. -/
def RoutesTo (R : Routing) (path q : String) : Prop :=
  (R.Candidate path q ∧ ∀ q', R.Candidate path q' → q'.length ≤ q.length) ∨
    q = "/" ∧ ∀ q', ¬ R.Candidate path q'

end Routing

/-- What a call makes of the routing. -/
def RoutingCall.route : RoutingCall → Routing → Routing
  | .addPrefix prefixPath algo hosts isStatic, R =>
      if prefixPath ∈ R.routes then R
      else ⟨R.routes.insert prefixPath ⟨algo, hosts⟩, R.static.insert prefixPath isStatic⟩
  -- the static flag outlives the prefix
  | .removePrefix prefixPath, R => { R with routes := R.routes.erase prefixPath }
  | .addHost prefixPath host, R => R.onRoute prefixPath fun v => v.add host
  | .removeHost prefixPath host, R => R.onRoute prefixPath fun v => v.remove host
  | .changeStatic prefixPath, R =>
      { R with static := R.static.insert prefixPath (!R.static.get prefixPath false) }
  | .changeLb prefixPath lb, R =>
      { R.onRoute prefixPath fun v => ⟨lb, v.hosts⟩ with
        static := R.static.insert prefixPath (R.static.get prefixPath false) }

def ProxyCall.route : ProxyCall → Routing → Routing
  | .routing call, R => call.route R
  | _, R => R

/-- The router and the tables of a proxy all tell this routing. -/
structure Represents (proxy : HttpReverseProxy) (R : Routing) : Prop where
  type : proxy.prefixerType = typeHashPrefixer
  mirrors : ∃ p, Mirrors proxy p ∧ p.routes = R.routes
  static : proxy.staticMapping = R.static

namespace Represents

variable {proxy proxy' : HttpReverseProxy} {R : Routing}

/-- The tables are determined by the routing. -/
theorem sameRouting (h : Represents proxy R) (h' : Represents proxy' R) :
    SameRouting proxy proxy' := by
  obtain ⟨p, hp, hroutes⟩ := h.mirrors
  obtain ⟨p', hp', hroutes'⟩ := h'.mirrors
  have hsame : p'.routes = p.routes := hroutes'.trans hroutes.symm
  refine ⟨?_, Finmap.ext_lookup fun q => ?_, Finmap.ext_lookup fun q => ?_,
    h'.static.trans h.static.symm⟩
  · rw [hp.router, hp'.router, Option.map_some, Option.map_some, hsame]
  · rw [hp'.paths, hp.paths, hsame]
  · rw [hp'.modes, hp.modes, hsame]

/-- The routing is determined by the router. -/
theorem unique {R' : Routing} (h : Represents proxy R) (h' : Represents proxy R') : R = R' := by
  obtain ⟨routes, static⟩ := R
  obtain ⟨routes', static'⟩ := R'
  obtain ⟨p, hp, rfl⟩ := h.mirrors
  obtain ⟨p', hp', rfl⟩ := h'.mirrors
  obtain rfl := h.static
  obtain rfl := h'.static
  obtain rfl : p = p' := Option.some.inj (hp.router.symm.trans hp'.router)
  rfl

/-- A proxy of the same type with the same routing. -/
theorem of_sameRouting (h : Represents proxy R) (hsame : SameRouting proxy proxy')
    (htype : proxy'.prefixerType = typeHashPrefixer) : Represents proxy' R := by
  obtain ⟨p, hp, hroutes⟩ := h.mirrors
  obtain ⟨p', hp'⟩ := hsame.mirrors hp
  refine ⟨htype, ⟨p', hp', ?_⟩, hsame.staticMapping.trans h.static⟩
  have hrouters := hsame.routes
  rw [hp.router, hp'.router] at hrouters
  exact (Option.some.inj hrouters).trans hroutes

theorem of_sameRoutes (h : Represents proxy R) (hsame : SameRoutes proxy proxy') :
    Represents proxy' R := by
  obtain ⟨pm, rfl, hroutes⟩ := hsame
  exact h.of_sameRouting ⟨hroutes, rfl, rfl, rfl⟩ h.type

end Represents

theorem represents_newHttpReverseProxy {args : HttpProxyArgs} {shutdown : Nat}
    {proxy : HttpReverseProxy} (h : newHttpReverseProxy args shutdown = .ok proxy) :
    Represents proxy Routing.empty := by
  have hmirrored := mirrored_newHttpReverseProxy h
  rw [newHttpReverseProxy, buildPrefixer] at h
  by_cases htype : args.prefixerType = typeHashPrefixer
  · rw [if_pos htype] at h
    cases h
    obtain ⟨p, hp⟩ := hmirrored.mirrors
    obtain rfl : newHashPrefixer = p := Option.some.inj hp.router
    exact ⟨htype, ⟨_, hp, HashPrefixer.routes_newHashPrefixer⟩, rfl⟩
  · rw [if_neg htype] at h
    cases h

/-! ## Calls -/

section Calls

variable {proxy proxy' : HttpReverseProxy} {R : Routing}

/-- A call on the balancer of a prefix changes the view on the prefix. -/
theorem Represents.updateHosts {prefixPath : String} {body : Eff Balancer Unit} {f : View → View}
    (h : Represents proxy R)
    (hbody : ∀ b b', EStateM.run body b = .ok () b' → b'.mode = b.mode ∧ b'.view = f b.view)
    (hrun : EStateM.run (HttpReverseProxy.updateHosts prefixPath body) proxy = .ok () proxy') :
    Represents proxy' (R.onRoute prefixPath f) := by
  obtain ⟨htype, ⟨p, hp, hroutes⟩, hstatic⟩ := h
  obtain ⟨-, p₁, b, b', hp₁, hb, hcall, rfl⟩ := run_updateHosts_ok hrun
  obtain rfl : p = p₁ := Option.some.inj (hp.router.symm.trans hp₁)
  obtain ⟨hmode, hview⟩ := hbody b b' hcall
  have hlookup := lookup_routes_of_balancer hb
  rw [hroutes] at hlookup
  rw [Routing.onRoute_of_lookup hlookup]
  refine ⟨htype, ⟨_, hp.withBalancer hb hmode, ?_⟩, hstatic⟩
  rw [HashPrefixer.routes_insert, hview, hroutes]

theorem RoutingCall.run_represents (call : RoutingCall) (h : Represents proxy R)
    (hrun : EStateM.run call.run proxy = .ok () proxy') : Represents proxy' (call.route R) := by
  obtain ⟨htype, ⟨p, hp, hroutes⟩, hstatic⟩ := h
  cases call with
  | addPrefix prefixPath algo hosts isStatic =>
      obtain ⟨-, p₁, hp₁, hcases⟩ := run_addPrefix_ok hrun
      obtain rfl : p = p₁ := Option.some.inj (hp.router.symm.trans hp₁)
      have hmem : prefixPath ∈ R.routes ↔ prefixPath ∈ p.mapping := by
        rw [← hroutes, HashPrefixer.mem_routes]
      rw [RoutingCall.route]
      rcases hcases with ⟨hold, rfl⟩ | ⟨hnew, b, hbuild, rfl⟩
      · rw [if_pos (hmem.mpr hold)]
        exact ⟨htype, ⟨p, hp, hroutes⟩, hstatic⟩
      · rw [if_neg (mt hmem.mp hnew)]
        refine ⟨htype, ⟨_, hp.withPrefix hbuild, ?_⟩, ?_⟩
        · rw [HashPrefixer.routes_insert, (build_ok hbuild).1, hroutes]
        · rw [← hstatic]
          rfl
  | removePrefix prefixPath =>
      obtain ⟨-, p₁, hp₁, rfl⟩ := run_removePrefix_ok hrun
      obtain rfl : p = p₁ := Option.some.inj (hp.router.symm.trans hp₁)
      refine ⟨htype, ⟨_, hp.withoutPrefix, ?_⟩, hstatic⟩
      rw [HashPrefixer.routes_remove, hroutes]
      rfl
  | addHost prefixPath host =>
      exact Represents.updateHosts ⟨htype, ⟨p, hp, hroutes⟩, hstatic⟩
        (fun _ _ hbody => ⟨Balancer.run_add_mode hbody, Balancer.run_add_view hbody⟩) hrun
  | removeHost prefixPath host =>
      exact Represents.updateHosts ⟨htype, ⟨p, hp, hroutes⟩, hstatic⟩
        (fun _ _ hbody => ⟨Balancer.run_remove_mode hbody, Balancer.run_remove_view hbody⟩) hrun
  | changeStatic prefixPath =>
      obtain ⟨hfree, -⟩ := run_withLock_ok hrun
      rw [RoutingCall.run, run_changeStatic hfree] at hrun
      cases hrun
      refine ⟨htype, ⟨p, hp.setStatic _, hroutes⟩, ?_⟩
      rw [RoutingCall.route, ← hstatic]
  | changeLb prefixPath lb =>
      obtain ⟨-, p₁, b, b', hp₁, hb, hbuild, rfl⟩ := run_changeLb_ok hrun
      obtain rfl : p = p₁ := Option.some.inj (hp.router.symm.trans hp₁)
      have hlookup := lookup_routes_of_balancer hb
      rw [hroutes] at hlookup
      rw [RoutingCall.route, Routing.onRoute_of_lookup hlookup]
      refine ⟨htype, ⟨_, hp.withoutPrefix.withPrefix hbuild, ?_⟩, ?_⟩
      · rw [HashPrefixer.routes_insert, HashPrefixer.routes_remove, (build_ok hbuild).1, hroutes]
        exact Finmap.ext_lookup fun q => by
          rw [GoMap.lookup_insert_eq, GoMap.lookup_insert_eq, GoMap.lookup_erase_eq]
          split <;> rfl
      · rw [← hstatic]
        rfl

/-- Only the routing calls touch the routing. -/
theorem ProxyCall.run_represents (call : ProxyCall) (h : Represents proxy R)
    (hrun : EStateM.run call.run proxy = .ok () proxy') : Represents proxy' (call.route R) := by
  cases call with
  | routing call => exact call.run_represents h hrun
  | addBlackList ips =>
      obtain ⟨-, tree, -, rfl⟩ := run_aclLoop_ok hrun
      exact h.of_sameRouting ⟨rfl, rfl, rfl, rfl⟩ h.type
  | removeBlackList ips =>
      obtain ⟨-, tree, -, rfl⟩ := run_aclLoop_ok hrun
      exact h.of_sameRouting ⟨rfl, rfl, rfl, rfl⟩ h.type
  | setRateLimit prefixPath apiPath limiterType init speed =>
      obtain ⟨-, -, limiters, limiter, -, -, rfl⟩ := run_setRateLimit_ok hrun
      exact h.of_sameRouting ⟨rfl, rfl, rfl, rfl⟩ h.type
  | start =>
      obtain ⟨hfree, -⟩ := run_withLock_ok hrun
      rw [ProxyCall.run, run_start hfree] at hrun
      cases hrun
      exact h.of_sameRouting ⟨rfl, rfl, rfl, rfl⟩ h.type
  | stop =>
      obtain ⟨hfree, -⟩ := run_withLock_ok hrun
      rw [ProxyCall.run, run_stop hfree] at hrun
      cases hrun
      exact h.of_sameRouting ⟨rfl, rfl, rfl, rfl⟩ h.type

end Calls

/-! ## Requests -/

section Requests

variable {proxy proxy' : HttpReverseProxy} {R : Routing}

theorem sameRouting_createRateLimiter (proxy : HttpReverseProxy) (prefixPath apiPath : String) :
    SameRouting proxy
        (memory (EStateM.run (createRateLimiter prefixPath apiPath "qps" inf inf) proxy)) ∧
      (memory (EStateM.run (createRateLimiter prefixPath apiPath "qps" inf inf)
        proxy)).prefixerType = proxy.prefixerType := by
  by_cases hfree : proxy.mu = .free
  · cases hl : proxy.rateLimiters with
    | some limiters =>
        rw [run_createRateLimiter hfree hl (by decide)]
        exact ⟨⟨rfl, rfl, rfl, rfl⟩, rfl⟩
    | none =>
        obtain ⟨mu⟩ := proxy
        obtain rfl : mu = .free := hfree
        obtain rfl : _ = none := hl
        exact ⟨⟨rfl, rfl, rfl, rfl⟩, rfl⟩
  · rw [createRateLimiter, run_withLock_held hfree]
    exact ⟨⟨rfl, rfl, rfl, rfl⟩, rfl⟩

/-- A request, however it ends, leaves the routing alone. -/
theorem represents_serveHTTP (h : Represents proxy R) (peerAvailable : Bool)
    (allow : QpsRateLimiter → Bool) (r : Utils.Request) :
    Represents (memory (EStateM.run (serveHTTP peerAvailable allow r) proxy)) R := by
  obtain ⟨proxy₁, hsame, hmem | ⟨prefixPath, apiPath, -, hmem⟩⟩ :=
    memory_serveHTTP peerAvailable allow r proxy
  · rw [hmem]
    exact h.of_sameRoutes hsame
  · have h₁ := h.of_sameRoutes hsame
    obtain ⟨hcreate, htype⟩ := sameRouting_createRateLimiter proxy₁ prefixPath apiPath
    rw [hmem]
    exact h₁.of_sameRouting hcreate (htype.trans h₁.type)

/-- A forwarded request was mapped by the router. -/
theorem run_serveHTTP_forwarded {peerAvailable : Bool} {allow : QpsRateLimiter → Bool}
    {r : Utils.Request} {host apiUrl : String} {port : Int}
    (hrun : EStateM.run (serveHTTP peerAvailable allow r) proxy =
      .ok (.forwarded host port apiUrl) proxy') :
    ∃ p p' prefixPath rest realPath, proxy.prefixMapping = some p ∧
      EStateM.run (HashPrefixer.mappingPath r.path r) p =
        .ok (.ok (prefixPath, rest, realPath)) p' ∧
      forwardToSpecficPath realPath = .forwarded host port apiUrl := by
  rw [serveHTTP] at hrun
  obtain ⟨proxy₁, proxy₂, hget, hrun⟩ := run_bind_ok hrun
  cases hget
  rw [run_ite] at hrun
  split at hrun
  · cases hrun
  obtain ⟨isForbidden, proxy₁, hacl, hrun⟩ := run_bind_ok hrun
  have hsame : proxy₁ = proxy := by
    cases h : proxy.acl.accessControl (Utils.remoteIp r) with
    | error e =>
        rw [h] at hacl
        cases hacl
    | ok b =>
        rw [h] at hacl
        cases hacl
        rfl
  subst hsame
  rw [run_ite] at hrun
  split at hrun
  · cases hrun
  obtain ⟨answer, proxy₂, hmap, hrun⟩ := run_bind_ok hrun
  obtain ⟨p, p', hp, hmapping, rfl⟩ := run_focus_ok hmap
  cases answer with
  | error e => cases hrun
  | ok mapped =>
      obtain ⟨prefixPath, rest, realPath⟩ := mapped
      refine ⟨p, p', prefixPath, rest, realPath, hp, hmapping, ?_⟩
      dsimp only at hrun
      rw [run_ite] at hrun
      split at hrun
      · rw [EStateM.run_pure] at hrun
        exact (EStateM.Result.ok.inj hrun).1
      · obtain ⟨taken, proxy₃, -, hrun⟩ := run_bind_ok hrun
        cases taken with
        | error e => cases hrun
        | ok u =>
            rw [EStateM.run_pure] at hrun
            exact (EStateM.Result.ok.inj hrun).1

/-- The candidates of the router are those of the routing. -/
theorem Routing.candidate_iff {p : HashPrefixer} (hroutes : p.routes = R.routes)
    (path q : String) : R.Candidate path q ↔ HashPrefixer.Candidate p path q := by
  have hmem : q ∈ R.routes ↔ q ∈ p.mapping := by
    rw [← hroutes, HashPrefixer.mem_routes]
  exact ⟨fun h => ⟨hmem.mp h.registered, h.nonempty, h.leads⟩,
    fun h => ⟨hmem.mpr h.registered, h.nonempty, h.leads⟩⟩

/-- Where a request to a path is forwarded: to an address followed by the rest
of the path behind the prefix it belongs to, and under round robin the address
is one of the hosts of the prefix. -/
def Routing.Forwards (R : Routing) (path host : String) (port : Int) (apiUrl : String) : Prop :=
  ∃ q v addr rest, R.RoutesTo path q ∧ R.routes.lookup q = some v ∧
    forwardToSpecficPath (addr ++ rest) = .forwarded host port apiUrl ∧
    (q ++ rest = path ∨ q = "/" ∧ rest = path) ∧
    (v.mode = typeRoundRobin → addr ∈ v.hosts)

/-- Where a request goes depends on the prefixes, their algorithms and which
hosts they have. -/
theorem Routing.Forwards.of_alike {R' : Routing} {path host apiUrl : String} {port : Int}
    (h : R.Forwards path host port apiUrl)
    (hmodes : ∀ q, (R.routes.lookup q).map View.mode = (R'.routes.lookup q).map View.mode)
    (hhosts : ∀ q v v', R.routes.lookup q = some v → R'.routes.lookup q = some v' →
      ∀ addr ∈ v.hosts, addr ∈ v'.hosts) : R'.Forwards path host port apiUrl := by
  have hmem : ∀ q, q ∈ R.routes ↔ q ∈ R'.routes := by
    intro q
    have hsome := congrArg Option.isSome (hmodes q)
    rw [Option.isSome_map, Option.isSome_map] at hsome
    rw [← Finmap.lookup_isSome, ← Finmap.lookup_isSome, hsome]
  have hcandidate : ∀ q, R.Candidate path q ↔ R'.Candidate path q := fun q =>
    ⟨fun hq => ⟨(hmem q).mp hq.registered, hq.nonempty, hq.leads⟩,
      fun hq => ⟨(hmem q).mpr hq.registered, hq.nonempty, hq.leads⟩⟩
  obtain ⟨q, v, addr, rest, hroutes, hv, hforward, hrest, haddr⟩ := h
  obtain ⟨v', hv', hmode⟩ : ∃ v', R'.routes.lookup q = some v' ∧ v'.mode = v.mode := by
    have hq := hmodes q
    rw [hv, Option.map_some] at hq
    exact Option.map_eq_some_iff.mp hq.symm
  refine ⟨q, v', addr, rest, ?_, hv', hforward, hrest, fun hrobin => ?_⟩
  · rcases hroutes with ⟨hq, hlongest⟩ | ⟨hroot, hnone⟩
    · exact Or.inl ⟨(hcandidate q).mp hq, fun q' hq' => hlongest q' ((hcandidate q').mpr hq')⟩
    · exact Or.inr ⟨hroot, fun q' hq' => hnone q' ((hcandidate q').mpr hq')⟩
  · exact hhosts q v v' hv hv' addr (haddr (hmode.symm.trans hrobin))

/-- A forwarded request is forwarded as the routing says. -/
theorem forwarded_by_routing (h : Represents proxy R) {peerAvailable : Bool}
    {allow : QpsRateLimiter → Bool} {r : Utils.Request} (hslash : ∃ rest, r.path = "/" ++ rest)
    {host apiUrl : String} {port : Int}
    (hrun : EStateM.run (serveHTTP peerAvailable allow r) proxy =
      .ok (.forwarded host port apiUrl) proxy') : R.Forwards r.path host port apiUrl := by
  obtain ⟨p, p', prefixPath, rest, realPath, hp, hmapping, hforward⟩ :=
    run_serveHTTP_forwarded hrun
  obtain ⟨p₁, hmirrors, hroutes⟩ := h.mirrors
  obtain rfl : p = p₁ := Option.some.inj (hp.symm.trans hmirrors.router)
  obtain ⟨hmatched, b, b', addr, hb, hbalance, rfl, -⟩ := HashPrefixer.run_mappingPath_ok hmapping
  have hlookup := lookup_routes_of_balancer hb
  rw [hroutes] at hlookup
  obtain ⟨more, hpath⟩ := HashPrefixer.exists_toList hslash
  refine ⟨prefixPath, b.view, addr, rest, ?_, hlookup, hforward, ?_, ?_⟩
  · rcases p.matched_cases hpath with ⟨hlongest, -⟩ | ⟨hroot, hall⟩
    · rw [hmatched] at hlongest
      exact Or.inl ⟨(Routing.candidate_iff hroutes _ _).mpr hlongest.toCandidate, fun q' hq' =>
        hlongest.longest q' ((Routing.candidate_iff hroutes _ _).mp hq')⟩
    · rw [hmatched] at hroot
      exact Or.inr ⟨congrArg Prod.fst hroot, fun q' hq' =>
        hall q' ((Routing.candidate_iff hroutes _ _).mp hq')⟩
  · rcases p.matched_cases hpath with ⟨-, happend⟩ | ⟨hroot, -⟩
    · rw [hmatched] at happend
      exact Or.inl happend
    · rw [hmatched] at hroot
      exact Or.inr ⟨congrArg Prod.fst hroot, congrArg Prod.snd hroot⟩
  · intro hmode
    have htarget := Balancer.mem_targets_of_run_balance hbalance
    cases b with
    | roundRobin rr => exact htarget
    | consistenceHash c =>
        exact absurd (show typeConsistenceHash = typeRoundRobin from hmode) (by decide)

end Requests

end Proxy
end VermouthGateway
