import VermouthGateway.Foundation.Runs
import VermouthGateway.Proxy.Returns

/-!
# The tables of a proxy describe its router

`Paths`, `BalancerType` and `StaticMapping` repeat what the router holds, prefix
by prefix.  `Describes` says that they have its keys and the hosts and modes of
its balancers.

* `Building`: what the loop over a configuration has written so far.
* `RoutingCall.KeepsTables`: a removal leaves the static flag behind, and
  changing the flag makes one, so neither may meet the other kind of prefix.
* `tables_describe`: from a configuration through any calls that keep the
  tables.
* `static_left_behind`: a prefix added and removed.
-/

namespace VermouthGateway
namespace Proxy

open Go Balancing Runs
open HttpReverseProxy

/-- The tables have the keys of the router, and its hosts and modes. -/
structure Describes (proxy : HttpReverseProxy) (p : HashPrefixer) : Prop where
  router : proxy.prefixMapping = some p
  paths : proxy.paths.keys = p.mapping.keys
  balancerType : proxy.balancerType.keys = p.mapping.keys
  staticMapping : proxy.staticMapping.keys = p.mapping.keys
  hosts : ∀ q b, p.getBalancer q = some b → proxy.paths.lookup q = some b.hosts
  modes : ∀ q b, p.getBalancer q = some b → proxy.balancerType.lookup q = some b.mode

/-- The tables mirror the router, and a static flag belongs to a routed prefix. -/
structure Matches (proxy : HttpReverseProxy) (p : HashPrefixer) : Prop
    extends Mirrors proxy p where
  statics : ∀ q ∈ proxy.staticMapping, q ∈ p.routes

theorem Matches.describes {proxy : HttpReverseProxy} {p : HashPrefixer} (h : Matches proxy p) :
    Describes proxy p where
  router := h.router
  paths := by
    ext q
    rw [Finmap.mem_keys, Finmap.mem_keys, ← p.mem_routes, ← Finmap.lookup_isSome, h.paths,
      Option.isSome_map, Finmap.lookup_isSome]
  balancerType := by
    ext q
    rw [Finmap.mem_keys, Finmap.mem_keys, ← p.mem_routes, ← Finmap.lookup_isSome, h.modes,
      Option.isSome_map, Finmap.lookup_isSome]
  staticMapping := by
    ext q
    rw [Finmap.mem_keys, Finmap.mem_keys, ← p.mem_routes]
    exact ⟨h.statics q, h.static q⟩
  hosts q b hb := by
    rw [h.paths, lookup_routes_of_balancer hb]
    rfl
  modes q b hb := by
    rw [h.modes, lookup_routes_of_balancer hb]
    rfl

/-- A removal meets no routed prefix, and a change of the static flag a routed
one. -/
def RoutingCall.KeepsTables (proxy : HttpReverseProxy) : RoutingCall → Prop
  | .removePrefix prefixPath => proxy.balancerOf prefixPath = none
  | .changeStatic prefixPath => (proxy.balancerOf prefixPath).isSome
  | _ => True

/-! ## The steps -/

namespace Matches

variable {proxy proxy' : HttpReverseProxy} {p : HashPrefixer} {prefixPath : String}

theorem balancerOf_eq (h : Matches proxy p) (q : String) :
    proxy.balancerOf q = p.getBalancer q := HttpReverseProxy.balancerOf_eq h.router q

/-- A new prefix, on a router that may have just lost it. -/
theorem withPrefix (h : Mirrors proxy p)
    (hstatics : ∀ q ∈ proxy.staticMapping, q = prefixPath ∨ q ∈ p.routes) {algo : String}
    {hosts : List String} {isStatic : Bool} {b : Balancer} (hbuild : build algo hosts = .ok b) :
    Matches (proxy.withPrefix p prefixPath algo isStatic b) ⟨p.mapping.insert prefixPath b⟩ := by
  refine ⟨h.withPrefix hbuild, fun q hq => ?_⟩
  rw [HashPrefixer.routes_insert, Finmap.mem_insert]
  rcases Finmap.mem_insert.mp hq with rfl | hq
  · exact Or.inl rfl
  · exact hstatics q hq

theorem withBalancer (h : Matches proxy p) {b b' : Balancer}
    (hb : p.getBalancer prefixPath = some b) (hmode : b'.mode = b.mode) :
    Matches (proxy.withBalancer p prefixPath b') ⟨p.mapping.insert prefixPath b'⟩ := by
  refine ⟨h.toMirrors.withBalancer hb hmode, fun q hq => ?_⟩
  rw [HashPrefixer.routes_insert, Finmap.mem_insert]
  exact Or.inr (h.statics q hq)

/-- Removing a prefix that is not routed changes no key. -/
theorem withoutPrefix (h : Matches proxy p) (hnone : p.getBalancer prefixPath = none) :
    Matches (proxy.withoutPrefix p prefixPath) (p.remove prefixPath) := by
  refine ⟨h.toMirrors.withoutPrefix, fun q hq => ?_⟩
  have hrouted := h.statics q hq
  rw [HashPrefixer.routes_remove, Finmap.mem_erase]
  refine ⟨?_, hrouted⟩
  rintro rfl
  rw [p.mem_routes] at hrouted
  exact Finmap.lookup_eq_none.mp hnone hrouted

theorem setStatic (h : Matches proxy p) (isStatic : Bool)
    (hsome : (p.getBalancer prefixPath).isSome) :
    Matches { proxy with staticMapping := proxy.staticMapping.insert prefixPath isStatic } p := by
  refine ⟨h.toMirrors.setStatic isStatic, fun q hq => ?_⟩
  rcases Finmap.mem_insert.mp hq with rfl | hq
  · exact (p.mem_routes q).mpr (Finmap.lookup_isSome.mp hsome)
  · exact h.statics q hq

/-- Changing the balancer puts the removed prefix back. -/
theorem changeLb (h : Matches proxy p) {lb : String} {hosts : List String} {isStatic : Bool}
    {b : Balancer} (hbuild : build lb hosts = .ok b) :
    Matches ((proxy.withoutPrefix p prefixPath).withPrefix (p.remove prefixPath) prefixPath lb
      isStatic b) ⟨(p.remove prefixPath).mapping.insert prefixPath b⟩ := by
  refine withPrefix h.toMirrors.withoutPrefix (fun q hq => ?_) hbuild
  by_cases heq : q = prefixPath
  · exact Or.inl heq
  · rw [HashPrefixer.routes_remove, Finmap.mem_erase]
    exact Or.inr ⟨heq, h.statics q hq⟩

end Matches

/-- A completed call that keeps the tables keeps them in step. -/
theorem RoutingCall.run_matches {proxy proxy' : HttpReverseProxy} {p : HashPrefixer}
    (call : RoutingCall) (h : Matches proxy p) (hkeeps : call.KeepsTables proxy)
    (hrun : EStateM.run call.run proxy = .ok () proxy') : ∃ p', Matches proxy' p' := by
  cases call with
  | addPrefix prefixPath algo hosts isStatic =>
      obtain ⟨-, p₁, hp₁, ⟨-, rfl⟩ | ⟨-, b, hbuild, rfl⟩⟩ := run_addPrefix_ok hrun
      · exact ⟨p, h⟩
      · obtain rfl : p = p₁ := Option.some.inj (h.router.symm.trans hp₁)
        exact ⟨_, .withPrefix h.toMirrors (fun q hq => Or.inr (h.statics q hq)) hbuild⟩
  | removePrefix prefixPath =>
      obtain ⟨-, p₁, hp₁, rfl⟩ := run_removePrefix_ok hrun
      obtain rfl : p = p₁ := Option.some.inj (h.router.symm.trans hp₁)
      -- the prefix was not routed, so there is no flag to leave behind
      exact ⟨_, h.withoutPrefix ((h.balancerOf_eq prefixPath).symm.trans hkeeps)⟩
  | addHost prefixPath host =>
      obtain ⟨-, p₁, b, b', hp₁, hb, hbody, rfl⟩ := run_updateHosts_ok hrun
      obtain rfl : p = p₁ := Option.some.inj (h.router.symm.trans hp₁)
      exact ⟨_, h.withBalancer hb (Balancer.run_add_mode hbody)⟩
  | removeHost prefixPath host =>
      obtain ⟨-, p₁, b, b', hp₁, hb, hbody, rfl⟩ := run_updateHosts_ok hrun
      obtain rfl : p = p₁ := Option.some.inj (h.router.symm.trans hp₁)
      exact ⟨_, h.withBalancer hb (Balancer.run_remove_mode hbody)⟩
  | changeStatic prefixPath =>
      have hfree := (run_withLock_ok hrun).1
      rw [RoutingCall.run, run_changeStatic hfree] at hrun
      cases hrun
      have hsome : (proxy.balancerOf prefixPath).isSome := hkeeps
      rw [h.balancerOf_eq] at hsome
      exact ⟨p, h.setStatic _ hsome⟩
  | changeLb prefixPath lb =>
      obtain ⟨-, p₁, b, b', hp₁, hb, hbuild, rfl⟩ := run_changeLb_ok hrun
      obtain rfl : p = p₁ := Option.some.inj (h.router.symm.trans hp₁)
      exact ⟨_, h.changeLb hbuild⟩

/-! ## The configuration -/

/-- The balance mode of the first path with a pattern. -/
def configuredMode (paths : List HttpProxyPathArgs) (q : String) : Option String :=
  (paths.find? fun path => path.pattern = q).map HttpProxyPathArgs.balanceMode

/-- The last path of a pattern has the balance mode of the first. -/
def ConfigAgrees (args : HttpProxyArgs) : Prop :=
  ∀ q, configuredMode args.paths.reverse q = configuredMode args.paths q

/-- One round of the loop over a configuration. -/
def addPath (path : HttpProxyPathArgs) : Eff HttpReverseProxy Unit := do
  HttpReverseProxy.addPrefix path.pattern path.balanceMode path.hosts path.static
  modify fun proxy =>
    { proxy with balancerType := proxy.balancerType.insert path.pattern path.balanceMode }

/-- After some paths: the router has the mode of the first path of a pattern,
`BalancerType` that of the last. -/
structure Building (done : List HttpProxyPathArgs) (proxy : HttpReverseProxy)
    (p : HashPrefixer) : Prop extends Copies proxy p where
  statics : ∀ q ∈ proxy.staticMapping, q ∈ p.routes
  supported : ∀ q v, p.routes.lookup q = some v → Supported v.mode
  first : ∀ q, (p.routes.lookup q).map View.mode = configuredMode done q
  last : ∀ q, proxy.balancerType.lookup q = configuredMode done.reverse q

theorem configuredMode_append (done : List HttpProxyPathArgs) (path : HttpProxyPathArgs)
    (q : String) : configuredMode (done ++ [path]) q =
      (configuredMode done q).or (if path.pattern = q then some path.balanceMode else none) := by
  rw [configuredMode, configuredMode, List.find?_append]
  cases done.find? fun path => path.pattern = q with
  | some found => rfl
  | none =>
      rw [Option.none_or, List.find?_singleton]
      by_cases hq : path.pattern = q <;> simp [hq]

theorem configuredMode_cons (done : List HttpProxyPathArgs) (path : HttpProxyPathArgs)
    (q : String) : configuredMode (path :: done) q =
      if path.pattern = q then some path.balanceMode else configuredMode done q := by
  rw [configuredMode, configuredMode]
  by_cases hq : path.pattern = q <;> simp [hq]

theorem building_newHttpReverseProxy {args : HttpProxyArgs} {shutdown : Nat}
    {proxy : HttpReverseProxy} (h : newHttpReverseProxy args shutdown = .ok proxy) :
    ∃ p, Building [] proxy p := by
  obtain ⟨p, hp⟩ := (mirrored_newHttpReverseProxy h).mirrors
  rw [newHttpReverseProxy] at h
  split at h
  · cases h
  · cases h
    have hnone : ∀ q, p.routes.lookup q = none := fun q =>
      Option.map_eq_none_iff.mp (hp.paths q).symm
    refine ⟨p, ⟨hp.toCopies, fun q hq => absurd hq Finmap.notMem_empty, ?_, ?_, fun q => rfl⟩⟩
    · intro q v hv
      rw [hnone] at hv
      cases hv
    · intro q
      rw [hnone]
      rfl

/-- One more path: a repeated pattern is not added again, but its mode is
recorded. -/
theorem Building.addPath {done : List HttpProxyPathArgs} {proxy proxy' : HttpReverseProxy}
    {p : HashPrefixer} (h : Building done proxy p) {path : HttpProxyPathArgs}
    (hrun : EStateM.run (addPath path) proxy = .ok () proxy') :
    ∃ p', Building (done ++ [path]) proxy' p' := by
  obtain ⟨u, proxy₁, hadd, hmode⟩ := run_bind_ok hrun
  cases hmode
  -- `BalancerType` is written in every round, so the last path of a pattern decides
  have hlast : ∀ q, (proxy.balancerType.insert path.pattern path.balanceMode).lookup q =
      configuredMode (done ++ [path]).reverse q := by
    intro q
    rw [List.reverse_append, List.reverse_singleton, List.singleton_append, configuredMode_cons,
      GoMap.lookup_insert_eq, h.last]
    by_cases hq : q = path.pattern
    · rw [if_pos hq, if_pos hq.symm]
    · rw [if_neg hq, if_neg fun heq => hq heq.symm]
  obtain ⟨-, p₁, hp₁, hcases⟩ := run_addPrefix_ok hadd
  obtain rfl : p = p₁ := Option.some.inj (h.router.symm.trans hp₁)
  rcases hcases with ⟨hold, rfl⟩ | ⟨hnew, b, hbuild, rfl⟩
  · -- the pattern was there: the router keeps the mode of its first path
    refine ⟨p, ⟨⟨h.router, h.paths, h.static⟩, h.statics, h.supported, fun q => ?_, hlast⟩⟩
    rw [configuredMode_append, ← h.first]
    by_cases hq : path.pattern = q
    · subst hq
      obtain ⟨v, hv⟩ := Finmap.mem_iff.mp ((p.mem_routes _).mpr hold)
      rw [hv]
      rfl
    · rw [if_neg hq, Option.or_none]
  · have hview := (build_ok hbuild).1
    have hcopies : Copies (proxy.withPrefix p path.pattern path.balanceMode path.static b)
        ⟨p.mapping.insert path.pattern b⟩ := h.toCopies.withPrefix _ _ b
    refine ⟨_, ⟨⟨hcopies.router, hcopies.paths, hcopies.static⟩, ?_, ?_, ?_, ?_⟩⟩
    · intro q hq
      rw [HashPrefixer.routes_insert, Finmap.mem_insert]
      exact (Finmap.mem_insert.mp hq).imp id (h.statics q)
    · intro q v hv
      rw [HashPrefixer.routes_insert, GoMap.lookup_insert_eq] at hv
      split at hv
      · cases hv
        rw [hview]
        exact supported_of_build hbuild
      · exact h.supported q v hv
    · intro q
      rw [HashPrefixer.routes_insert, GoMap.lookup_insert_eq, configuredMode_append, ← h.first,
        hview]
      by_cases hq : q = path.pattern
      · subst hq
        have hnone : p.routes.lookup path.pattern = none :=
          Finmap.lookup_eq_none.mpr fun hmem => hnew ((p.mem_routes _).mp hmem)
        rw [if_pos rfl, if_pos rfl, hnone]
        rfl
      · rw [if_neg hq, if_neg fun heq => hq heq.symm, Option.or_none]
    · intro q
      rw [← hlast]
      show ((proxy.balancerType.insert path.pattern path.balanceMode).insert path.pattern
        path.balanceMode).lookup q = _
      rw [Finmap.insert_insert]

theorem run_addPaths {paths done : List HttpProxyPathArgs} {proxy proxy' : HttpReverseProxy}
    {p : HashPrefixer} (h : Building done proxy p)
    (hrun : EStateM.run (forEach paths addPath) proxy = .ok () proxy') :
    ∃ p', Building (done ++ paths) proxy' p' := by
  induction paths generalizing done proxy p with
  | nil =>
      cases hrun
      exact ⟨p, by rwa [List.append_nil]⟩
  | cons path paths ih =>
      obtain ⟨u, proxy₁, hadd, hrest⟩ := run_forEach_cons_ok hrun
      obtain ⟨p₁, h₁⟩ := h.addPath hadd
      obtain ⟨p', h'⟩ := ih h₁ hrest
      exact ⟨p', by rwa [List.append_assoc] at h'⟩

/-- The tables of a configured proxy match its router when repeated patterns
agree. -/
theorem matches_buildHttpReverseProxy {args : HttpProxyArgs} {shutdown : Nat}
    {proxy : HttpReverseProxy} (hbuild : buildHttpReverseProxy args shutdown = .ok proxy)
    (hagrees : ConfigAgrees args) : ∃ p, Matches proxy p := by
  rw [buildHttpReverseProxy] at hbuild
  cases hnew : newHttpReverseProxy args shutdown with
  | error e =>
      rw [hnew] at hbuild
      cases hbuild
  | ok fresh =>
  rw [hnew] at hbuild
  dsimp only at hbuild
  split at hbuild
  · next hrun =>
      cases hbuild
      obtain ⟨p₀, hp₀⟩ := building_newHttpReverseProxy hnew
      obtain ⟨p, hp⟩ := run_addPaths hp₀ hrun
      rw [List.nil_append] at hp
      refine ⟨p, ⟨⟨hp.toCopies, fun q => ?_, hp.supported⟩, hp.statics⟩⟩
      rw [hp.last, hp.first]
      exact hagrees q
  · cases hbuild

/-! ## Runs -/

/-- A completed call that keeps the tables. -/
def KeepingCalled (proxy : HttpReverseProxy) (call : RoutingCall) (proxy' : HttpReverseProxy) :
    Prop :=
  call.KeepsTables proxy ∧ EStateM.run call.run proxy = .ok () proxy'

/-- In every run of calls that keep the tables, from a configuration whose
repeated patterns agree, the tables describe the router. -/
theorem tables_describe {args : HttpProxyArgs} {shutdown : Nat} {start proxy : HttpReverseProxy}
    {calls : List RoutingCall} (hbuild : buildHttpReverseProxy args shutdown = .ok start)
    (hagrees : ConfigAgrees args) (hrun : Run KeepingCalled start calls proxy) :
    ∃ p, Describes proxy p := by
  obtain ⟨p, hp⟩ : ∃ p, Matches proxy p := by
    refine Run.invariant (P := fun proxy => ∃ p, Matches proxy p) ?_ hrun
      (matches_buildHttpReverseProxy hbuild hagrees)
    rintro proxy₁ call proxy₂ ⟨p, hp⟩ ⟨hkeeps, hcall⟩
    exact call.run_matches hp hkeeps hcall
  exact ⟨p, hp.describes⟩

/-- A configured prefix becomes static and gets a host. -/
theorem tables_describe_configured : ∃ start proxy,
    buildHttpReverseProxy ⟨8080, typeHashPrefixer,
      [⟨"round-robin", "/api", false, ["10.0.0.1:80"]⟩]⟩ 0 = .ok start ∧
    Run KeepingCalled start [.changeStatic "/api", .addHost "/api" "10.0.0.2:80"] proxy ∧
    ∃ p, Describes proxy p := by
  obtain ⟨start, hbuild⟩ : ∃ start, buildHttpReverseProxy ⟨8080, typeHashPrefixer,
      [⟨"round-robin", "/api", false, ["10.0.0.1:80"]⟩]⟩ 0 = .ok start := ⟨_, rfl⟩
  obtain ⟨proxy, hrun⟩ : ∃ proxy,
      Run KeepingCalled start [.changeStatic "/api", .addHost "/api" "10.0.0.2:80"] proxy := by
    cases hbuild
    exact ⟨_, .cons ⟨rfl, rfl⟩ (.single ⟨trivial, rfl⟩)⟩
  refine ⟨start, proxy, hbuild, hrun, tables_describe hbuild (fun q => ?_) hrun⟩
  rfl

/-- A prefix that was removed is still in the table of static flags. -/
theorem static_left_behind : ¬ ∀ (args : HttpProxyArgs) (shutdown : Nat)
    (start proxy : HttpReverseProxy) (calls : List RoutingCall),
    buildHttpReverseProxy args shutdown = .ok start →
    EStateM.run (forEach calls RoutingCall.run) start = .ok () proxy →
    ∃ p, Describes proxy p := by
  intro hclaim
  obtain ⟨start, hbuild⟩ : ∃ start,
      buildHttpReverseProxy ⟨8080, typeHashPrefixer, []⟩ 0 = .ok start := ⟨_, rfl⟩
  obtain ⟨proxy, hrun⟩ : ∃ proxy, EStateM.run (forEach
      [.addPrefix "/api" "round-robin" ["10.0.0.1:80"] false, .removePrefix "/api"]
      RoutingCall.run) start = .ok () proxy := by
    cases hbuild
    exact ⟨_, rfl⟩
  obtain ⟨p, hp⟩ := hclaim _ 0 start proxy _ hbuild hrun
  cases hbuild
  cases hrun
  have hstatic : "/api" ∈ p.mapping.keys := by
    rw [← hp.staticMapping]
    exact Finmap.mem_keys.mpr (Finmap.mem_insert.mpr (Or.inl rfl))
  cases hp.router
  exact Finmap.notMem_erase_self (Finmap.mem_keys.mp hstatic)

end Proxy
end VermouthGateway
