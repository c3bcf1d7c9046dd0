import VermouthGateway.Proxy.Returns

/-!
# One prefix across the tables

A prefix is spread over five tables, the router among them.  `Row` is what they
hold of one prefix; the limiters are a sixth table, by complete paths.

* `row_withPrefix`, `row_withoutPrefix`: adding and removing a prefix rewrites its
  own row.
* `Sound.addsWhole_iff`: when `AddPrefix` is all or nothing.
* `Sound.changesLbOnly_iff`: when `changeLb` changes the balancer and nothing else.
-/

namespace VermouthGateway
namespace Proxy

open Go Balancing
open HttpReverseProxy

/-- What the tables hold of one prefix. -/
structure Row where
  prefixMapping : Option Balancer
  paths : Option (List String)
  balancerType : Option String
  staticMapping : Option Bool
  rateLimiterType : Option (List LimiterInfo)

namespace HttpReverseProxy

def row (proxy : HttpReverseProxy) (q : String) : Row where
  prefixMapping := proxy.balancerOf q
  paths := proxy.paths.lookup q
  balancerType := proxy.balancerType.lookup q
  staticMapping := proxy.staticMapping.lookup q
  rateLimiterType := proxy.rateLimiterType.lookup q

/-- Only the row of one prefix may have changed, and no limiter. -/
structure SameOff (prefixPath : String) (proxy proxy' : HttpReverseProxy) : Prop where
  rows : ∀ q, q ≠ prefixPath → proxy'.row q = proxy.row q
  limiters : proxy'.rateLimiters = proxy.rateLimiters

/-- Every table is as before. -/
structure SameTables (proxy proxy' : HttpReverseProxy) : Prop where
  rows : ∀ q, proxy'.row q = proxy.row q
  limiters : proxy'.rateLimiters = proxy.rateLimiters

/-- What is no table of prefixes is as before. -/
structure SameRest (proxy proxy' : HttpReverseProxy) : Prop where
  mu : proxy'.mu = proxy.mu
  port : proxy'.port = proxy.port
  prefixerType : proxy'.prefixerType = proxy.prefixerType
  acl : proxy'.acl = proxy.acl
  available : proxy'.available = proxy.available
  shutdown : proxy'.shutdown = proxy.shutdown

variable {proxy proxy' : HttpReverseProxy} {p : HashPrefixer} {prefixPath : String} {b : Balancer}

theorem balancerOf_insert (hp : proxy.prefixMapping = some ⟨p.mapping.insert prefixPath b⟩)
    (q : String) :
    proxy.balancerOf q = if q = prefixPath then some b else p.getBalancer q := by
  rw [balancerOf_eq hp, HashPrefixer.getBalancer, GoMap.lookup_insert_eq]
  rfl

/-- Adding a prefix writes its row and keeps its recorded limiters. -/
theorem row_withPrefix (hp : proxy.prefixMapping = some p) (algo : String) (isStatic : Bool)
    (b : Balancer) (q : String) :
    (proxy.withPrefix p prefixPath algo isStatic b).row q =
      if q = prefixPath then
        ⟨some b, some b.hosts, some algo, some isStatic, proxy.rateLimiterType.lookup q⟩
      else proxy.row q := by
  have hbalancer : (proxy.withPrefix p prefixPath algo isStatic b).balancerOf q =
      if q = prefixPath then some b else proxy.balancerOf q := by
    rw [balancerOf_eq hp]
    exact balancerOf_insert rfl q
  rw [row, hbalancer, withPrefix]
  dsimp only
  rw [GoMap.lookup_insert_eq, GoMap.lookup_insert_eq, GoMap.lookup_insert_eq]
  split
  · rfl
  · rfl

/-- Removing a prefix leaves its static flag only. -/
theorem row_withoutPrefix (hp : proxy.prefixMapping = some p) (q : String) :
    (proxy.withoutPrefix p prefixPath).row q =
      if q = prefixPath then ⟨none, none, none, proxy.staticMapping.lookup q, none⟩
      else proxy.row q := by
  have hbalancer : (proxy.withoutPrefix p prefixPath).balancerOf q =
      if q = prefixPath then none else proxy.balancerOf q := by
    rw [balancerOf_eq hp, balancerOf_eq (p := p.remove prefixPath) rfl, HashPrefixer.getBalancer,
      HashPrefixer.remove, GoMap.lookup_erase_eq]
    rfl
  rw [row, hbalancer, withoutPrefix]
  dsimp only
  rw [GoMap.lookup_erase_eq, GoMap.lookup_erase_eq, GoMap.lookup_erase_eq]
  split
  · rfl
  · rfl

/-! ## Adding -/

/-- The prefix is there, alike in all the tables, and nothing else has changed. -/
def PrefixAdded (proxy proxy' : HttpReverseProxy) (prefixPath algo : String)
    (hosts : List String) (isStatic : Bool) : Prop :=
  SameOff prefixPath proxy proxy' ∧ ∃ b : Balancer, b.view = ⟨algo, hosts⟩ ∧
    proxy'.row prefixPath =
      ⟨some b, some hosts, some algo, some isStatic, proxy.rateLimiterType.lookup prefixPath⟩

/-- What is asked of `AddPrefix`: it returns, and it adds the prefix or does nothing;
the latter when the prefix is routed or the algorithm is unknown. -/
def AddsWhole (proxy : HttpReverseProxy) (prefixPath algo : String) (hosts : List String)
    (isStatic : Bool) : Prop :=
  ∃ proxy', EStateM.run (addPrefix prefixPath algo hosts isStatic) proxy = .ok () proxy' ∧
    SameRest proxy proxy' ∧
    (PrefixAdded proxy proxy' prefixPath algo hosts isStatic ∨
      ((proxy.balancerOf prefixPath).isSome ∨ ¬ Supported algo) ∧ SameTables proxy proxy')

theorem prefixAdded_withPrefix (hp : proxy.prefixMapping = some p) {algo : String}
    {hosts : List String} {b : Balancer} (hbuild : build algo hosts = .ok b) (isStatic : Bool) :
    PrefixAdded proxy (proxy.withPrefix p prefixPath algo isStatic b) prefixPath algo hosts
      isStatic := by
  obtain ⟨hview, -⟩ := build_ok hbuild
  have hhosts : b.hosts = hosts := congrArg View.hosts hview
  refine ⟨⟨fun q hq => ?_, rfl⟩, b, hview, ?_⟩
  · rw [row_withPrefix hp, if_neg hq]
  · rw [row_withPrefix hp, if_pos rfl, hhosts]

/-! ## Changing the balancer -/

/-- The prefix is balanced by another algorithm over the same hosts, and nothing else
has changed. -/
def LbChanged (proxy proxy' : HttpReverseProxy) (prefixPath lb : String) : Prop :=
  SameOff prefixPath proxy proxy' ∧ ∃ b b' : Balancer,
    proxy.balancerOf prefixPath = some b ∧ b'.view = ⟨lb, b.hosts⟩ ∧
    proxy'.row prefixPath =
      { proxy.row prefixPath with prefixMapping := some b', balancerType := some lb }

/-- What is asked of `changeLb`: it changes the balancer and nothing else, or it fails
on an unknown algorithm, in whatever way, and leaves the tables alone. -/
def ChangesLbOnly (proxy : HttpReverseProxy) (prefixPath lb : String) : Prop :=
  (∃ proxy', EStateM.run (changeLb prefixPath lb) proxy = .ok () proxy' ∧
      SameRest proxy proxy' ∧ LbChanged proxy proxy' prefixPath lb) ∨
    ¬ Supported lb ∧ SameTables proxy (memory (EStateM.run (changeLb prefixPath lb) proxy))

/-- No limiter is recorded for the prefix, and none is stored under the prefix itself. -/
structure Unlimited (proxy : HttpReverseProxy) (prefixPath : String) : Prop where
  recorded : prefixPath ∉ proxy.rateLimiterType
  stored : ∀ limiters ∈ proxy.rateLimiters, prefixPath ∉ limiters

theorem map_erase_eq_iff {limiters : Option (GoMap String QpsRateLimiter)} :
    (limiters.map fun m => m.erase prefixPath) = limiters ↔
      ∀ m ∈ limiters, prefixPath ∉ m := by
  cases limiters with
  | none => simp
  | some m =>
      rw [Option.map_some, Option.some_inj]
      constructor
      · rintro herase m' ⟨⟩ hmem
        rw [← herase] at hmem
        exact Finmap.notMem_erase_self hmem
      · intro hnot
        apply Finmap.ext_lookup
        intro q
        rw [GoMap.lookup_erase_eq]
        split
        · next hq =>
            rw [hq, Finmap.lookup_eq_none.mpr (hnot m rfl)]
        · rfl

end HttpReverseProxy

namespace Sound

variable {proxy : HttpReverseProxy} {prefixPath : String}

/-- On a sound proxy `AddPrefix` is all or nothing when it finds the prefix routed or
the algorithm supported. -/
theorem addsWhole_iff (h : Sound proxy) (algo : String) (hosts : List String) (isStatic : Bool) :
    AddsWhole proxy prefixPath algo hosts isStatic ↔
      (proxy.balancerOf prefixPath).isSome ∨ Supported algo := by
  have hcompletes := RoutingCall.completes_iff h (.addPrefix prefixPath algo hosts isStatic)
  rw [RoutingCall.run, RoutingCall.Ready, completes_iff] at hcompletes
  rw [← hcompletes]
  constructor
  · rintro ⟨proxy', hrun, -⟩
    exact ⟨(), proxy', hrun⟩
  · rintro ⟨u, proxy', hrun⟩
    refine ⟨proxy', hrun, ?_⟩
    obtain ⟨-, p, hp, ⟨hrouted, rfl⟩ | ⟨-, b, hbuild, rfl⟩⟩ := run_addPrefix_ok hrun
    · have hsome : (proxy'.balancerOf prefixPath).isSome := by
        rw [balancerOf_eq hp, HashPrefixer.getBalancer, Finmap.lookup_isSome]
        exact hrouted
      exact ⟨⟨rfl, rfl, rfl, rfl, rfl, rfl⟩, Or.inr ⟨Or.inl hsome, fun q => rfl, rfl⟩⟩
    · exact ⟨⟨rfl, rfl, rfl, rfl, rfl, rfl⟩, Or.inl (prefixAdded_withPrefix hp hbuild isStatic)⟩

/-- A failed change leaves the prefix without its hosts. -/
theorem not_sameTables_changeLb (h : Sound proxy) (hrouted : (proxy.balancerOf prefixPath).isSome)
    {lb : String} (hlb : ¬ Supported lb) :
    ¬ SameTables proxy (memory (EStateM.run (changeLb prefixPath lb) proxy)) := by
  obtain ⟨p, hcopies⟩ := h.copies
  have hp := hcopies.router
  obtain ⟨b, hb⟩ := Option.isSome_iff_exists.mp hrouted
  rw [balancerOf_eq hp] at hb
  obtain ⟨e, hbuild⟩ := (build_error_iff lb b.hosts).mpr hlb
  have hfree : (proxy.withoutPrefix p prefixPath).mu = .free := h.free
  have hrun := run_addPrefix hfree rfl lb b.hosts (proxy.staticMapping.get prefixPath false)
    (notMem_remove p prefixPath)
  rw [hbuild] at hrun
  rw [run_changeLb h.free hp hb, hrun]
  intro hsame
  have hpaths := congrArg Row.paths (hsame.rows prefixPath)
  have herased : (proxy.paths.erase prefixPath).lookup prefixPath =
      proxy.paths.lookup prefixPath := hpaths
  rw [Finmap.lookup_erase, hcopies.paths, lookup_routes_of_balancer hb] at herased
  cases herased

/-- A change that returns rewrites the row of the prefix and forgets its limiters. -/
theorem run_changeLb_row (h : Sound proxy) {proxy' : HttpReverseProxy} {lb : String}
    (hrun : EStateM.run (changeLb prefixPath lb) proxy = .ok () proxy') :
    SameRest proxy proxy' ∧ (∀ q, q ≠ prefixPath → proxy'.row q = proxy.row q) ∧
      (proxy'.rateLimiters = proxy.rateLimiters.map fun m => m.erase prefixPath) ∧
      ∃ b b' : Balancer, proxy.balancerOf prefixPath = some b ∧ b'.view = ⟨lb, b.hosts⟩ ∧
        proxy'.row prefixPath =
          { proxy.row prefixPath with
            prefixMapping := some b', balancerType := some lb, rateLimiterType := none } := by
  obtain ⟨-, p, b, b', hp, hb, hbuild, rfl⟩ := run_changeLb_ok hrun
  obtain ⟨p', hcopies⟩ := h.copies
  obtain rfl : p' = p := Option.some.inj (hcopies.router.symm.trans hp)
  obtain ⟨hview, -⟩ := build_ok hbuild
  have hroute := lookup_routes_of_balancer hb
  -- the hosts and the flag that are written are those the tables had
  have hhosts : proxy.paths.lookup prefixPath = some b'.hosts := by
    rw [hcopies.paths, hroute]
    exact congrArg some (congrArg View.hosts hview).symm
  have hstatic : proxy.staticMapping.lookup prefixPath =
      some (proxy.staticMapping.get prefixPath false) := by
    obtain ⟨flag, hflag⟩ := Finmap.mem_iff.mp
      (hcopies.static prefixPath (Finmap.mem_iff.mpr ⟨_, hroute⟩))
    rw [GoMap.get_of_lookup hflag, hflag]
  refine ⟨⟨rfl, rfl, rfl, rfl, rfl, rfl⟩, fun q hq => ?_, rfl, b, b', ?_, hview, ?_⟩
  · rw [row_withPrefix rfl, if_neg hq, row_withoutPrefix hp, if_neg hq]
  · rw [balancerOf_eq hp, hb]
  · have hinfos : (proxy.withoutPrefix p' prefixPath).rateLimiterType.lookup prefixPath = none :=
      Finmap.lookup_erase prefixPath proxy.rateLimiterType
    rw [row_withPrefix rfl, if_pos rfl, hinfos, ← hhosts, ← hstatic]
    rfl

/-- On a sound proxy `changeLb` changes the balancer of a routed prefix and nothing else
when the algorithm is supported and the prefix has no limiter to lose. -/
theorem changesLbOnly_iff (h : Sound proxy) (hrouted : (proxy.balancerOf prefixPath).isSome)
    (lb : String) :
    ChangesLbOnly proxy prefixPath lb ↔ Supported lb ∧ Unlimited proxy prefixPath := by
  constructor
  · rintro (⟨proxy', hrun, -, ⟨-, hlimiters⟩, b₁, b₁', -, -, hsame⟩ | ⟨hlb, hsame⟩)
    · have hready : Completes (EStateM.run (changeLb prefixPath lb) proxy) := by
        rw [hrun]
        trivial
      obtain ⟨-, hlb, -⟩ := (completes_changeLb_iff lb).mp hready
      obtain ⟨-, -, herased, b, b', -, -, hrow⟩ := h.run_changeLb_row hrun
      refine ⟨hlb, ⟨?_, map_erase_eq_iff.mp (herased.symm.trans hlimiters)⟩⟩
      have hnone := congrArg Row.rateLimiterType (hsame.symm.trans hrow)
      exact Finmap.lookup_eq_none.mp hnone
    · exact absurd hsame (h.not_sameTables_changeLb hrouted hlb)
  · rintro ⟨hlb, hunlimited⟩
    have hready : Completes (EStateM.run (changeLb prefixPath lb) proxy) :=
      (RoutingCall.completes_iff h (.changeLb prefixPath lb)).mpr ⟨hrouted, hlb⟩
    rw [completes_iff] at hready
    obtain ⟨u, proxy', hrun⟩ := hready
    obtain ⟨hrest, hoff, herased, b, b', hb, hview, hrow⟩ := h.run_changeLb_row hrun
    have hnone : proxy.rateLimiterType.lookup prefixPath = none :=
      Finmap.lookup_eq_none.mpr hunlimited.recorded
    refine Or.inl ⟨proxy', hrun, hrest, ⟨hoff, ?_⟩, b, b', hb, hview, ?_⟩
    · rw [herased, map_erase_eq_iff.mpr hunlimited.stored]
    · rw [hrow, ← hnone]
      rfl

end Sound

end Proxy
end VermouthGateway
