import VermouthGateway.Proxy.Limiters

/-!
# Restoring a proxy

A snapshot holds the exported fields of a proxy; decoding it leaves the others
at their zero value, and `Restore` rebuilds them.  It ranges over three maps in
an order the runtime chooses, and in doing so writes to its own tables:

* every prefix is added again, which writes its static flag;
* every recorded limiter is created again, which records it once more.

`Restored` describes the result without naming the orders, and
`run_restore_ok` and `completes_restore_iff` connect it to the code.
-/

namespace VermouthGateway
namespace Proxy

open Go Balancing Acl

/-- The exported fields of a proxy, as they stand in a snapshot. -/
structure ProxySnapshot where
  port : Int
  prefixerType : String
  paths : GoMap String (List String)
  balancerType : GoMap String String
  rateLimiterType : GoMap String (List LimiterInfo)
  staticMapping : GoMap String Bool
  record : GoMap String Bool
  available : Bool

/-- The tree a decoder makes: a record and nothing else. -/
def decodedTree (record : GoMap String Bool) : RadixTree where
  root := none
  free := none
  record := record
  heap := fun _ => RadixNode.blank
  next := 0

namespace ProxySnapshot

/-- Decoding: the unexported fields are left at their zero value. -/
def decode (s : ProxySnapshot) : HttpReverseProxy where
  mu := .free
  port := s.port
  prefixerType := s.prefixerType
  paths := s.paths
  balancerType := s.balancerType
  rateLimiterType := s.rateLimiterType
  staticMapping := s.staticMapping
  acl := decodedTree s.record
  available := s.available
  rateLimiters := none
  prefixMapping := none
  shutdown := none

end ProxySnapshot

namespace HttpReverseProxy

/-- Encoding: the exported fields. -/
def encode (proxy : HttpReverseProxy) : ProxySnapshot where
  port := proxy.port
  prefixerType := proxy.prefixerType
  paths := proxy.paths
  balancerType := proxy.balancerType
  rateLimiterType := proxy.rateLimiterType
  staticMapping := proxy.staticMapping
  record := proxy.acl.record
  available := proxy.available

variable {proxy proxy' : HttpReverseProxy}

theorem supported_ne_empty {algo : String} (h : Supported algo) : algo ≠ "" := by
  rintro rfl
  exact absurd h (by decide)

/-! ## The prefixes -/

/-- The loop over the prefixes `ks` with the hosts `hosts`: what it leaves. -/
structure PrefixesAdded (hosts : String → List String) (ks : List String)
    (proxy proxy' : HttpReverseProxy) : Prop where
  supported : ∀ k ∈ ks, Supported (proxy.balancerType.get k "")
  frame : ∃ static paths router, proxy' = { proxy with
    staticMapping := static, paths := paths, prefixMapping := some router }
  paths : ∀ q, proxy'.paths.lookup q =
    if q ∈ ks then some (hosts q) else proxy.paths.lookup q
  static : ∀ q, proxy'.staticMapping.lookup q =
    if q ∈ ks then some (proxy.staticMapping.get q false) else proxy.staticMapping.lookup q
  routes : ∀ p, proxy.prefixMapping = some p → ∃ p', proxy'.prefixMapping = some p' ∧
    ∀ q, p'.routes.lookup q =
      if q ∈ ks then some ⟨proxy.balancerType.get q "", hosts q⟩ else p.routes.lookup q

/-- One round adds one prefix and keeps the tables it reads. -/
theorem run_restorePrefix_ok {k : String} {hosts : List String} {p : HashPrefixer}
    (hp : proxy.prefixMapping = some p) (hnew : k ∉ p.mapping)
    (hrun : EStateM.run (restorePrefix k hosts) proxy = .ok () proxy') :
    Supported (proxy.balancerType.get k "") ∧ ∃ b : Balancer,
      b.view = ⟨proxy.balancerType.get k "", hosts⟩ ∧
      proxy' = { proxy with
        staticMapping := proxy.staticMapping.insert k (proxy.staticMapping.get k false)
        paths := proxy.paths.insert k hosts
        prefixMapping := some ⟨p.mapping.insert k b⟩ } := by
  rw [restorePrefix, EStateM.run_bind, EStateM.run_get] at hrun
  dsimp only at hrun
  obtain ⟨-, p₁, hp₁, hcases⟩ := run_addPrefix_ok hrun
  obtain rfl : p = p₁ := Option.some.inj (hp.symm.trans hp₁)
  rcases hcases with ⟨hold, -⟩ | ⟨-, b, hbuild, rfl⟩
  · exact absurd hold hnew
  · have hsupported := supported_of_build hbuild
    have hview := (build_ok hbuild).1
    refine ⟨hsupported, b, hview, ?_⟩
    -- the algorithm is written back to where it was read
    have hsame : proxy.balancerType.insert k (proxy.balancerType.get k "") =
        proxy.balancerType := by
      apply GoMap.insert_lookup_self
      cases hlookup : proxy.balancerType.lookup k with
      | none =>
          have hempty : proxy.balancerType.get k "" = "" := by
            rw [GoMap.get, hlookup, Option.getD_none]
          exact absurd hempty (supported_ne_empty hsupported)
      | some mode => rw [GoMap.get_of_lookup hlookup]
    have hhosts : b.hosts = hosts := congrArg View.hosts hview
    rw [withPrefix, hsame, hhosts]

/-- One round, and then the loop over the prefixes that are left. -/
theorem PrefixesAdded.cons {hosts : String → List String} {ks : List String} {k : String}
    {p : HashPrefixer} {b : Balancer} (hp : proxy.prefixMapping = some p) (hk : k ∉ ks)
    (hsupported : Supported (proxy.balancerType.get k ""))
    (hview : b.view = ⟨proxy.balancerType.get k "", hosts k⟩)
    (hlater : PrefixesAdded hosts ks
      { proxy with
        staticMapping := proxy.staticMapping.insert k (proxy.staticMapping.get k false)
        paths := proxy.paths.insert k (hosts k)
        prefixMapping := some ⟨p.mapping.insert k b⟩ } proxy') :
    PrefixesAdded hosts (k :: ks) proxy proxy' where
  supported := List.forall_mem_cons.mpr ⟨hsupported, hlater.supported⟩
  frame := by
    obtain ⟨static, paths, router, hframe⟩ := hlater.frame
    exact ⟨static, paths, router, hframe⟩
  paths q := by
    rw [hlater.paths]
    dsimp only
    rw [GoMap.lookup_insert_eq]
    by_cases hqk : q = k
    · subst hqk
      simp [hk]
    · simp [hqk]
  static q := by
    rw [hlater.static]
    dsimp only
    rw [GoMap.get, GoMap.lookup_insert_eq]
    by_cases hqk : q = k
    · subst hqk
      simp [hk]
    · simp [hqk, GoMap.get]
  routes p₀ hp₀ := by
    obtain rfl : p = p₀ := Option.some.inj (hp.symm.trans hp₀)
    obtain ⟨p', hp', hroutes⟩ := hlater.routes ⟨p.mapping.insert k b⟩ rfl
    refine ⟨p', hp', fun q => ?_⟩
    rw [hroutes, HashPrefixer.routes_insert, GoMap.lookup_insert_eq, hview]
    by_cases hqk : q = k
    · subst hqk
      simp [hk]
    · simp [hqk]

theorem run_restorePrefixes_ok {hosts : String → List String} {ks : List String}
    {p : HashPrefixer} (hp : proxy.prefixMapping = some p) (hnodup : ks.Nodup)
    (hnew : ∀ k ∈ ks, k ∉ p.mapping)
    (hrun : EStateM.run (forEach ks fun k => restorePrefix k (hosts k)) proxy =
      .ok () proxy') : PrefixesAdded hosts ks proxy proxy' := by
  -- over the prefixes still to add; a prefix is read from the snapshot, not from the round before
  induction ks generalizing proxy p with
  | nil =>
      cases hrun
      exact
        { supported := by simp
          frame := ⟨proxy'.staticMapping, proxy'.paths, p, by rw [← hp]⟩
          paths := by simp
          static := by simp
          routes := fun p hp => ⟨p, hp, by simp⟩ }
  | cons k ks ih =>
      obtain ⟨hk, hnodup⟩ := List.nodup_cons.mp hnodup
      obtain ⟨u, proxy₁, hround, hrest⟩ := run_forEach_cons_ok hrun
      obtain ⟨hsupported, b, hview, rfl⟩ :=
        run_restorePrefix_ok hp (hnew k List.mem_cons_self) hround
      -- the prefixes to come are other prefixes, so they are still not routed
      have hnew' : ∀ q ∈ ks, q ∉ p.mapping.insert k b := by
        intro q hq hmem
        rcases Finmap.mem_insert.mp hmem with rfl | hmem
        · exact hk hq
        · exact hnew q (List.mem_cons_of_mem k hq) hmem
      exact .cons hp hk hsupported hview (ih rfl hnodup hnew' hrest)

/-- The loop returns as soon as every prefix has a supported algorithm. -/
theorem completes_restorePrefixes {hosts : String → List String} {ks : List String}
    (h : proxy.mu = .free) (hp : proxy.prefixMapping.isSome)
    (hsupported : ∀ k ∈ ks, Supported (proxy.balancerType.get k "")) :
    Completes (EStateM.run (forEach ks fun k => restorePrefix k (hosts k)) proxy) := by
  induction ks generalizing proxy with
  | nil => trivial
  | cons k ks ih =>
      obtain ⟨p, hp⟩ := Option.isSome_iff_exists.mp hp
      have hround : Completes (EStateM.run (restorePrefix k (hosts k)) proxy) := by
        rw [restorePrefix, EStateM.run_bind, EStateM.run_get]
        exact (completes_addPrefix_iff _ _ _).mpr
          ⟨h, p, hp, Or.inr (hsupported k List.mem_cons_self)⟩
      obtain ⟨u, proxy₁, hround⟩ := completes_iff.mp hround
      rw [run_forEach_cons, hround]
      have hadd := hround
      rw [restorePrefix, EStateM.run_bind, EStateM.run_get] at hadd
      dsimp only at hadd
      obtain ⟨-, p₁, hp₁, ⟨-, rfl⟩ | ⟨-, b, -, rfl⟩⟩ := run_addPrefix_ok hadd
      · exact ih h (by rw [hp]; rfl) fun q hq => hsupported q (List.mem_cons_of_mem k hq)
      · -- the round writes the algorithm back, so the later prefixes still find theirs
        refine ih h rfl fun q hq => ?_
        have hsame : GoMap.get
            (proxy.balancerType.insert k (proxy.balancerType.get k "")) q "" =
            proxy.balancerType.get q "" := by
          rw [GoMap.get, GoMap.lookup_insert_eq]
          by_cases hqk : q = k
          · subst hqk
            simp
          · simp [hqk, GoMap.get]
        exact hsame ▸ hsupported q (List.mem_cons_of_mem k hq)

/-! ## The limiters -/

/-- What replaying the recorded infos appends to them. -/
def replayed (infos : List LimiterInfo) : List LimiterInfo :=
  infos ++ infos.filter fun info => info.type = "qps"

theorem replayed_eq_self_iff (infos : List LimiterInfo) :
    replayed infos = infos ↔ ∀ info ∈ infos, info.type ≠ "qps" := by
  rw [replayed]
  constructor
  · intro h info hinfo htype
    have hlen := congrArg List.length h
    rw [List.length_append] at hlen
    have hnil : infos.filter (fun info => info.type = "qps") = [] :=
      List.eq_nil_of_length_eq_zero (by omega)
    rw [List.filter_eq_nil_iff] at hnil
    exact hnil info hinfo (by simpa using htype)
  · intro h
    have hnil : infos.filter (fun info => info.type = "qps") = [] :=
      List.filter_eq_nil_iff.mpr fun info hinfo => by simpa using h info hinfo
    rw [hnil, List.append_nil]

/-- What a loop of replays leaves: limiters and recorded infos change, and
nothing at all changes when there was nothing to replay. -/
structure Replayed (nothing : Prop) (proxy proxy' : HttpReverseProxy)
    (lookup : String → Option (List LimiterInfo)) : Prop where
  frame : ∃ limiters recorded, proxy' = { proxy with
    rateLimiters := some limiters, rateLimiterType := recorded }
  recorded : ∀ q, proxy'.rateLimiterType.lookup q = lookup q
  unchanged : nothing → proxy' = proxy

/-- The loop over the infos of one prefix, which has `base` recorded. -/
theorem run_restoreLimiters_ok {prefixPath : String} {infos base : List LimiterInfo}
    (hl : proxy.rateLimiters.isSome)
    (hbase : proxy.rateLimiterType.lookup prefixPath = some base)
    (hrun : EStateM.run (restoreLimiters prefixPath infos) proxy = .ok () proxy') :
    (∀ info ∈ infos, info.type = "qps" → info.speed ≠ 0) ∧
    Replayed (∀ info ∈ infos, info.type ≠ "qps") proxy proxy' fun q =>
      if q = prefixPath then some (base ++ infos.filter fun info => info.type = "qps")
      else proxy.rateLimiterType.lookup q := by
  rw [restoreLimiters] at hrun
  -- over the infos read at the start of the loop; `base` grows by what each round appends
  induction infos generalizing proxy base with
  | nil =>
      cases hrun
      obtain ⟨limiters, hl⟩ := Option.isSome_iff_exists.mp hl
      refine ⟨by simp, ⟨limiters, proxy'.rateLimiterType, by rw [← hl]⟩, ?_, fun _ => rfl⟩
      intro q
      by_cases hq : q = prefixPath
      · subst hq
        simp [hbase]
      · simp [hq]
  | cons info infos ih =>
      obtain ⟨limiters, hl⟩ := Option.isSome_iff_exists.mp hl
      obtain ⟨answer, proxy₁, hround, hrest⟩ := run_forEach_cons_ok hrun
      obtain ⟨-, ⟨htype, rfl⟩ | ⟨htype, hspeed, rfl⟩⟩ := run_createRateLimiter_ok hl hround
      · obtain ⟨hspeeds, hframe, hrecorded, hunchanged⟩ := ih (by rw [hl]; rfl) hbase hrest
        refine ⟨?_, hframe, ?_, ?_⟩
        · exact List.forall_mem_cons.mpr ⟨fun hqps => absurd hqps htype, hspeeds⟩
        · simpa [List.filter_cons, htype] using hrecorded
        · exact fun h => hunchanged fun v hv => h v (List.mem_cons_of_mem info hv)
      · -- a qps info: appended once more, with the rate it has
        have hinfo : info = ⟨info.url, "qps", info.init, info.speed⟩ := by rw [← htype]
        have hbase₁ : (proxy.withLimiter limiters prefixPath
            ⟨info.url, "qps", info.init, info.speed⟩).rateLimiterType.lookup prefixPath =
            some (base ++ [info]) := by
          rw [withLimiter]
          dsimp only
          rw [Finmap.lookup_insert, GoMap.get_of_lookup hbase, ← hinfo]
        obtain ⟨hspeeds, ⟨limiters', recorded', hframe⟩, hrecorded, -⟩ :=
          ih rfl hbase₁ hrest
        refine ⟨?_, ⟨limiters', recorded', hframe⟩, ?_, ?_⟩
        · exact List.forall_mem_cons.mpr ⟨fun _ => hspeed, hspeeds⟩
        · intro q
          rw [hrecorded]
          by_cases hq : q = prefixPath
          · simp [hq, htype]
          · simp only [if_neg hq, withLimiter]
            rw [GoMap.lookup_insert_eq, if_neg hq]
        · exact fun h => absurd htype (h info List.mem_cons_self)

/-- The loop over the prefixes of the recorded infos. -/
theorem run_restoreAllLimiters_ok {infosOf : String → List LimiterInfo} {ks : List String}
    (hl : proxy.rateLimiters.isSome) (hnodup : ks.Nodup)
    (hbase : ∀ k ∈ ks, proxy.rateLimiterType.lookup k = some (infosOf k))
    (hrun : EStateM.run (forEach ks fun k => restoreLimiters k (infosOf k)) proxy =
      .ok () proxy') :
    (∀ k ∈ ks, ∀ info ∈ infosOf k, info.type = "qps" → info.speed ≠ 0) ∧
    Replayed (∀ k ∈ ks, ∀ info ∈ infosOf k, info.type ≠ "qps") proxy proxy' fun q =>
      if q ∈ ks then some (replayed (infosOf q)) else proxy.rateLimiterType.lookup q := by
  induction ks generalizing proxy with
  | nil =>
      cases hrun
      obtain ⟨limiters, hl⟩ := Option.isSome_iff_exists.mp hl
      exact ⟨by simp, ⟨limiters, proxy'.rateLimiterType, by rw [← hl]⟩, by simp, fun _ => rfl⟩
  | cons k ks ih =>
      obtain ⟨hk, hnodup⟩ := List.nodup_cons.mp hnodup
      obtain ⟨u, proxy₁, hround, hrest⟩ := run_forEach_cons_ok hrun
      obtain ⟨hspeeds, ⟨limiters₁, recorded₁, hframe₁⟩, hrecorded₁, hunchanged₁⟩ :=
        run_restoreLimiters_ok hl (hbase k List.mem_cons_self) hround
      obtain ⟨hspeeds', ⟨limiters', recorded', hframe'⟩, hrecorded', hunchanged'⟩ :=
        ih (show proxy₁.rateLimiters.isSome by rw [hframe₁]; rfl) hnodup (by
          intro q hq
          have hqk : q ≠ k := fun heq => hk (heq ▸ hq)
          rw [hrecorded₁, if_neg hqk]
          exact hbase q (List.mem_cons_of_mem k hq)) hrest
      refine ⟨List.forall_mem_cons.mpr ⟨hspeeds, hspeeds'⟩,
        ⟨limiters', recorded', by rw [hframe', hframe₁]⟩, ?_, ?_⟩
      · intro q
        rw [hrecorded', hrecorded₁]
        by_cases hqk : q = k
        · subst hqk
          simp [hk, replayed]
        · simp [hqk]
      · intro h
        rw [hunchanged' fun q hq => h q (List.mem_cons_of_mem k hq),
          hunchanged₁ (h k List.mem_cons_self)]

/-- A replay returns when the limiters are there and no recorded speed is zero. -/
theorem completes_createRateLimiter (prefixPath apiPath : String) (init : Int)
    {limiterType : String} {speed : Int} (h : proxy.mu = .free) (hl : proxy.rateLimiters.isSome)
    (hspeed : limiterType = "qps" → speed ≠ 0) :
    ∃ answer proxy₁, EStateM.run
        (createRateLimiter prefixPath apiPath limiterType init speed) proxy =
          .ok answer proxy₁ ∧ proxy₁.mu = .free ∧ proxy₁.rateLimiters.isSome := by
  obtain ⟨limiters, hl'⟩ := Option.isSome_iff_exists.mp hl
  by_cases htype : limiterType = "qps"
  · subst htype
    exact ⟨_, _, run_createRateLimiter h hl' (hspeed rfl), h, rfl⟩
  · exact ⟨_, _, run_createRateLimiter_unsupported h htype, h, hl⟩

theorem completes_restoreLimiters (prefixPath : String) {infos : List LimiterInfo}
    (h : proxy.mu = .free) (hl : proxy.rateLimiters.isSome)
    (hspeeds : ∀ info ∈ infos, info.type = "qps" → info.speed ≠ 0) :
    ∃ proxy₁, EStateM.run (restoreLimiters prefixPath infos) proxy = .ok () proxy₁ ∧
      proxy₁.mu = .free ∧ proxy₁.rateLimiters.isSome := by
  rw [restoreLimiters]
  induction infos generalizing proxy with
  | nil => exact ⟨proxy, rfl, h, hl⟩
  | cons info infos ih =>
      obtain ⟨answer, proxy₁, hround, h₁, hl₁⟩ := completes_createRateLimiter
        prefixPath info.url info.init h hl (hspeeds info List.mem_cons_self)
      rw [run_forEach_cons, hround]
      exact ih h₁ hl₁ fun v hv => hspeeds v (List.mem_cons_of_mem info hv)

theorem completes_restoreAllLimiters {infosOf : String → List LimiterInfo}
    {ks : List String} (h : proxy.mu = .free) (hl : proxy.rateLimiters.isSome)
    (hspeeds : ∀ k ∈ ks, ∀ info ∈ infosOf k, info.type = "qps" → info.speed ≠ 0) :
    Completes (EStateM.run (forEach ks fun k => restoreLimiters k (infosOf k)) proxy) := by
  induction ks generalizing proxy with
  | nil => trivial
  | cons k ks ih =>
      obtain ⟨proxy₁, hround, h₁, hl₁⟩ := completes_restoreLimiters k h hl
        (hspeeds k List.mem_cons_self)
      rw [run_forEach_cons, hround]
      exact ih h₁ hl₁ fun q hq => hspeeds q (List.mem_cons_of_mem k hq)

/-! ## The whole of `Restore` -/

/-- The state the last loop starts from. -/
def withAcl (proxy : HttpReverseProxy) (tree : RadixTree) : HttpReverseProxy :=
  { proxy with acl := tree, rateLimiters := some ∅ }

/-- The state the first loop starts from. -/
def emptied (proxy : HttpReverseProxy) : HttpReverseProxy :=
  { proxy with prefixMapping := some newHashPrefixer, paths := ∅ }

theorem run_restore_unknown {order : RestoreOrder}
    (htype : proxy.prefixerType ≠ typeHashPrefixer) :
    EStateM.run (restore order) proxy = .ok false proxy := by
  rw [restore, EStateM.run_bind, EStateM.run_get]
  dsimp only
  rw [buildPrefixer, if_neg htype]
  rfl

theorem run_restore (order : RestoreOrder) (htype : proxy.prefixerType = typeHashPrefixer) :
    EStateM.run (restore order) proxy =
      match EStateM.run (forEach (order.paths.keys proxy.paths) fun k =>
          restorePrefix k (proxy.paths.get k [])) proxy.emptied with
      | .error e proxy₁ => .error e proxy₁
      | .ok _ proxy₁ =>
          match rebuildAcl (order.record.keys proxy₁.acl.record) with
          | .error e => .error e proxy₁
          | .ok tree =>
              match EStateM.run (forEach (order.limiters.keys proxy₁.rateLimiterType) fun k =>
                  restoreLimiters k (proxy₁.rateLimiterType.get k []))
                  (proxy₁.withAcl tree) with
              | .error e proxy₂ => .error e proxy₂
              | .ok _ proxy₂ => .ok true proxy₂ := by
  rw [restore, EStateM.run_bind, EStateM.run_get]
  dsimp only
  rw [buildPrefixer, if_pos htype]
  dsimp only
  rw [EStateM.run_bind, EStateM.run_set]
  dsimp only
  rw [EStateM.run_bind, emptied]
  cases EStateM.run (forEach (order.paths.keys proxy.paths) fun k =>
      restorePrefix k (proxy.paths.get k []))
      { proxy with prefixMapping := some newHashPrefixer, paths := ∅ } with
  | error e proxy₁ => rfl
  | ok u proxy₁ =>
      dsimp only
      rw [EStateM.run_bind, EStateM.run_get]
      dsimp only
      rw [EStateM.run_bind]
      cases rebuildAcl (order.record.keys proxy₁.acl.record) with
      | error e => rfl
      | ok tree =>
          rw [run_ofPure_ok]
          dsimp only
          rw [EStateM.run_bind, run_modify]
          dsimp only
          rw [EStateM.run_bind, EStateM.run_get]
          dsimp only
          rw [EStateM.run_bind, ← withAcl]
          cases EStateM.run (forEach (order.limiters.keys proxy₁.rateLimiterType) fun k =>
              restoreLimiters k (proxy₁.rateLimiterType.get k []))
              (proxy₁.withAcl tree) <;> rfl

/-- Some limiter is recorded that a replay would create. -/
def RecordsLimiter (proxy : HttpReverseProxy) : Prop :=
  ∃ k infos info, proxy.rateLimiterType.lookup k = some infos ∧ info ∈ infos ∧
    info.type = "qps"

/-- The proxy `Restore` makes, given the tree it rebuilt. -/
structure Restored (proxy : HttpReverseProxy) (tree : RadixTree)
    (proxy' : HttpReverseProxy) : Prop where
  frame : ∃ static router limiters recorded, proxy' = { proxy with
    staticMapping := static, prefixMapping := some router, acl := tree,
    rateLimiters := some limiters, rateLimiterType := recorded }
  static : ∀ q, proxy'.staticMapping.lookup q =
    if q ∈ proxy.paths then some (proxy.staticMapping.get q false)
    else proxy.staticMapping.lookup q
  routes : ∃ router, proxy'.prefixMapping = some router ∧ ∀ q, router.routes.lookup q =
    (proxy.paths.lookup q).map fun hosts => ⟨proxy.balancerType.get q "", hosts⟩
  recorded : ∀ q, proxy'.rateLimiterType.lookup q =
    (proxy.rateLimiterType.lookup q).map replayed
  unchanged : ¬ proxy.RecordsLimiter →
    proxy'.rateLimiters = some ∅ ∧ proxy'.rateLimiterType = proxy.rateLimiterType

/-- An empty black list is rebuilt as a new tree. -/
theorem rebuildAcl_empty (hrecord : proxy.acl.record = ∅) (order : RestoreOrder) :
    rebuildAcl (order.record.keys proxy.acl.record) = .ok newRadixTree := by
  rw [hrecord, RangeOrder.keys_empty]
  rfl

/-- What the first loop needs. -/
def PrefixesSupported (proxy : HttpReverseProxy) : Prop :=
  ∀ k ∈ proxy.paths, Supported (proxy.balancerType.get k "")

/-- What the last loop needs. -/
def SpeedsNonzero (proxy : HttpReverseProxy) : Prop :=
  ∀ k infos, proxy.rateLimiterType.lookup k = some infos →
    ∀ info ∈ infos, info.type = "qps" → info.speed ≠ 0

/-- A `Restore` that returned went through its three loops. -/
theorem run_restore_phases {order : RestoreOrder} {answer : Bool}
    (htype : proxy.prefixerType = typeHashPrefixer)
    (hrun : EStateM.run (restore order) proxy = .ok answer proxy') :
    answer = true ∧ ∃ proxy₁ tree,
      EStateM.run (forEach (order.paths.keys proxy.paths) fun k =>
        restorePrefix k (proxy.paths.get k [])) proxy.emptied = .ok () proxy₁ ∧
      rebuildAcl (order.record.keys proxy₁.acl.record) = .ok tree ∧
      EStateM.run (forEach (order.limiters.keys proxy₁.rateLimiterType) fun k =>
        restoreLimiters k (proxy₁.rateLimiterType.get k [])) (proxy₁.withAcl tree) =
          .ok () proxy' := by
  rw [run_restore order htype] at hrun
  cases hloop : EStateM.run (forEach (order.paths.keys proxy.paths) fun k =>
      restorePrefix k (proxy.paths.get k [])) proxy.emptied with
  | error e proxy₁ =>
      rw [hloop] at hrun
      cases hrun
  | ok u proxy₁ =>
  rw [hloop] at hrun
  dsimp only at hrun
  cases hacl : rebuildAcl (order.record.keys proxy₁.acl.record) with
  | error e =>
      rw [hacl] at hrun
      cases hrun
  | ok tree =>
  rw [hacl] at hrun
  dsimp only at hrun
  cases hreplay : EStateM.run (forEach (order.limiters.keys proxy₁.rateLimiterType) fun k =>
      restoreLimiters k (proxy₁.rateLimiterType.get k [])) (proxy₁.withAcl tree) with
  | error e proxy₂ =>
      rw [hreplay] at hrun
      cases hrun
  | ok u proxy₂ =>
      rw [hreplay] at hrun
      cases hrun
      exact ⟨rfl, proxy₁, tree, rfl, hacl, hreplay⟩

/-- The first loop starts from an empty router and empty `paths`, so what it
leaves is told by the tables of the snapshot alone. -/
theorem restored_prefixes {order : RangeOrder String (List String)}
    {proxy₁ : HttpReverseProxy}
    (hloop : EStateM.run (forEach (order.keys proxy.paths) fun k =>
      restorePrefix k (proxy.paths.get k [])) proxy.emptied = .ok () proxy₁) :
    proxy.PrefixesSupported ∧
    (∃ static router, proxy₁ = { proxy with
      staticMapping := static, prefixMapping := some router }) ∧
    (∀ q, proxy₁.staticMapping.lookup q =
      if q ∈ proxy.paths then some (proxy.staticMapping.get q false)
      else proxy.staticMapping.lookup q) ∧
    ∃ router, proxy₁.prefixMapping = some router ∧ ∀ q, router.routes.lookup q =
      (proxy.paths.lookup q).map fun hosts => ⟨proxy.balancerType.get q "", hosts⟩ := by
  have hadded := run_restorePrefixes_ok
    (show proxy.emptied.prefixMapping = some newHashPrefixer from rfl)
    (order.nodup proxy.paths) (fun k _ => Finmap.notMem_empty) hloop
  have hpaths : proxy₁.paths = proxy.paths := by
    apply Finmap.ext_lookup
    intro q
    rw [hadded.paths]
    simp only [order.mem_keys]
    exact (GoMap.ite_mem_get proxy.paths q [] id).trans (congrFun Option.map_id _)
  refine ⟨fun k hk => hadded.supported k ((order.mem_keys _ k).mpr hk), ?_, ?_, ?_⟩
  · obtain ⟨static, paths, router, hframe⟩ := hadded.frame
    refine ⟨static, router, ?_⟩
    rw [hframe] at hpaths ⊢
    dsimp only [emptied] at hpaths ⊢
    rw [hpaths]
  · intro q
    rw [hadded.static]
    simp only [order.mem_keys]
    rfl
  · obtain ⟨router, hrouter, hroutes⟩ := hadded.routes newHashPrefixer rfl
    refine ⟨router, hrouter, fun q => ?_⟩
    rw [hroutes]
    simp only [order.mem_keys, HashPrefixer.routes_newHashPrefixer]
    exact GoMap.ite_mem_get proxy.paths q [] (View.mk (proxy.balancerType.get q ""))

/-- The last loop replays every recorded info once, in whatever order. -/
theorem restored_limiters {order : RangeOrder String (List LimiterInfo)}
    (hl : proxy.rateLimiters = some ∅)
    (hreplay : EStateM.run (forEach (order.keys proxy.rateLimiterType) fun k =>
      restoreLimiters k (proxy.rateLimiterType.get k [])) proxy = .ok () proxy') :
    proxy.SpeedsNonzero ∧
    (∃ limiters recorded, proxy' = { proxy with
      rateLimiters := some limiters, rateLimiterType := recorded }) ∧
    (∀ q, proxy'.rateLimiterType.lookup q =
      (proxy.rateLimiterType.lookup q).map replayed) ∧
    (¬ proxy.RecordsLimiter →
      proxy'.rateLimiters = some ∅ ∧ proxy'.rateLimiterType = proxy.rateLimiterType) := by
  have hkeys : ∀ k ∈ order.keys proxy.rateLimiterType,
      proxy.rateLimiterType.lookup k = some (proxy.rateLimiterType.get k []) := by
    intro k hk
    obtain ⟨infos, hinfos⟩ := Finmap.mem_iff.mp ((order.mem_keys _ k).mp hk)
    rw [GoMap.get_of_lookup hinfos, hinfos]
  obtain ⟨hspeeds, hframe, hrecorded, hunchanged⟩ :=
    run_restoreAllLimiters_ok (by rw [hl]; rfl) (order.nodup _) hkeys hreplay
  refine ⟨?_, hframe, ?_, ?_⟩
  · intro k infos hinfos info hinfo
    have hk : k ∈ order.keys proxy.rateLimiterType :=
      (order.mem_keys _ k).mpr (Finmap.mem_iff.mpr ⟨infos, hinfos⟩)
    refine hspeeds k hk info ?_
    rw [GoMap.get_of_lookup hinfos]
    exact hinfo
  · intro q
    rw [hrecorded]
    simp only [order.mem_keys]
    rw [← GoMap.ite_mem_get proxy.rateLimiterType q []]
    split
    · rfl
    · next hq => exact Finmap.lookup_eq_none.mpr hq
  · intro hnone
    have hsame := hunchanged fun k hk info hinfo htype =>
      hnone ⟨k, _, info, hkeys k hk, hinfo, htype⟩
    rw [hsame]
    exact ⟨hl, rfl⟩

theorem run_restore_ok {order : RestoreOrder} {answer : Bool}
    (hrun : EStateM.run (restore order) proxy = .ok answer proxy') :
    (proxy.prefixerType ≠ typeHashPrefixer ∧ answer = false ∧ proxy' = proxy) ∨
      (proxy.prefixerType = typeHashPrefixer ∧ answer = true ∧ proxy.PrefixesSupported ∧
        proxy.SpeedsNonzero ∧ ∃ tree,
          rebuildAcl (order.record.keys proxy.acl.record) = .ok tree ∧
            Restored proxy tree proxy') := by
  by_cases htype : proxy.prefixerType = typeHashPrefixer
  swap
  · rw [run_restore_unknown htype] at hrun
    cases hrun
    exact Or.inl ⟨htype, rfl, rfl⟩
  obtain ⟨rfl, proxy₁, tree, hloop, hacl, hreplay⟩ := run_restore_phases htype hrun
  obtain ⟨hsupported, ⟨static₁, router₁, hframe₁⟩, hstatic, hroutes⟩ :=
    restored_prefixes hloop
  obtain ⟨hspeeds, ⟨limiters, recorded, hframe⟩, hrecorded, hunchanged⟩ :=
    restored_limiters (show (proxy₁.withAcl tree).rateLimiters = some ∅ from rfl) hreplay
  -- The first loop leaves the black list and the infos as they were.
  have hrecord₁ : proxy₁.acl.record = proxy.acl.record := by rw [hframe₁]
  have hinfos₁ : (proxy₁.withAcl tree).rateLimiterType = proxy.rateLimiterType := by
    rw [hframe₁]
    rfl
  rw [hrecord₁] at hacl
  rw [SpeedsNonzero, hinfos₁] at hspeeds
  rw [RecordsLimiter, hinfos₁] at hunchanged
  rw [hinfos₁] at hrecorded
  refine Or.inr ⟨htype, rfl, hsupported, hspeeds, tree, hacl, ?_⟩
  exact
    { frame := ⟨static₁, router₁, limiters, recorded, by rw [hframe, hframe₁]; rfl⟩
      static := by rw [hframe]; exact hstatic
      routes := by rw [hframe]; exact hroutes
      recorded := hrecorded
      unchanged := hunchanged }

/-- `Restore` returns when every prefix has a supported algorithm, the black
list can be rebuilt and no recorded speed is zero. -/
theorem completes_restore_iff (order : RestoreOrder) (h : proxy.mu = .free) :
    Completes (EStateM.run (restore order) proxy) ↔
      proxy.prefixerType ≠ typeHashPrefixer ∨
        (proxy.PrefixesSupported ∧ proxy.SpeedsNonzero ∧
          ∃ tree, rebuildAcl (order.record.keys proxy.acl.record) = .ok tree) := by
  constructor
  · intro hcomplete
    obtain ⟨answer, proxy', hrun⟩ := completes_iff.mp hcomplete
    rcases run_restore_ok hrun with ⟨htype, -⟩ | ⟨-, -, hsupported, hspeeds, tree, hacl, -⟩
    · exact Or.inl htype
    · exact Or.inr ⟨hsupported, hspeeds, tree, hacl⟩
  · rintro (htype | ⟨hsupported, hspeeds, tree, hacl⟩)
    · rw [run_restore_unknown htype]
      trivial
    by_cases htype : proxy.prefixerType = typeHashPrefixer
    swap
    · rw [run_restore_unknown htype]
      trivial
    -- Each loop returns by itself, and the later ones start where the first one ends.
    have hloop : Completes (EStateM.run (forEach (order.paths.keys proxy.paths) fun k =>
        restorePrefix k (proxy.paths.get k [])) proxy.emptied) :=
      completes_restorePrefixes h rfl
        fun k hk => hsupported k ((order.paths.mem_keys _ k).mp hk)
    obtain ⟨u', proxy₁, hloop⟩ := completes_iff.mp hloop
    obtain ⟨-, ⟨static₁, router₁, hframe₁⟩, -⟩ := restored_prefixes hloop
    have hreplay : Completes (EStateM.run
        (forEach (order.limiters.keys proxy₁.rateLimiterType) fun k =>
          restoreLimiters k (proxy₁.rateLimiterType.get k [])) (proxy₁.withAcl tree)) :=
      completes_restoreAllLimiters (by rw [hframe₁]; exact h) rfl (by
        intro k hk info hinfo
        obtain ⟨infos, hinfos⟩ := Finmap.mem_iff.mp ((order.limiters.mem_keys _ k).mp hk)
        rw [GoMap.get_of_lookup hinfos] at hinfo
        rw [hframe₁] at hinfos
        exact hspeeds k infos hinfos info hinfo)
    obtain ⟨u'', proxy₂, hreplay⟩ := completes_iff.mp hreplay
    have hrecord₁ : proxy₁.acl.record = proxy.acl.record := by rw [hframe₁]
    rw [run_restore order htype, hloop]
    dsimp only
    rw [hrecord₁, hacl]
    dsimp only
    rw [hreplay]
    trivial

end HttpReverseProxy
end Proxy
end VermouthGateway
