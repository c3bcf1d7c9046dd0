import VermouthGateway.Foundation.Replays
import VermouthGateway.Proxy.Sound
import VermouthGateway.Proxy.Limits
import VermouthGateway.Proxy.LimiterTables
import VermouthGateway.Proxy.LimiterKeys

/-!
# Limits that were replayed

A restore replays the recorded infos through `createRateLimiter`: the last info of a
path gives its limiter, and every info is recorded once more.  `SetRateLimit` changes
the first info of the path.

* `limitOf_restored`: the limit of a path on a restored proxy.
* `LimitKept`: a path whose limiter was replayed, so that its info occurs twice at least.
* `ProxyCall.run_limitKept`, `limitKept_serveHTTP`: calls and requests leave the last
  info alone, whatever limit they set.
* `limitKept_restored`: a restore goes back to it.
-/

namespace VermouthGateway
namespace Proxy

open Go Balancing Acl Replays
open HttpReverseProxy

/-- An info recorded under the prefix that a replay makes the limiter of the path of. -/
def LimiterInfo.limits (prefixPath path : String) (info : LimiterInfo) : Bool :=
  decide (info.type = "qps" ∧ compeleteUrl prefixPath info.url = path)

/-- The path is recorded under this prefix alone: so often, and this is its last info. -/
structure OnRecord (prefixPath path : String) (n : Nat) (last : LimiterInfo)
    (recorded : GoMap String (List LimiterInfo)) : Prop where
  occurs : Occurs (LimiterInfo.limits prefixPath path) n last (recorded.get prefixPath [])
  only : ∀ q, q ≠ prefixPath → (recorded.get q []).filter (LimiterInfo.limits q path) = []

section Record

variable {prefixPath path : String} {n : Nat} {last : LimiterInfo}
  {recorded recorded' : GoMap String (List LimiterInfo)}

theorem OnRecord.of_get (h : OnRecord prefixPath path n last recorded)
    (hget : ∀ q, (recorded.get q []).filter (LimiterInfo.limits q path) = [] →
      (recorded'.get q []).filter (LimiterInfo.limits q path) = []) {n' : Nat}
    (hoccurs : Occurs (LimiterInfo.limits prefixPath path) n' last (recorded'.get prefixPath [])) :
    OnRecord prefixPath path n' last recorded' :=
  ⟨hoccurs, fun q hq => hget q (h.only q hq)⟩

theorem OnRecord.replayed (h : OnRecord prefixPath path n last recorded)
    (hrecorded : ∀ q, recorded'.lookup q = (recorded.lookup q).map replayed) :
    OnRecord prefixPath path (n * 2) last recorded' := by
  have hget : ∀ q, recorded'.get q [] = Proxy.HttpReverseProxy.replayed (recorded.get q []) := by
    intro q
    rw [GoMap.get, GoMap.get, hrecorded]
    cases recorded.lookup q <;> rfl
  refine h.of_get (fun q hnone => ?_) ?_
  · rw [hget, HttpReverseProxy.replayed, List.filter_append, hnone, List.nil_append,
      List.filter_filter]
    refine List.filter_eq_nil_iff.mpr fun info hinfo hboth => ?_
    exact List.filter_eq_nil_iff.mp hnone info hinfo (Bool.and_eq_true_iff.mp hboth).1
  · rw [hget]
    exact h.occurs.replay fun info hinfo =>
      decide_eq_true (of_decide_eq_true hinfo).1

/-- The info of another path. -/
theorem OnRecord.append (h : OnRecord prefixPath path n last recorded) {q : String}
    {info : LimiterInfo} (hother : compeleteUrl q info.url ≠ path) :
    OnRecord prefixPath path n last
      (recorded.insert q (recorded.get q [] ++ [info])) := by
  have hnot : info.limits q path = false := decide_eq_false fun hlimits => hother hlimits.2
  have hget : ∀ k, GoMap.get (recorded.insert q (recorded.get q [] ++ [info])) k [] =
      if k = q then recorded.get q [] ++ [info] else recorded.get k [] := by
    intro k
    rw [GoMap.get, GoMap.lookup_insert_eq]
    split <;> rfl
  refine h.of_get (fun k hnone => ?_) ?_
  · rw [hget]
    split
    next hk =>
      subst hk
      rw [List.filter_append, hnone, List.filter_cons_of_neg (by rw [hnot]; simp)]
      rfl
    · exact hnone
  · rw [hget]
    split
    next hk =>
      subst hk
      exact h.occurs.concat hnot
    · exact h.occurs

theorem OnRecord.erase (h : OnRecord prefixPath path n last recorded) {q : String}
    (hq : q ≠ prefixPath) : OnRecord prefixPath path n last (recorded.erase q) := by
  have hget : ∀ k, GoMap.get (recorded.erase q) k [] =
      if k = q then [] else recorded.get k [] := by
    intro k
    rw [GoMap.get, GoMap.lookup_erase_eq]
    split <;> rfl
  refine h.of_get (fun k hnone => ?_) ?_
  · rw [hget]
    split
    · rfl
    · exact hnone
  · rw [hget, if_neg fun heq => hq heq.symm]
    exact h.occurs

/-- `SetRateLimit` changes the first info of the url. -/
theorem setInfo_eq_modifyFirst (apiPath : String) (init speed : Int) (infos : List LimiterInfo) :
    setInfo apiPath init speed infos =
      modifyFirst (fun info => info.url = apiPath)
        (fun info => { info with init := init, speed := speed }) infos := by
  induction infos with
  | nil => rfl
  | cons info infos ih =>
      rw [setInfo, modifyFirst, ih]
      by_cases hurl : info.url = apiPath
      · rw [if_pos hurl, if_pos (decide_eq_true hurl)]
      · rw [if_neg hurl, if_neg (by simpa using hurl)]

/-- Once the path has two infos, a new limit is not written to the last one. -/
theorem OnRecord.setInfos (h : OnRecord prefixPath path n last recorded) (htwice : 2 ≤ n)
    (q apiPath : String) (init speed : Int) :
    OnRecord prefixPath path n last
      (HttpReverseProxy.setInfos recorded q apiPath init speed) := by
  have hget : ∀ k, (HttpReverseProxy.setInfos recorded q apiPath init speed).get k [] =
      if k = q then setInfo apiPath init speed (recorded.get q []) else recorded.get k [] := by
    intro k
    rw [GoMap.get, GoMap.get, lookup_setInfos]
    split
    · cases recorded.lookup q <;> rfl
    · rfl
  refine h.of_get (fun k hnone => ?_) ?_
  · rw [hget]
    split
    next hk =>
      subst hk
      rw [setInfo_eq_modifyFirst]
      refine List.eq_nil_of_length_eq_zero ((filter_modifyFirst_length ?_ _).trans ?_)
      · exact fun _ => rfl
      · rw [hnone, List.length_nil]
    · exact hnone
  · rw [hget]
    split
    next hk =>
      subst hk
      rw [setInfo_eq_modifyFirst]
      refine h.occurs.modifyFirst (fun _ => rfl) ?_ htwice
      -- an info of the prefix has the url exactly when it is one of its path
      by_cases hpath : compeleteUrl prefixPath apiPath = path
      · refine Or.inl fun info hinfo => decide_eq_true ?_
        exact compeleteUrl_injective prefixPath ((of_decide_eq_true hinfo).2.trans hpath.symm)
      · refine Or.inr fun info hurl => decide_eq_false fun hlimits => hpath ?_
        rw [← of_decide_eq_true hurl]
        exact hlimits.2
    · exact h.occurs

end Record

/-! ## What a restore makes of the record -/

/-- The infos of a prefix that are replayed. -/
def replaysOf (prefixPath : String) (infos : List LimiterInfo) : List (String × LimiterInfo) :=
  (infos.filter fun info => info.type = "qps").map (Prod.mk prefixPath)

/-- Replaying infos under their prefixes makes limiters. -/
def loadLimiters (entries : List (String × LimiterInfo)) (limiters : GoMap String QpsRateLimiter) :
    String → Option QpsRateLimiter :=
  load (fun entry => compeleteUrl entry.1 entry.2.url)
    (fun entry => limiterOf entry.2.init entry.2.speed) entries fun path => limiters.lookup path

section Restore

variable {proxy proxy' : HttpReverseProxy} {limiters : GoMap String QpsRateLimiter}

theorem run_restoreLimiters_load {prefixPath : String} {infos : List LimiterInfo}
    (hl : proxy.rateLimiters = some limiters)
    (hrun : EStateM.run (restoreLimiters prefixPath infos) proxy = .ok () proxy') :
    ∃ limiters', proxy'.rateLimiters = some limiters' ∧
      (fun path => limiters'.lookup path) =
        loadLimiters (replaysOf prefixPath infos) limiters := by
  rw [restoreLimiters] at hrun
  induction infos generalizing proxy limiters with
  | nil =>
      cases hrun
      exact ⟨limiters, hl, rfl⟩
  | cons info infos ih =>
      obtain ⟨answer, proxy₁, hround, hrest⟩ := run_forEach_cons_ok hrun
      obtain ⟨-, ⟨htype, rfl⟩ | ⟨htype, -, rfl⟩⟩ := run_createRateLimiter_ok hl hround
      · obtain ⟨limiters', hl', hload⟩ := ih hl hrest
        refine ⟨limiters', hl', ?_⟩
        rw [hload, replaysOf, replaysOf, List.filter_cons_of_neg (by simpa using htype)]
      · obtain ⟨limiters', hl', hload⟩ := ih rfl hrest
        refine ⟨limiters', hl', ?_⟩
        rw [hload, replaysOf, replaysOf, List.filter_cons_of_pos (by simpa using htype),
          List.map_cons, loadLimiters, loadLimiters, load, load, List.foldl_cons]
        congr 1
        funext path
        rw [GoMap.lookup_insert_eq, Function.update_apply]

theorem run_restoreAllLimiters_load {infosOf : String → List LimiterInfo} {ks : List String}
    (hl : proxy.rateLimiters = some limiters)
    (hrun : EStateM.run (forEach ks fun k => restoreLimiters k (infosOf k)) proxy =
      .ok () proxy') :
    ∃ limiters', proxy'.rateLimiters = some limiters' ∧
      (fun path => limiters'.lookup path) =
        loadLimiters (ks.flatMap fun k => replaysOf k (infosOf k)) limiters := by
  induction ks generalizing proxy limiters with
  | nil =>
      cases hrun
      exact ⟨limiters, hl, rfl⟩
  | cons k ks ih =>
      obtain ⟨u, proxy₁, hround, hrest⟩ := run_forEach_cons_ok hrun
      obtain ⟨limiters₁, hl₁, hload₁⟩ := run_restoreLimiters_load hl hround
      obtain ⟨limiters', hl', hload'⟩ := ih hl₁ hrest
      refine ⟨limiters', hl', ?_⟩
      rw [hload', List.flatMap_cons, loadLimiters, loadLimiters, load_append]
      exact congrArg (load _ _ _) hload₁

/-- A restored proxy has the limiters of the record it was restored from. -/
theorem run_restore_load {order : RestoreOrder} {answer : Bool}
    (htype : proxy.prefixerType = typeHashPrefixer)
    (hrun : EStateM.run (HttpReverseProxy.restore order) proxy = .ok answer proxy') :
    ∃ ks : List String, ks.Nodup ∧ (∀ k, k ∈ ks ↔ k ∈ proxy.rateLimiterType) ∧
      ∃ limiters, proxy'.rateLimiters = some limiters ∧ (fun path => limiters.lookup path) =
        loadLimiters (ks.flatMap fun k => replaysOf k (proxy.rateLimiterType.get k [])) ∅ := by
  obtain ⟨-, proxy₁, tree, hloop, -, hreplay⟩ := run_restore_phases htype hrun
  obtain ⟨-, ⟨static₁, router₁, hframe⟩, -⟩ := restored_prefixes hloop
  have hrecorded : proxy₁.rateLimiterType = proxy.rateLimiterType := by rw [hframe]
  rw [hrecorded] at hreplay
  have hempty : (proxy₁.withAcl tree).rateLimiters = some ∅ := rfl
  exact ⟨order.limiters.keys proxy.rateLimiterType, order.limiters.nodup _,
    fun k => order.limiters.mem_keys _ k, run_restoreAllLimiters_load hempty hreplay⟩

end Restore

section Limits

variable {prefixPath path : String} {n : Nat} {last : LimiterInfo} {proxy proxy' : HttpReverseProxy}

theorem filter_replaysOf (q path : String) (infos : List LimiterInfo) :
    ((replaysOf q infos).filter fun entry => compeleteUrl entry.1 entry.2.url = path) =
      (infos.filter (LimiterInfo.limits q path)).map (Prod.mk q) := by
  rw [replaysOf, List.filter_map, List.filter_filter]
  congr 2
  funext info
  rw [LimiterInfo.limits, Bool.decide_and, Bool.and_comm]
  rfl

/-- A path that one prefix alone records is limited by its last info. -/
theorem limitOf_restored {order : RestoreOrder} {answer : Bool}
    (htype : proxy.prefixerType = typeHashPrefixer)
    (honly : ∀ q, q ≠ prefixPath →
      (proxy.rateLimiterType.get q []).filter (LimiterInfo.limits q path) = [])
    (hrun : EStateM.run (HttpReverseProxy.restore order) proxy = .ok answer proxy') :
    ∃ limiters, proxy'.rateLimiters = some limiters ∧ limiters.lookup path =
      ((proxy.rateLimiterType.get prefixPath []).filter
        (LimiterInfo.limits prefixPath path)).getLast?.map
          fun info => limiterOf info.init info.speed := by
  obtain ⟨ks, hnodup, hks, limiters, hlimiters, hload⟩ := run_restore_load htype hrun
  refine ⟨limiters, hlimiters, (congrFun hload path).trans ?_⟩
  rw [loadLimiters, load_apply, Finmap.lookup_empty, Option.or_none]
  have hothers : ∀ q ∈ ks, q ≠ prefixPath →
      ((replaysOf q (proxy.rateLimiterType.get q [])).filter
        fun entry => compeleteUrl entry.1 entry.2.url = path) = [] := by
    intro q _ hq
    rw [filter_replaysOf, honly q hq, List.map_nil]
  by_cases hmem : prefixPath ∈ ks
  · rw [filter_flatMap_of_only hnodup hmem hothers, filter_replaysOf, List.getLast?_map,
      Option.map_map]
    rfl
  · have hget : proxy.rateLimiterType.get prefixPath [] = [] := by
      rw [GoMap.get, Finmap.lookup_eq_none.mpr (mt (hks prefixPath).mpr hmem), Option.getD_none]
    have hnone : ((ks.flatMap fun k => replaysOf k (proxy.rateLimiterType.get k [])).filter
        fun entry => compeleteUrl entry.1 entry.2.url = path) = [] := by
      refine List.filter_eq_nil_iff.mpr fun entry hentry => ?_
      obtain ⟨q, hq, hentry⟩ := List.mem_flatMap.mp hentry
      have hne : q ≠ prefixPath := fun heq => hmem (heq ▸ hq)
      exact List.filter_eq_nil_iff.mp (hothers q hq hne) entry hentry
    rw [hnone, hget]
    rfl

/-! ## A path whose limiter was replayed -/

/-- The rate that an info tells. -/
def LimiterInfo.rate (info : LimiterInfo) : Limit × Int :=
  (every (second.tdiv info.speed), info.init)

/-- The path has its limiter, and two infos of it at least. -/
structure LimitKept (prefixPath path : String) (n : Nat) (last : LimiterInfo) (rate : Limit × Int)
    (proxy : HttpReverseProxy) : Prop where
  free : proxy.mu = .free
  type : proxy.prefixerType = typeHashPrefixer
  limit : limitOf proxy path = some rate
  record : OnRecord prefixPath path n last proxy.rateLimiterType
  twice : 2 ≤ n

/-- A restore makes the limiter that the last info tells, and a second one of each info. -/
theorem limitKept_restored {order : RestoreOrder} {answer : Bool} (hfree : proxy.mu = .free)
    (htype : proxy.prefixerType = typeHashPrefixer)
    (hrecord : OnRecord prefixPath path n last proxy.rateLimiterType)
    (hrun : EStateM.run (HttpReverseProxy.restore order) proxy = .ok answer proxy') :
    LimitKept prefixPath path (n * 2) last last.rate proxy' := by
  obtain ⟨limiters, hlimiters, hlookup⟩ := limitOf_restored htype hrecord.only hrun
  rcases run_restore_ok hrun with ⟨hne, -⟩ | ⟨-, -, -, -, tree, -, hrestored⟩
  · exact absurd htype hne
  obtain ⟨static, router, limiters', recorded', hframe⟩ := hrestored.frame
  refine ⟨?_, ?_, ?_, hrecord.replayed hrestored.recorded, ?_⟩
  · rw [hframe]
    exact hfree
  · rw [hframe]
    exact htype
  · rw [limitOf, hlimiters, Option.bind_some, hlookup, hrecord.occurs.last]
    rfl
  · have hpos := hrecord.occurs.pos
    omega

/-- A path that a restored proxy limits is on record. -/
theorem onRecord_of_restored {order : RestoreOrder} {answer : Bool}
    (htype : proxy.prefixerType = typeHashPrefixer)
    (honly : ∀ q, q ≠ prefixPath →
      (proxy.rateLimiterType.get q []).filter (LimiterInfo.limits q path) = [])
    (hrun : EStateM.run (HttpReverseProxy.restore order) proxy = .ok answer proxy')
    (hlimit : (limitOf proxy' path).isSome) :
    ∃ n last, OnRecord prefixPath path n last proxy.rateLimiterType := by
  obtain ⟨limiters, hlimiters, hlookup⟩ := limitOf_restored htype honly hrun
  rw [limitOf, hlimiters, Option.bind_some, hlookup, Option.isSome_map, Option.isSome_map] at hlimit
  obtain ⟨last, hlast⟩ := Option.isSome_iff_exists.mp hlimit
  exact ⟨_, last, ⟨rfl, hlast⟩, honly⟩

namespace LimitKept

variable {rate : Limit × Int}

theorem exists_limiters (h : LimitKept prefixPath path n last rate proxy) :
    ∃ limiters, proxy.rateLimiters = some limiters ∧ path ∈ limiters := by
  obtain ⟨limiter, hlimiter, -⟩ := Option.map_eq_some_iff.mp h.limit
  obtain ⟨limiters, hl, hlookup⟩ := Option.bind_eq_some_iff.mp hlimiter
  exact ⟨limiters, hl, Finmap.mem_iff.mpr ⟨limiter, hlookup⟩⟩

/-- Neither the limiters nor their infos have changed. -/
theorem of_same (h : LimitKept prefixPath path n last rate proxy) (hfree : proxy'.mu = .free)
    (htype : proxy'.prefixerType = proxy.prefixerType)
    (hlimiters : proxy'.rateLimiters = proxy.rateLimiters)
    (hrecorded : proxy'.rateLimiterType = proxy.rateLimiterType) :
    LimitKept prefixPath path n last rate proxy' :=
  ⟨hfree, htype.trans h.type, by rw [limitOf, hlimiters]; exact h.limit,
    by rw [hrecorded]; exact h.record, h.twice⟩

theorem withoutPrefix (h : LimitKept prefixPath path n last rate proxy) (p : HashPrefixer)
    {q : String} (hne : q ≠ prefixPath) (hpath : q ≠ path) :
    LimitKept prefixPath path n last rate (proxy.withoutPrefix p q) := by
  obtain ⟨limiters, hl, -⟩ := h.exists_limiters
  refine ⟨h.free, h.type, ?_, h.record.erase hne, h.twice⟩
  have hlimit := h.limit
  rw [limitOf, hl, Option.bind_some] at hlimit
  rw [limitOf, HttpReverseProxy.withoutPrefix, hl, Option.map_some, Option.bind_some,
    GoMap.lookup_erase_eq, if_neg fun heq => hpath heq.symm]
  exact hlimit

theorem withRate (h : LimitKept prefixPath path n last rate proxy)
    {limiters : GoMap String QpsRateLimiter} (hl : proxy.rateLimiters = some limiters)
    (limiter : QpsRateLimiter) (q apiPath : String) (init speed : Int) :
    LimitKept prefixPath path n last
      (if compeleteUrl q apiPath = path then (every (second.tdiv speed), init) else rate)
      (proxy.withRate limiters limiter q apiPath init speed) := by
  refine ⟨h.free, h.type, ?_, h.record.setInfos h.twice q apiPath init speed, h.twice⟩
  rw [limitOf_withRate hl, h.limit]
  by_cases hpath : compeleteUrl q apiPath = path
  · rw [if_pos hpath, if_pos hpath.symm]
  · rw [if_neg hpath, if_neg fun heq => hpath heq.symm]

/-- A limiter for another path. -/
theorem withLimiter (h : LimitKept prefixPath path n last rate proxy)
    {limiters : GoMap String QpsRateLimiter} (hl : proxy.rateLimiters = some limiters)
    {q : String} {info : LimiterInfo} (hnew : compeleteUrl q info.url ∉ limiters) :
    LimitKept prefixPath path n last rate (proxy.withLimiter limiters q info) := by
  obtain ⟨limiters', hl', hmem⟩ := h.exists_limiters
  cases hl.symm.trans hl'
  have hother : path ≠ compeleteUrl q info.url := fun heq => hnew (heq ▸ hmem)
  refine ⟨h.free, h.type, ?_, h.record.append fun heq => hother heq.symm, h.twice⟩
  have hlimit := h.limit
  rw [limitOf, hl, Option.bind_some] at hlimit
  rw [limitOf, HttpReverseProxy.withLimiter, Option.bind_some, GoMap.lookup_insert_eq,
    if_neg hother]
  exact hlimit

end LimitKept

/-- The call removes neither the prefix nor the limiter of the path. -/
def RoutingCall.LeavesLimit (prefixPath path : String) : RoutingCall → Prop
  | .removePrefix q => q ≠ prefixPath ∧ q ≠ path
  | .changeLb q _ => q ≠ prefixPath ∧ q ≠ path
  | _ => True

def ProxyCall.LeavesLimit (prefixPath path : String) : ProxyCall → Prop
  | .routing call => call.LeavesLimit prefixPath path
  | _ => True

/-- The limit of a path after a call that leaves it. -/
def ProxyCall.limitAfter (path : String) (rate : Limit × Int) : ProxyCall → Limit × Int
  | .setRateLimit q apiPath _ init speed =>
      if compeleteUrl q apiPath = path then (every (second.tdiv speed), init) else rate
  | _ => rate

section Calls

variable {rate : Limit × Int}

theorem RoutingCall.run_limitKept (call : RoutingCall)
    (h : LimitKept prefixPath path n last rate proxy) (hleaves : call.LeavesLimit prefixPath path)
    (hrun : EStateM.run call.run proxy = .ok () proxy') :
    LimitKept prefixPath path n last rate proxy' := by
  cases call with
  | addPrefix q algo hosts isStatic =>
      obtain ⟨-, p, -, ⟨-, rfl⟩ | ⟨-, b, -, rfl⟩⟩ := run_addPrefix_ok hrun
      · exact h
      · exact h.of_same h.free rfl rfl rfl
  | removePrefix q =>
      obtain ⟨-, p, -, rfl⟩ := run_removePrefix_ok hrun
      exact h.withoutPrefix p hleaves.1 hleaves.2
  | addHost q host =>
      obtain ⟨-, p, b, b', -, -, -, rfl⟩ := run_updateHosts_ok hrun
      exact h.of_same h.free rfl rfl rfl
  | removeHost q host =>
      obtain ⟨-, p, b, b', -, -, -, rfl⟩ := run_updateHosts_ok hrun
      exact h.of_same h.free rfl rfl rfl
  | changeStatic q =>
      rw [RoutingCall.run, run_changeStatic h.free] at hrun
      cases hrun
      exact h.of_same h.free rfl rfl rfl
  | changeLb q lb =>
      obtain ⟨-, p, b, b', -, -, -, rfl⟩ := run_changeLb_ok hrun
      have hremoved := h.withoutPrefix p hleaves.1 hleaves.2
      exact hremoved.of_same hremoved.free rfl rfl rfl

/-- A call sets what limit it wants, and leaves the last info alone. -/
theorem ProxyCall.run_limitKept (call : ProxyCall)
    (h : LimitKept prefixPath path n last rate proxy) (hleaves : call.LeavesLimit prefixPath path)
    (hrun : EStateM.run call.run proxy = .ok () proxy') :
    LimitKept prefixPath path n last (call.limitAfter path rate) proxy' := by
  cases call with
  | routing call => exact call.run_limitKept h hleaves hrun
  | addBlackList ips =>
      obtain ⟨-, tree, -, rfl⟩ := run_aclLoop_ok hrun
      exact h.of_same h.free rfl rfl rfl
  | removeBlackList ips =>
      obtain ⟨-, tree, -, rfl⟩ := run_aclLoop_ok hrun
      exact h.of_same h.free rfl rfl rfl
  | setRateLimit q apiPath limiterType init speed =>
      obtain ⟨-, -, limiters, limiter, hl, -, rfl⟩ := run_setRateLimit_ok hrun
      exact h.withRate hl limiter q apiPath init speed
  | start =>
      rw [ProxyCall.run, run_start h.free] at hrun
      cases hrun
      exact h.of_same h.free rfl rfl rfl
  | stop =>
      rw [ProxyCall.run, run_stop h.free] at hrun
      cases hrun
      exact h.of_same h.free rfl rfl rfl

/-- A request makes limiters for paths that have none. -/
theorem limitKept_serveHTTP (h : LimitKept prefixPath path n last rate proxy)
    (peerAvailable : Bool) (allow : QpsRateLimiter → Bool) (r : Utils.Request) :
    LimitKept prefixPath path n last rate
      (memory (EStateM.run (serveHTTP peerAvailable allow r) proxy)) := by
  obtain ⟨proxy₁, ⟨pm, rfl, -⟩, hmem | ⟨q, apiPath, hneeds, hmem⟩⟩ :=
    memory_serveHTTP peerAvailable allow r proxy
  · rw [hmem]
    exact h.of_same h.free rfl rfl rfl
  · have h₁ : LimitKept prefixPath path n last rate { proxy with prefixMapping := pm } :=
      h.of_same h.free rfl rfl rfl
    obtain ⟨limiters, hl, -⟩ := h.exists_limiters
    obtain ⟨-, -, -, -, -, hnone⟩ := hneeds
    rw [hl, Option.bind_some] at hnone
    rw [hmem, run_createRateLimiter h₁.free hl (by decide)]
    exact h₁.withLimiter hl (Finmap.lookup_eq_none.mp hnone)

end Calls

end Limits

end Proxy
end VermouthGateway
