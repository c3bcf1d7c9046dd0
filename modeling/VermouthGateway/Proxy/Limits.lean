import VermouthGateway.Foundation.Runs
import VermouthGateway.Proxy.RoutingTables
import VermouthGateway.Proxy.Serve

/-!
# Rate limits across restarts

`Restore` rebuilds the limiters by replaying the recorded infos through
`createRateLimiter`, the function that records them.  A restart therefore
writes every info a second time.

* `LimitRun`: requests, `SetRateLimit` on paths with a limiter and restarts, in
  any order.
* `limited_of_run`: what such a run keeps; a run that recorded no limiter has
  none.
* `keepsLimits_iff`: a restart keeps the limits exactly when none is recorded.
-/

namespace VermouthGateway
namespace Proxy

open Go Balancing Acl Runs
open HttpReverseProxy

/-- The limit of a complete path: its rate and its burst. -/
def limitOf (proxy : HttpReverseProxy) (url : String) : Option (Limit × Int) :=
  (proxy.rateLimiters.bind fun limiters => limiters.lookup url).map fun limiter =>
    (limiter.limit, limiter.burst)

/-- What changes the limits of a proxy. -/
inductive LimitEvent
  | serve (peerAvailable : Bool) (allow : QpsRateLimiter → Bool) (r : Utils.Request)
  | setRateLimit (prefixPath apiPath limiterType : String) (init speed : Int)
  | restart (order : RestoreOrder)

/-- One event.  A request and a change of a rate count however they end; a
restart is a proxy restored from the exported fields. -/
inductive LimitStep : HttpReverseProxy → LimitEvent → HttpReverseProxy → Prop
  | serve (proxy : HttpReverseProxy) (peerAvailable : Bool) (allow : QpsRateLimiter → Bool)
      (r : Utils.Request) :
      LimitStep proxy (.serve peerAvailable allow r)
        (memory (EStateM.run (serveHTTP peerAvailable allow r) proxy))
  | setRateLimit (proxy : HttpReverseProxy) (prefixPath apiPath limiterType : String)
      (init speed : Int)
      (hlimiter : ∃ limiters limiter, proxy.rateLimiters = some limiters ∧
        limiters.lookup (compeleteUrl prefixPath apiPath) = some limiter) :
      LimitStep proxy (.setRateLimit prefixPath apiPath limiterType init speed)
        (memory (EStateM.run
          (HttpReverseProxy.setRateLimit prefixPath apiPath limiterType init speed) proxy))
  | restart (proxy proxy' : HttpReverseProxy) (order : RestoreOrder)
      (hrun : EStateM.run (HttpReverseProxy.restore order) proxy.encode.decode =
        .ok true proxy') :
      LimitStep proxy (.restart order) proxy'

/-- Requests, rate changes and restarts in any order. -/
abbrev LimitRun : HttpReverseProxy → List LimitEvent → HttpReverseProxy → Prop :=
  Run LimitStep

/-- What every run keeps: the tables mirror the router, the black list is
empty, and a proxy that recorded no limiter has none. -/
structure Limited (proxy : HttpReverseProxy) : Prop where
  free : proxy.mu = .free
  type : proxy.prefixerType = typeHashPrefixer
  mirrors : ∃ p, Mirrors proxy p
  record : proxy.acl.record = ∅
  there : proxy.rateLimiters.isSome
  unlimited : ¬ proxy.RecordsLimiter → proxy.rateLimiters = some ∅

theorem Mirrored.limited {proxy : HttpReverseProxy} (h : Mirrored proxy) : Limited proxy where
  free := h.free
  type := h.type
  mirrors := h.mirrors
  record := h.record
  there := by rw [h.limiters]; rfl
  unlimited := fun _ => h.limiters

section Steps

variable {proxy proxy' : HttpReverseProxy}

theorem HttpReverseProxy.SameRoutes.mirrors (hsame : SameRoutes proxy proxy') {p : HashPrefixer}
    (h : Mirrors proxy p) : ∃ p', Mirrors proxy' p' := by
  obtain ⟨pm, rfl, hroutes⟩ := hsame
  have hrouting : SameRouting proxy { proxy with prefixMapping := pm } :=
    ⟨hroutes, rfl, rfl, rfl⟩
  exact hrouting.mirrors h

theorem HttpReverseProxy.SameRoutes.limited (hsame : SameRoutes proxy proxy') (h : Limited proxy) :
    Limited proxy' := by
  have hmirrors := hsame.mirrors h.mirrors.choose_spec
  obtain ⟨pm, rfl, -⟩ := hsame
  exact ⟨h.free, h.type, hmirrors, h.record, h.there, h.unlimited⟩

/-- A new limiter is a recorded limiter. -/
theorem recordsLimiter_withLimiter (proxy : HttpReverseProxy)
    (limiters : GoMap String QpsRateLimiter) (prefixPath : String) {info : LimiterInfo}
    (hqps : info.type = "qps") :
    (proxy.withLimiter limiters prefixPath info).RecordsLimiter := by
  refine ⟨prefixPath, _, info, Finmap.lookup_insert _, ?_, hqps⟩
  exact List.mem_append_right _ List.mem_cons_self

theorem Limited.withLimiter (h : Limited proxy) {limiters : GoMap String QpsRateLimiter}
    {prefixPath : String} {info : LimiterInfo} (hqps : info.type = "qps") :
    Limited (proxy.withLimiter limiters prefixPath info) := by
  obtain ⟨p, hp⟩ := h.mirrors
  exact
    { free := h.free
      type := h.type
      mirrors := ⟨p, ⟨hp.router, hp.paths, hp.static⟩, hp.modes, hp.supported⟩
      record := h.record
      there := rfl
      unlimited := fun hnone => absurd (recordsLimiter_withLimiter _ _ _ hqps) hnone }

/-- Editing an info leaves its type alone. -/
theorem exists_mem_setInfo (apiPath : String) (init speed : Int) {infos : List LimiterInfo}
    {info : LimiterInfo} (hinfo : info ∈ infos) :
    ∃ info' ∈ setInfo apiPath init speed infos, info'.type = info.type := by
  induction infos with
  | nil => cases hinfo
  | cons head infos ih =>
      rw [setInfo]
      split
      · rcases List.mem_cons.mp hinfo with rfl | hinfo
        · exact ⟨_, List.mem_cons_self, rfl⟩
        · exact ⟨info, List.mem_cons_of_mem _ hinfo, rfl⟩
      · rcases List.mem_cons.mp hinfo with rfl | hinfo
        · exact ⟨info, List.mem_cons_self, rfl⟩
        · obtain ⟨info', hmem, htype⟩ := ih hinfo
          exact ⟨info', List.mem_cons_of_mem _ hmem, htype⟩

theorem recordsLimiter_setInfos {prefixPath apiPath : String} {init speed : Int}
    {limiters : Option (GoMap String QpsRateLimiter)} (h : proxy.RecordsLimiter) :
    RecordsLimiter { proxy with
      rateLimiters := limiters
      rateLimiterType := setInfos proxy.rateLimiterType prefixPath apiPath init speed } := by
  obtain ⟨k, infos, info, hinfos, hinfo, hqps⟩ := h
  by_cases hk : k = prefixPath
  · subst hk
    obtain ⟨info', hmem, htype⟩ :=
      exists_mem_setInfo apiPath init speed hinfo
    refine ⟨k, _, info', ?_, hmem, htype.trans hqps⟩
    show (setInfos _ _ _ _ _).lookup k = _
    rw [setInfos, hinfos]
    exact Finmap.lookup_insert _
  · refine ⟨k, infos, info, ?_, hinfo, hqps⟩
    show (setInfos _ _ _ _ _).lookup k = _
    rw [setInfos]
    cases proxy.rateLimiterType.lookup prefixPath with
    | none => exact hinfos
    | some old =>
        dsimp only
        rw [GoMap.lookup_insert_eq, if_neg hk, hinfos]

/-- Setting a rate needs a limiter, so one was recorded before and still is. -/
theorem Limited.withInfos (h : Limited proxy) {prefixPath apiPath : String}
    {init speed : Int} {limiters : GoMap String QpsRateLimiter} {url : String}
    {limiter : QpsRateLimiter} {limiters' : Option (GoMap String QpsRateLimiter)}
    (hl : proxy.rateLimiters = some limiters) (hlimiter : limiters.lookup url = some limiter)
    (hthere : limiters'.isSome) :
    Limited { proxy with
      rateLimiters := limiters'
      rateLimiterType := setInfos proxy.rateLimiterType prefixPath apiPath init speed } := by
  obtain ⟨p, hp⟩ := h.mirrors
  have hrecords : proxy.RecordsLimiter := by
    by_contra hnone
    rw [h.unlimited hnone] at hl
    cases hl
    cases hlimiter
  exact
    { free := h.free
      type := h.type
      mirrors := ⟨p, ⟨hp.router, hp.paths, hp.static⟩, hp.modes, hp.supported⟩
      record := h.record
      there := hthere
      unlimited := fun hnone => absurd (recordsLimiter_setInfos hrecords) hnone }

/-- A restored proxy records what was recorded, and more of it. -/
theorem recordsLimiter_of_restored {tree : RadixTree}
    (hrestored : Restored proxy tree proxy') (h : proxy.RecordsLimiter) :
    proxy'.RecordsLimiter := by
  obtain ⟨k, infos, info, hinfos, hinfo, hqps⟩ := h
  refine ⟨k, replayed infos, info, ?_, List.mem_append_left _ hinfo, hqps⟩
  rw [hrestored.recorded, hinfos]
  rfl

theorem Limited.restored (h : Limited proxy) {order : RestoreOrder}
    (hrun : EStateM.run (HttpReverseProxy.restore order) proxy.encode.decode =
      .ok true proxy') : Limited proxy' := by
  obtain ⟨p, hp⟩ := h.mirrors
  rcases run_restore_ok hrun with ⟨-, hfalse, -⟩ | ⟨-, -, -, -, tree, hacl, hrestored⟩
  · cases hfalse
  rw [rebuildAcl_empty (show proxy.encode.decode.acl.record = ∅ from h.record)] at hacl
  cases hacl
  have hmirrors := (hp.sameRouting (sameFields_decode proxy) hrestored).mirrors hp
  have hunlimited : ¬ proxy'.RecordsLimiter → proxy'.rateLimiters = some ∅ := fun hnone =>
    (hrestored.unchanged fun hrecords =>
      hnone (recordsLimiter_of_restored hrestored hrecords)).1
  obtain ⟨static, router, limiters, recorded, hframe⟩ := hrestored.frame
  exact
    { free := by rw [hframe]; rfl
      type := by rw [hframe]; exact h.type
      mirrors := hmirrors
      record := by rw [hframe]; rfl
      there := by rw [hframe]; rfl
      unlimited := hunlimited }

end Steps

theorem LimitStep.limited {proxy proxy' : HttpReverseProxy} {event : LimitEvent}
    (hstep : LimitStep proxy event proxy') (h : Limited proxy) : Limited proxy' := by
  cases hstep with
  | serve peerAvailable allow r =>
      obtain ⟨proxy₁, hsame, hmem | ⟨prefixPath, apiPath, -, hmem⟩⟩ :=
        memory_serveHTTP peerAvailable allow r proxy
      · rw [hmem]
        exact hsame.limited h
      · have h₁ := hsame.limited h
        obtain ⟨limiters, hl⟩ := Option.isSome_iff_exists.mp h₁.there
        rw [hmem, run_createRateLimiter h₁.free hl (by decide)]
        exact h₁.withLimiter rfl
  | setRateLimit prefixPath apiPath limiterType init speed hlimiter =>
      obtain ⟨limiters, limiter, hl, hlimiter⟩ := hlimiter
      rw [run_setRateLimit h.free hl hlimiter]
      split
      · rw [memory_error]
        exact h.withInfos hl hlimiter h.there
      · rw [memory_ok]
        exact h.withInfos hl hlimiter rfl
  | restart _ order hrun => exact h.restored hrun

theorem limited_of_run {start proxy : HttpReverseProxy} {events : List LimitEvent}
    (hrun : LimitRun start events proxy) (h : Limited start) : Limited proxy :=
  hrun.invariant (fun _ _ _ hlimited hstep => hstep.limited hlimited) h

/-- A restart returns, leaves the recorded infos as they were, and limits every
path as before. -/
def KeepsLimits (proxy : HttpReverseProxy) (order : RestoreOrder) : Prop :=
  ∃ proxy', EStateM.run (HttpReverseProxy.restore order) proxy.encode.decode =
      .ok true proxy' ∧
    proxy'.rateLimiterType = proxy.rateLimiterType ∧
    ∀ url, limitOf proxy' url = limitOf proxy url

/-- Replaying a recorded limiter records it twice. -/
theorem not_keepsLimits {proxy : HttpReverseProxy} {order : RestoreOrder}
    (hrecords : proxy.RecordsLimiter) : ¬ KeepsLimits proxy order := by
  rintro ⟨proxy', hrun, hinfos, -⟩
  rcases run_restore_ok hrun with ⟨-, hfalse, -⟩ | ⟨-, -, -, -, tree, -, hrestored⟩
  · cases hfalse
  obtain ⟨k, infos, info, hk, hinfo, hqps⟩ := hrecords
  have hlookup := hrestored.recorded k
  rw [hinfos, hk] at hlookup
  have hsame : some infos = some (replayed infos) := by
    rw [hlookup]
    show (proxy.rateLimiterType.lookup k).map replayed = _
    rw [hk]
    rfl
  exact (replayed_eq_self_iff infos).mp (Option.some.inj hsame).symm info hinfo hqps

theorem Limited.keepsLimits {proxy : HttpReverseProxy} (h : Limited proxy)
    (hnone : ¬ proxy.RecordsLimiter) (order : RestoreOrder) : KeepsLimits proxy order := by
  obtain ⟨p, hp⟩ := h.mirrors
  have hspeeds : proxy.encode.decode.SpeedsNonzero := by
    intro k infos hk info hinfo hqps
    exact absurd ⟨k, infos, info, hk, hinfo, hqps⟩ hnone
  obtain ⟨answer, proxy', hrun⟩ := completes_iff.mp
    ((completes_restore_iff order (show proxy.encode.decode.mu = .free from rfl)).mpr
      (Or.inr ⟨hp.prefixesSupported, hspeeds, newRadixTree, rebuildAcl_empty h.record order⟩))
  rcases run_restore_ok hrun with ⟨hne, -⟩ | ⟨-, rfl, -, -, tree, -, hrestored⟩
  · exact absurd h.type hne
  obtain ⟨hlimiters, hinfos⟩ := hrestored.unchanged hnone
  refine ⟨proxy', hrun, hinfos, fun url => ?_⟩
  rw [limitOf, limitOf, hlimiters, h.unlimited hnone]

/-- After any run of requests, rate changes and restarts on a proxy set up by
routing calls, a restart keeps the limits exactly when none is recorded. -/
theorem keepsLimits_iff {args : HttpProxyArgs} {shutdown : Nat}
    {fresh start proxy : HttpReverseProxy} {calls : List RoutingCall}
    {events : List LimitEvent} (hnew : newHttpReverseProxy args shutdown = .ok fresh)
    (hcalls : EStateM.run (forEach calls RoutingCall.run) fresh = .ok () start)
    (hrun : LimitRun start events proxy) (order : RestoreOrder) :
    KeepsLimits proxy order ↔ ¬ proxy.RecordsLimiter := by
  have hlimited : Limited proxy := limited_of_run hrun
    (runCalls_mirrored (mirrored_newHttpReverseProxy hnew) hcalls).limited
  constructor
  · intro hkeeps hrecords
    exact not_keepsLimits hrecords hkeeps
  · intro hnone
    exact hlimited.keepsLimits hnone order

/-- One request to a prefix: the path now has its default limiter. -/
theorem one_request_run : ∃ fresh start proxy,
    newHttpReverseProxy ⟨8080, typeHashPrefixer, []⟩ 0 = .ok fresh ∧
    EStateM.run (forEach [.addPrefix "/api" "round-robin" ["10.0.0.1:80"] false]
      RoutingCall.run) fresh = .ok () start ∧
    LimitRun start
      [.serve true (fun _ => true) ⟨"/api/users", "10.0.0.9:5000", fun _ => ""⟩] proxy ∧
    proxy.rateLimiterType.lookup "/api" = some [⟨"/users", "qps", inf, inf⟩] :=
  ⟨_, _, _, rfl, rfl, .single (.serve _ _ _ _), by decide +kernel⟩

theorem keepsLimits_iff_after_request : ∃ proxy : HttpReverseProxy,
    proxy.rateLimiterType.lookup "/api" = some [⟨"/users", "qps", inf, inf⟩] ∧
    (KeepsLimits proxy .sorted ↔ ¬ proxy.RecordsLimiter) := by
  obtain ⟨fresh, start, proxy, hnew, hcalls, hrun, hinfos⟩ := one_request_run
  exact ⟨proxy, hinfos, keepsLimits_iff hnew hcalls hrun .sorted⟩

/-- The restart after that request records the default limiter a second time. -/
theorem restart_doubles_limiter :
    ¬ ∀ (args : HttpProxyArgs) (shutdown : Nat) (fresh start proxy : HttpReverseProxy)
      (calls : List RoutingCall) (events : List LimitEvent),
      newHttpReverseProxy args shutdown = .ok fresh →
      EStateM.run (forEach calls RoutingCall.run) fresh = .ok () start →
      LimitRun start events proxy → ∀ order, KeepsLimits proxy order := by
  intro hclaim
  obtain ⟨fresh, start, proxy, hnew, hcalls, hrun, hinfos⟩ := one_request_run
  have hrecords : proxy.RecordsLimiter :=
    ⟨"/api", _, _, hinfos, List.mem_cons_self, rfl⟩
  exact not_keepsLimits hrecords
    (hclaim _ _ fresh start proxy _ _ hnew hcalls hrun .sorted)

end Proxy
end VermouthGateway
