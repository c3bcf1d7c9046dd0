import VermouthGateway.Proxy.LimiterTables

/-!
# Limits under traffic

A request looks its limiter up and, when there is none, makes one later; other
requests and calls of `SetRateLimit` come in between.  `Traffic` is a proxy with
the requests that are between these two steps.

* `Traffic.Holds`: the limiter of every path is as the last `SetRateLimit` that
  returned for it left it.
* `limit_holds`: it holds as long as no request makes a limiter on a path that
  was set in the meantime.
* `limit_undone`: two first requests and one `SetRateLimit` between them.
-/

namespace VermouthGateway
namespace Proxy

open Go Balancing Runs
open HttpReverseProxy

/-- What a `SetRateLimit` that returned was called with. -/
structure Setting where
  prefixPath : String
  apiPath : String
  init : Int
  speed : Int

structure Traffic where
  proxy : HttpReverseProxy
  /-- Prefix and rest of the path of the requests that found no limiter and
  have not made one yet. -/
  missed : List (String × String)
  /-- The last `SetRateLimit` for a complete path, if it returned. -/
  last : String → Option Setting

inductive TrafficEvent
  | request (peerAvailable : Bool) (allow : QpsRateLimiter → Bool) (r : Utils.Request)
  | miss (peerAvailable : Bool) (r : Utils.Request) (prefixPath apiPath : String)
  | create (prefixPath apiPath : String)
  | setRateLimit (prefixPath apiPath limiterType : String) (init speed : Int)

/-- A request that makes no limiter, the look-up of one that will, its call of
`createRateLimiter`, or a whole `SetRateLimit`, each however it ends. -/
inductive TrafficStep : Traffic → TrafficEvent → Traffic → Prop
  | request (s : Traffic) (peerAvailable : Bool) (allow : QpsRateLimiter → Bool)
      (r : Utils.Request) (hneeds : ¬ NeedsLimiter s.proxy peerAvailable r) :
      TrafficStep s (.request peerAvailable allow r)
        { s with proxy := memory (EStateM.run (serveHTTP peerAvailable allow r) s.proxy) }
  | miss (s : Traffic) (peerAvailable : Bool) (r : Utils.Request) (prefixPath apiPath : String)
      (hneeds : NeedsLimiterAt s.proxy peerAvailable r prefixPath apiPath) :
      TrafficStep s (.miss peerAvailable r prefixPath apiPath)
        { s with
          proxy := memory (EStateM.run
            (onPrefixer (HashPrefixer.mappingPath r.path r)) s.proxy)
          missed := s.missed ++ [(prefixPath, apiPath)] }
  | create (s : Traffic) (prefixPath apiPath : String)
      (hmissed : (prefixPath, apiPath) ∈ s.missed) :
      TrafficStep s (.create prefixPath apiPath)
        { s with
          proxy := memory (EStateM.run
            (createRateLimiter prefixPath apiPath "qps" inf inf) s.proxy)
          missed := s.missed.erase (prefixPath, apiPath) }
  | setRateLimit (s : Traffic) (prefixPath apiPath limiterType : String) (init speed : Int) :
      TrafficStep s (.setRateLimit prefixPath apiPath limiterType init speed)
        { s with
          proxy := memory (EStateM.run
            (HttpReverseProxy.setRateLimit prefixPath apiPath limiterType init speed) s.proxy)
          last := Function.update s.last (compeleteUrl prefixPath apiPath)
            (if Completes (EStateM.run
              (HttpReverseProxy.setRateLimit prefixPath apiPath limiterType init speed) s.proxy)
            then some ⟨prefixPath, apiPath, init, speed⟩ else none) }

/-- How many infos of a url are recorded under a prefix. -/
def HttpReverseProxy.infoCount (proxy : HttpReverseProxy) (prefixPath apiPath : String) : Nat :=
  ((proxy.rateLimiterType.get prefixPath []).map LimiterInfo.url).count apiPath

/-- The limiter of the path has the rate of the setting, and one info is
recorded for it. -/
structure Setting.Holds (setting : Setting) (proxy : HttpReverseProxy) : Prop where
  limiter : ∃ limiters limiter, proxy.rateLimiters = some limiters ∧
    limiters.lookup (compeleteUrl setting.prefixPath setting.apiPath) = some limiter ∧
    limiter.limit = every (second.tdiv setting.speed) ∧ limiter.burst = setting.init
  info : proxy.infoCount setting.prefixPath setting.apiPath = 1

/-- Every limit is as the last `SetRateLimit` for its path left it. -/
def Traffic.Holds (s : Traffic) : Prop :=
  ∀ path setting, s.last path = some setting →
    compeleteUrl setting.prefixPath setting.apiPath = path ∧ setting.Holds s.proxy

/-- A limiter is made on paths that were not set only, and a limit is set where
its url is recorded once. -/
def TrafficEvent.Harmless (s : Traffic) : TrafficEvent → Prop
  | .create prefixPath apiPath => s.last (compeleteUrl prefixPath apiPath) = none
  | .setRateLimit prefixPath apiPath _ _ _ => s.proxy.infoCount prefixPath apiPath = 1
  | _ => True

/-! ## What the steps do to the limiters -/

/-- The limiters are the same, and as many infos are recorded. -/
structure SameLimiters (proxy proxy' : HttpReverseProxy) : Prop where
  limiters : proxy'.rateLimiters = proxy.rateLimiters
  counts : ∀ k url, proxy'.infoCount k url = proxy.infoCount k url

theorem HttpReverseProxy.SameRoutes.sameLimiters {proxy proxy' : HttpReverseProxy}
    (h : SameRoutes proxy proxy') : SameLimiters proxy proxy' := by
  obtain ⟨pm, rfl, -⟩ := h
  exact ⟨rfl, fun _ _ => rfl⟩

theorem Setting.Holds.same {setting : Setting} {proxy proxy' : HttpReverseProxy}
    (h : setting.Holds proxy) (hsame : SameLimiters proxy proxy') : setting.Holds proxy' := by
  obtain ⟨limiters, limiter, hl, hlimiter, hrate⟩ := h.limiter
  refine ⟨⟨limiters, limiter, hsame.limiters.trans hl, hlimiter, hrate⟩, ?_⟩
  rw [hsame.counts]
  exact h.info

section Steps

variable {proxy : HttpReverseProxy} {prefixPath apiPath : String}

/-- An edited info is counted as before. -/
theorem infoCount_of_map_url {proxy' : HttpReverseProxy} {k url : String}
    (hurls : (proxy'.rateLimiterType.lookup k).map (List.map LimiterInfo.url) =
      (proxy.rateLimiterType.lookup k).map (List.map LimiterInfo.url)) :
    proxy'.infoCount k url = proxy.infoCount k url := by
  have hget (m : GoMap String (List LimiterInfo)) : (m.get k []).map LimiterInfo.url =
      ((m.lookup k).map (List.map LimiterInfo.url)).getD [] := by
    rw [GoMap.get]
    cases m.lookup k <;> rfl
  rw [infoCount, infoCount, hget, hget, hurls]

theorem infoCount_withRate (limiters : GoMap String QpsRateLimiter) (limiter : QpsRateLimiter)
    (init speed : Int) (k url : String) :
    (proxy.withRate limiters limiter prefixPath apiPath init speed).infoCount k url =
      proxy.infoCount k url :=
  infoCount_of_map_url (map_url_setInfos apiPath init speed k)

/-- One more info is counted where it is recorded. -/
theorem infoCount_withLimiter (limiters : GoMap String QpsRateLimiter) (info : LimiterInfo)
    (k url : String) :
    (proxy.withLimiter limiters prefixPath info).infoCount k url =
      proxy.infoCount k url + if k = prefixPath ∧ info.url = url then 1 else 0 := by
  rw [infoCount, infoCount, GoMap.get, HttpReverseProxy.withLimiter]
  dsimp only
  rw [GoMap.lookup_insert_eq]
  by_cases hk : k = prefixPath
  · rw [if_pos hk, Option.getD_some, List.map_append, List.count_append, hk, List.map_singleton,
      List.count_singleton]
    simp
  · rw [if_neg hk, if_neg fun h => hk h.1]
    rfl

/-- A call on the prefixer changes nothing else. -/
theorem memory_onPrefixer {α : Type} (body : Eff HashPrefixer α) (proxy : HttpReverseProxy) :
    ∃ pm, memory (EStateM.run (onPrefixer body) proxy) = { proxy with prefixMapping := pm } := by
  cases hp : proxy.prefixMapping with
  | none =>
      rw [run_onPrefixer_none hp]
      exact ⟨proxy.prefixMapping, rfl⟩
  | some p =>
      rw [run_onPrefixer_some hp, memory_embed]
      exact ⟨_, rfl⟩

theorem sameLimiters_onPrefixer {α : Type} (body : Eff HashPrefixer α) :
    SameLimiters proxy (memory (EStateM.run (onPrefixer body) proxy)) := by
  obtain ⟨pm, hmem⟩ := memory_onPrefixer body proxy
  rw [hmem]
  exact ⟨rfl, fun _ _ => rfl⟩

/-- Making a limiter: nothing happens, or the path gets the default limiter and
one more info is recorded. -/
theorem memory_createRateLimiter (proxy : HttpReverseProxy) (prefixPath apiPath : String) :
    SameLimiters proxy (memory (EStateM.run
        (createRateLimiter prefixPath apiPath "qps" inf inf) proxy)) ∨
      ∃ limiters, proxy.rateLimiters = some limiters ∧
        memory (EStateM.run (createRateLimiter prefixPath apiPath "qps" inf inf) proxy) =
          proxy.withLimiter limiters prefixPath ⟨apiPath, "qps", inf, inf⟩ := by
  by_cases h : proxy.mu = .free
  · cases hl : proxy.rateLimiters with
    | none =>
        refine Or.inl ?_
        obtain ⟨mu⟩ := proxy
        obtain rfl : mu = .free := h
        obtain rfl : _ = none := hl
        exact ⟨rfl, fun _ _ => rfl⟩
    | some limiters =>
        rw [run_createRateLimiter h hl (by decide)]
        exact Or.inr ⟨limiters, rfl, rfl⟩
  · rw [createRateLimiter, run_withLock_held h]
    exact Or.inl ⟨rfl, fun _ _ => rfl⟩

/-- `SetRateLimit` returns with the new rate on the path, or the limiters are as
they were. -/
theorem memory_setRateLimit (proxy : HttpReverseProxy)
    (prefixPath apiPath limiterType : String) (init speed : Int) :
    (¬ Completes (EStateM.run
        (HttpReverseProxy.setRateLimit prefixPath apiPath limiterType init speed) proxy) ∧
      SameLimiters proxy (memory (EStateM.run
        (HttpReverseProxy.setRateLimit prefixPath apiPath limiterType init speed) proxy))) ∨
    ∃ limiters limiter, proxy.rateLimiters = some limiters ∧
      limiters.lookup (compeleteUrl prefixPath apiPath) = some limiter ∧
      EStateM.run (HttpReverseProxy.setRateLimit prefixPath apiPath limiterType init speed)
        proxy = .ok () (proxy.withRate limiters limiter prefixPath apiPath init speed) := by
  by_cases h : proxy.mu = .free
  · cases hbind : proxy.rateLimiters.bind fun limiters =>
        limiters.lookup (compeleteUrl prefixPath apiPath) with
    | none =>
        rw [run_setRateLimit_missing h hbind]
        exact Or.inl ⟨not_completes_error _ _, rfl, fun _ _ => rfl⟩
    | some limiter =>
        obtain ⟨limiters, hl, hlimiter⟩ := Option.bind_eq_some_iff.mp hbind
        rw [run_setRateLimit h hl hlimiter]
        by_cases hspeed : speed = 0
        · rw [if_pos hspeed]
          exact Or.inl ⟨not_completes_error _ _, rfl, fun k _ =>
            infoCount_of_map_url (map_url_setInfos apiPath init speed k)⟩
        · rw [if_neg hspeed]
          exact Or.inr ⟨limiters, limiter, hl, hlimiter, rfl⟩
  · rw [HttpReverseProxy.setRateLimit, run_withLock_held h]
    exact Or.inl ⟨not_completes_error _ _, rfl, fun _ _ => rfl⟩

/-- A limiter made on another path does not touch the setting. -/
theorem Setting.Holds.withLimiter {setting : Setting} (h : setting.Holds proxy)
    {limiters : GoMap String QpsRateLimiter} (hl : proxy.rateLimiters = some limiters)
    (info : LimiterInfo)
    (hother : compeleteUrl setting.prefixPath setting.apiPath ≠
      compeleteUrl prefixPath info.url) :
    setting.Holds (proxy.withLimiter limiters prefixPath info) := by
  obtain ⟨limiters', limiter, hl', hlimiter, hrate⟩ := h.limiter
  cases hl.symm.trans hl'
  refine ⟨⟨_, limiter, rfl, ?_, hrate⟩, ?_⟩
  · rw [GoMap.lookup_insert_eq, if_neg hother]
    exact hlimiter
  · rw [infoCount_withLimiter, h.info, if_neg]
    rintro ⟨hpath, hurl⟩
    exact hother (by rw [hpath, hurl])

/-- A rate set on another path does not touch the setting. -/
theorem Setting.Holds.withRate {setting : Setting} (h : setting.Holds proxy)
    {limiters : GoMap String QpsRateLimiter} (hl : proxy.rateLimiters = some limiters)
    (limiter : QpsRateLimiter) (init speed : Int)
    (hother : compeleteUrl setting.prefixPath setting.apiPath ≠
      compeleteUrl prefixPath apiPath) :
    setting.Holds (proxy.withRate limiters limiter prefixPath apiPath init speed) := by
  obtain ⟨limiters', limiter', hl', hlimiter', hrate⟩ := h.limiter
  cases hl.symm.trans hl'
  refine ⟨⟨_, limiter', rfl, ?_, hrate⟩, ?_⟩
  · rw [GoMap.lookup_insert_eq, if_neg hother]
    exact hlimiter'
  · rw [infoCount_withRate]
    exact h.info

/-- The setting of a `SetRateLimit` holds where its url was recorded once. -/
theorem Setting.holds_withRate (limiters : GoMap String QpsRateLimiter)
    (limiter : QpsRateLimiter) (init speed : Int)
    (honce : proxy.infoCount prefixPath apiPath = 1) :
    Setting.Holds ⟨prefixPath, apiPath, init, speed⟩
      (proxy.withRate limiters limiter prefixPath apiPath init speed) := by
  refine ⟨⟨_, _, rfl, Finmap.lookup_insert _, rfl, rfl⟩, ?_⟩
  rw [infoCount_withRate]
  exact honce

end Steps

/-! ## Runs -/

/-- A harmless step leaves every limit as it was set. -/
theorem TrafficStep.holds {s s' : Traffic} {event : TrafficEvent} (hstep : TrafficStep s event s')
    (hharmless : event.Harmless s) (h : s.Holds) : s'.Holds := by
  cases hstep with
  | request peerAvailable allow r hneeds =>
      intro path setting hlast
      obtain ⟨hpath, hset⟩ := h path setting hlast
      exact ⟨hpath, hset.same (serveHTTP_frame allow hneeds).sameLimiters⟩
  | miss peerAvailable r prefixPath apiPath hneeds =>
      intro path setting hlast
      obtain ⟨hpath, hset⟩ := h path setting hlast
      exact ⟨hpath, hset.same (sameLimiters_onPrefixer _)⟩
  | create prefixPath apiPath hmissed =>
      intro path setting hlast
      obtain ⟨rfl, hset⟩ := h path setting hlast
      refine ⟨rfl, ?_⟩
      -- the new limiter is stored on another path, since this one has a setting
      rcases memory_createRateLimiter s.proxy prefixPath apiPath with hsame | ⟨limiters, hl, hmem⟩
      · exact hset.same hsame
      · rw [hmem]
        refine hset.withLimiter hl _ fun hsame => ?_
        have hunset : s.last (compeleteUrl prefixPath apiPath) = none := hharmless
        rw [← hsame] at hunset
        cases hunset.symm.trans hlast
  | setRateLimit prefixPath apiPath limiterType init speed =>
      intro path setting hlast
      dsimp only at hlast ⊢
      rcases memory_setRateLimit s.proxy prefixPath apiPath limiterType init speed with
        ⟨hreturns, hsame⟩ | ⟨limiters, limiter, hl, hlimiter, hset⟩
      · -- it did not return: nothing is promised for its path any more
        rw [if_neg hreturns, Function.update_apply] at hlast
        split at hlast
        · cases hlast
        · obtain ⟨hpath, hset⟩ := h path setting hlast
          exact ⟨hpath, hset.same hsame⟩
      · rw [hset, if_pos (completes_ok _ _), Function.update_apply] at hlast
        rw [hset, memory_ok]
        split at hlast
        · next hpath =>
            cases hlast
            exact ⟨hpath.symm, Setting.holds_withRate limiters limiter init speed hharmless⟩
        · next hpath =>
            obtain ⟨rfl, hold⟩ := h path setting hlast
            exact ⟨rfl, hold.withRate hl limiter init speed hpath⟩

/-- A harmless step. -/
def HarmlessStep (s : Traffic) (event : TrafficEvent) (s' : Traffic) : Prop :=
  event.Harmless s ∧ TrafficStep s event s'

/-- In every run of requests and settings whose steps are harmless, every limit
is as the last `SetRateLimit` that returned for its path left it. -/
theorem limit_holds {start : HttpReverseProxy} {events : List TrafficEvent} {s : Traffic}
    (hrun : Run HarmlessStep ⟨start, [], fun _ => none⟩ events s) : s.Holds :=
  Run.invariant (P := Traffic.Holds) (fun _ _ _ h hstep => hstep.2.holds hstep.1 h) hrun
    fun _ _ hlast => nomatch hlast

/-! ## Two first requests and a setting -/

/-- What the look-up of a request to `/api/users` leaves. -/
def usersMissed (proxy : HttpReverseProxy) : HttpReverseProxy :=
  memory (EStateM.run
    (onPrefixer (HashPrefixer.mappingPath usersRequest.path usersRequest)) proxy)

theorem usersMissed_eq (proxy : HttpReverseProxy) :
    ∃ pm, usersMissed proxy = { proxy with prefixMapping := pm } :=
  memory_onPrefixer _ proxy

/-- A new proxy with one prefix, on which two requests to `/api/users` find no
limiter. -/
theorem run_two_misses : ∃ start, start.mu = .free ∧ start.rateLimiters = some ∅ ∧
    start.rateLimiterType = ∅ ∧
    NeedsLimiterAt start true usersRequest "/api" "/users" ∧
    NeedsLimiterAt (usersMissed start) true usersRequest "/api" "/users" := by
  obtain ⟨start, proxy, p, hnew, hadd, hneeds, hp, hlimiters, hinfos⟩ := run_first_request
  cases hnew
  cases hadd
  refine ⟨_, rfl, hlimiters, hinfos, hneeds, rfl, rfl, ?_, ⟨_, _, _, rfl, rfl⟩, rfl, rfl⟩
  rfl

/-- The limiter the first of them makes. -/
theorem run_users_created {start : HttpReverseProxy} (hfree : start.mu = .free)
    (hlimiters : start.rateLimiters = some ∅) (hinfos : start.rateLimiterType = ∅)
    {proxy : HttpReverseProxy} {pm : Option HashPrefixer}
    (hproxy : proxy = { start with prefixMapping := pm }) :
    ∃ proxy' limiters, proxy'.mu = .free ∧ proxy'.rateLimiters = some limiters ∧
      limiters.lookup (compeleteUrl "/api" "/users") = some (limiterOf inf inf) ∧
      proxy'.infoCount "/api" "/users" = 1 ∧
      EStateM.run (createRateLimiter "/api" "/users" "qps" inf inf) proxy =
        .ok (.ok (limiterOf inf inf)) proxy' := by
  subst hproxy
  refine ⟨_, _, ?_, rfl, Finmap.lookup_insert _, ?_,
    run_createRateLimiter hfree hlimiters (by decide)⟩
  · exact hfree
  · rw [infoCount_withLimiter, infoCount]
    dsimp only
    rw [hinfos]
    rfl

/-- A setting of the path that has it. -/
theorem run_setRateLimit_users {proxy : HttpReverseProxy} {limiters : GoMap String QpsRateLimiter}
    (hfree : proxy.mu = .free) (hl : proxy.rateLimiters = some limiters)
    (hlimiter : limiters.lookup (compeleteUrl "/api" "/users") = some (limiterOf inf inf)) :
    EStateM.run (setRateLimit "/api" "/users" "qps" 5 10) proxy =
      .ok () (proxy.withRate limiters (limiterOf inf inf) "/api" "/users" 5 10) :=
  (run_setRateLimit hfree hl hlimiter).trans (if_neg (by decide))

theorem limit_holds_users : ∃ start s,
    Run HarmlessStep ⟨start, [], fun _ => none⟩
      [.miss true usersRequest "/api" "/users", .create "/api" "/users",
        .setRateLimit "/api" "/users" "qps" 5 10] s ∧
    s.last (compeleteUrl "/api" "/users") = some ⟨"/api", "/users", 5, 10⟩ ∧ s.Holds := by
  obtain ⟨start, hfree, hlimiters, hinfos, hneeds, -⟩ := run_two_misses
  obtain ⟨pm, hmissed⟩ := usersMissed_eq start
  obtain ⟨proxy, limiters, hfree', hl, hlimiter, hcount, hcreate⟩ :=
    run_users_created hfree hlimiters hinfos hmissed
  have hset := run_setRateLimit_users hfree' hl hlimiter
  have hmiss : TrafficStep ⟨start, [], fun _ => none⟩ (.miss true usersRequest "/api" "/users")
      ⟨usersMissed start, [("/api", "/users")], fun _ => none⟩ := .miss _ _ _ _ _ hneeds
  have hfirst := TrafficStep.create ⟨usersMissed start, [("/api", "/users")], fun _ => none⟩
    "/api" "/users" List.mem_cons_self
  have hset' := TrafficStep.setRateLimit ⟨proxy, [], fun _ => none⟩ "/api" "/users" "qps" 5 10
  dsimp only at hfirst hset'
  rw [hcreate, memory_ok] at hfirst
  rw [hset, memory_ok, if_pos (completes_ok _ _)] at hset'
  have hrun : Run HarmlessStep ⟨start, [], fun _ => none⟩
      [.miss true usersRequest "/api" "/users", .create "/api" "/users",
        .setRateLimit "/api" "/users" "qps" 5 10] _ :=
    .cons ⟨trivial, hmiss⟩ (.cons ⟨rfl, hfirst⟩ (.single ⟨hcount, hset'⟩))
  exact ⟨start, _, hrun, by simp, limit_holds hrun⟩

/-- The second of the two requests makes its limiter after the path was set:
the rate is gone and the url is recorded twice. -/
theorem limit_undone : ¬ ∀ (start : HttpReverseProxy) (events : List TrafficEvent) (s : Traffic),
    Run TrafficStep ⟨start, [], fun _ => none⟩ events s → s.Holds := by
  intro hclaim
  obtain ⟨start, hfree, hlimiters, hinfos, hneeds, hneeds'⟩ := run_two_misses
  obtain ⟨pm, hmissed⟩ := usersMissed_eq start
  obtain ⟨pm', hmissed'⟩ := usersMissed_eq (usersMissed start)
  have hproxy : usersMissed (usersMissed start) = { start with prefixMapping := pm' } := by
    rw [hmissed', hmissed]
  obtain ⟨proxy, limiters, hfree', hl, hlimiter, hcount, hcreate⟩ :=
    run_users_created hfree hlimiters hinfos hproxy
  have hset := run_setRateLimit_users hfree' hl hlimiter
  have hagain : EStateM.run (createRateLimiter "/api" "/users" "qps" inf inf)
      (proxy.withRate limiters (limiterOf inf inf) "/api" "/users" 5 10) = .ok _ _ :=
    run_createRateLimiter hfree' rfl (by decide)
  have hmisses : Run TrafficStep ⟨start, [], fun _ => none⟩
      [.miss true usersRequest "/api" "/users", .miss true usersRequest "/api" "/users"]
      ⟨usersMissed (usersMissed start), [("/api", "/users"), ("/api", "/users")],
        fun _ => none⟩ :=
    .cons (.miss _ _ _ _ _ hneeds) (.single (.miss ⟨usersMissed start, _, _⟩ _ _ _ _ hneeds'))
  have hfirst := TrafficStep.create ⟨usersMissed (usersMissed start),
    [("/api", "/users"), ("/api", "/users")], fun _ => none⟩ "/api" "/users" List.mem_cons_self
  have hset' := TrafficStep.setRateLimit
    ⟨proxy, [("/api", "/users")], fun _ => none⟩ "/api" "/users" "qps" 5 10
  have hsecond := TrafficStep.create
    ⟨proxy.withRate limiters (limiterOf inf inf) "/api" "/users" 5 10, [("/api", "/users")],
      Function.update (fun _ => none) (compeleteUrl "/api" "/users")
        (some ⟨"/api", "/users", 5, 10⟩)⟩
    "/api" "/users" List.mem_cons_self
  dsimp only at hfirst hset' hsecond
  rw [hcreate, memory_ok] at hfirst
  rw [hset, memory_ok, if_pos (completes_ok _ _)] at hset'
  rw [hagain, memory_ok] at hsecond
  obtain ⟨-, hholds⟩ := hclaim start _ _
    (hmisses.append (.cons hfirst (.cons hset' (.single hsecond)))) (compeleteUrl "/api" "/users")
    ⟨"/api", "/users", 5, 10⟩ (by simp)
  -- after the second `create` two infos are recorded
  have honce := hholds.info
  dsimp only at honce
  rw [infoCount_withLimiter, infoCount_withRate, hcount] at honce
  revert honce
  decide

end Proxy
end VermouthGateway
