import VermouthGateway.Proxy.Calls

/-!
# The limiters of a proxy

`createRateLimiter` and `SetRateLimit` both take the lock of the proxy.  The
second calls the first under that lock when the path has no limiter, and then
waits for itself: `SetRateLimit` returns on paths that have a limiter only.
-/

namespace VermouthGateway
namespace Proxy

open Go Balancing Acl

theorem QpsRateLimiter.setRate_ok {r : QpsRateLimiter} {init speed : Int} (h : speed ≠ 0) :
    r.setRate init speed =
      .ok { r with limit := every (second.tdiv speed), burst := init } := by
  rw [setRate, if_neg h]

namespace HttpReverseProxy

variable {proxy proxy' : HttpReverseProxy} {prefixPath apiPath : String} {init speed : Int}

/-- A limiter with the given rate. -/
def limiterOf (init speed : Int) : QpsRateLimiter :=
  { newQpsRateLimiter with limit := every (second.tdiv speed), burst := init }

/-- The proxy with one more limiter and its recorded info. -/
def withLimiter (proxy : HttpReverseProxy) (limiters : GoMap String QpsRateLimiter)
    (prefixPath : String) (info : LimiterInfo) : HttpReverseProxy :=
  { proxy with
    rateLimiters := some
      (limiters.insert (compeleteUrl prefixPath info.url) (limiterOf info.init info.speed))
    rateLimiterType := proxy.rateLimiterType.insert prefixPath
      (proxy.rateLimiterType.get prefixPath [] ++ [info]) }

theorem run_createRateLimiter {limiters : GoMap String QpsRateLimiter}
    (h : proxy.mu = .free) (hl : proxy.rateLimiters = some limiters) (hspeed : speed ≠ 0) :
    EStateM.run (createRateLimiter prefixPath apiPath "qps" init speed) proxy =
      .ok (.ok (limiterOf init speed))
        (proxy.withLimiter limiters prefixPath ⟨apiPath, "qps", init, speed⟩) := by
  obtain ⟨mu⟩ := proxy
  obtain rfl : mu = .free := h
  obtain rfl : _ = some limiters := hl
  rw [createRateLimiter, run_withLock_free rfl, buildRateLimiter, if_pos rfl]
  dsimp only
  rw [EStateM.run_bind, EStateM.run_get]
  dsimp only [locked, HasMutex.setMutex]
  rw [EStateM.run_bind, EStateM.run_set]
  dsimp only
  rw [EStateM.run_bind, QpsRateLimiter.setRate_ok hspeed, run_ofPure_ok]
  dsimp only
  rw [EStateM.run_bind, run_modify]
  dsimp only
  rw [EStateM.run_pure, Option.map_some, Finmap.insert_insert]
  rfl

/-- An unknown type is an error value, and nothing is recorded. -/
theorem run_createRateLimiter_unsupported {limiterType : String} (h : proxy.mu = .free)
    (htype : limiterType ≠ "qps") :
    EStateM.run (createRateLimiter prefixPath apiPath limiterType init speed) proxy =
      .ok (.error .limiterTypeNotSupported) proxy := by
  obtain ⟨mu⟩ := proxy
  obtain rfl : mu = .free := h
  rw [createRateLimiter, run_withLock_free rfl, buildRateLimiter, if_neg htype]
  rfl

/-- Asked for under the lock, `createRateLimiter` waits for ever. -/
theorem run_createRateLimiter_locked {limiterType : String} :
    EStateM.run (createRateLimiter prefixPath apiPath limiterType init speed) (locked proxy) =
      .error .blocked (locked proxy) := by
  rw [createRateLimiter, run_withLock_held (by simp [locked, RWMutex.free])]

theorem run_createRateLimiter_zero {limiters : GoMap String QpsRateLimiter}
    (h : proxy.mu = .free) (hl : proxy.rateLimiters = some limiters) :
    ¬ Completes (EStateM.run (createRateLimiter prefixPath apiPath "qps" init 0) proxy) := by
  obtain ⟨mu⟩ := proxy
  obtain rfl : mu = .free := h
  obtain rfl : _ = some limiters := hl
  rw [createRateLimiter, run_withLock_free rfl, buildRateLimiter, if_pos rfl,
    completes_released]
  dsimp only
  rw [EStateM.run_bind, EStateM.run_get]
  dsimp only [locked, HasMutex.setMutex]
  rw [EStateM.run_bind, EStateM.run_set]
  dsimp only
  rw [EStateM.run_bind, QpsRateLimiter.setRate, if_pos rfl, run_ofPure_error]
  exact not_completes_error _ _

/-- `createRateLimiter` on a proxy whose limiters are there: what it returns
with, and what it leaves. -/
theorem run_createRateLimiter_ok {limiterType : String}
    {answer : Except RateError QpsRateLimiter} {limiters : GoMap String QpsRateLimiter}
    (hl : proxy.rateLimiters = some limiters)
    (hrun : EStateM.run (createRateLimiter prefixPath apiPath limiterType init speed) proxy =
      .ok answer proxy') :
    proxy.mu = .free ∧
      ((limiterType ≠ "qps" ∧ proxy' = proxy) ∨
        (limiterType = "qps" ∧ speed ≠ 0 ∧
          proxy' = proxy.withLimiter limiters prefixPath ⟨apiPath, "qps", init, speed⟩)) := by
  obtain ⟨h, -⟩ := run_withLock_ok hrun
  refine ⟨h, ?_⟩
  by_cases htype : limiterType = "qps"
  · subst htype
    by_cases hspeed : speed = 0
    · subst hspeed
      exact absurd (by rw [hrun]; trivial) (run_createRateLimiter_zero h hl)
    · rw [run_createRateLimiter h hl hspeed] at hrun
      cases hrun
      exact Or.inr ⟨rfl, hspeed, rfl⟩
  · rw [run_createRateLimiter_unsupported h htype] at hrun
    cases hrun
    exact Or.inl ⟨htype, rfl⟩

/-- The proxy after `SetRateLimit` on a path with a limiter. -/
def withRate (proxy : HttpReverseProxy) (limiters : GoMap String QpsRateLimiter)
    (limiter : QpsRateLimiter) (prefixPath apiPath : String) (init speed : Int) :
    HttpReverseProxy :=
  { proxy with
    rateLimiters := some (limiters.insert (compeleteUrl prefixPath apiPath)
      { limiter with limit := every (second.tdiv speed), burst := init })
    rateLimiterType := setInfos proxy.rateLimiterType prefixPath apiPath init speed }

theorem run_setRateLimit {limiterType : String} {limiters : GoMap String QpsRateLimiter}
    {limiter : QpsRateLimiter} (h : proxy.mu = .free)
    (hl : proxy.rateLimiters = some limiters)
    (hlimiter : limiters.lookup (compeleteUrl prefixPath apiPath) = some limiter) :
    EStateM.run (setRateLimit prefixPath apiPath limiterType init speed) proxy =
      if speed = 0 then .error (.panic .divideByZero)
        { proxy with
          rateLimiterType := setInfos proxy.rateLimiterType prefixPath apiPath init speed }
      else .ok () (proxy.withRate limiters limiter prefixPath apiPath init speed) := by
  obtain ⟨mu⟩ := proxy
  obtain rfl : mu = .free := h
  obtain rfl : _ = some limiters := hl
  rw [setRateLimit, run_withLock_free rfl, EStateM.run_bind, EStateM.run_get]
  dsimp only [locked, HasMutex.setMutex]
  rw [Option.bind_some, hlimiter]
  dsimp only
  rw [EStateM.run_bind, run_modify]
  dsimp only
  rw [EStateM.run_bind, QpsRateLimiter.setRate]
  by_cases hspeed : speed = 0
  · rw [if_pos hspeed, if_pos hspeed]
    rfl
  · rw [if_neg hspeed, if_neg hspeed]
    rfl

/-- On a path without a limiter `SetRateLimit` waits for the lock it holds. -/
theorem run_setRateLimit_missing {limiterType : String} (h : proxy.mu = .free)
    (hnone : (proxy.rateLimiters.bind fun limiters =>
      limiters.lookup (compeleteUrl prefixPath apiPath)) = none) :
    EStateM.run (setRateLimit prefixPath apiPath limiterType init speed) proxy =
      .error .blocked (locked proxy) := by
  rw [setRateLimit, run_withLock_free h, EStateM.run_bind, EStateM.run_get]
  have hnone' : ((locked proxy).rateLimiters.bind fun limiters =>
      limiters.lookup (compeleteUrl prefixPath apiPath)) = none := hnone
  dsimp only
  rw [hnone']
  dsimp only
  rw [EStateM.run_bind, run_createRateLimiter_locked]
  rfl

/-- `SetRateLimit` returns only on a path that has a limiter, and divides by
the speed. -/
theorem completes_setRateLimit_iff (limiterType : String) :
    Completes (EStateM.run (setRateLimit prefixPath apiPath limiterType init speed) proxy) ↔
      proxy.mu = .free ∧ speed ≠ 0 ∧ ∃ limiters limiter, proxy.rateLimiters = some limiters ∧
        limiters.lookup (compeleteUrl prefixPath apiPath) = some limiter := by
  by_cases h : proxy.mu = .free
  · cases hbind : proxy.rateLimiters.bind fun limiters =>
        limiters.lookup (compeleteUrl prefixPath apiPath) with
    | none =>
        rw [run_setRateLimit_missing h hbind]
        refine ⟨fun hc => absurd hc (not_completes_error _ _), ?_⟩
        rintro ⟨-, -, limiters, limiter, hl, hlimiter⟩
        rw [hl, Option.bind_some, hlimiter] at hbind
        cases hbind
    | some limiter =>
        obtain ⟨limiters, hl, hlimiter⟩ := Option.bind_eq_some_iff.mp hbind
        rw [run_setRateLimit h hl hlimiter]
        by_cases hspeed : speed = 0
        · simp [hspeed]
        · simp [h, hspeed, hl, hlimiter]
  · rw [setRateLimit, run_withLock_held h]
    simp [h]

theorem run_setRateLimit_ok {limiterType : String}
    (hrun : EStateM.run (setRateLimit prefixPath apiPath limiterType init speed) proxy =
      .ok () proxy') :
    proxy.mu = .free ∧ speed ≠ 0 ∧ ∃ limiters limiter, proxy.rateLimiters = some limiters ∧
      limiters.lookup (compeleteUrl prefixPath apiPath) = some limiter ∧
      proxy' = proxy.withRate limiters limiter prefixPath apiPath init speed := by
  obtain ⟨h, hspeed, limiters, limiter, hl, hlimiter⟩ :=
    (completes_setRateLimit_iff limiterType).mp (by rw [hrun]; trivial)
  rw [run_setRateLimit h hl hlimiter, if_neg hspeed] at hrun
  cases hrun
  exact ⟨h, hspeed, limiters, limiter, hl, hlimiter, rfl⟩

/-! ## Changing the balancer -/

theorem run_changeLb {p : HashPrefixer} {b : Balancer} (h : proxy.mu = .free)
    (hp : proxy.prefixMapping = some p) (hb : p.getBalancer prefixPath = some b)
    (lb : String) :
    EStateM.run (changeLb prefixPath lb) proxy =
      EStateM.run (addPrefix prefixPath lb b.hosts (proxy.staticMapping.get prefixPath false))
        (proxy.withoutPrefix p prefixPath) := by
  rw [changeLb, EStateM.run_bind, run_getBalancer hp, hb]
  dsimp only
  rw [EStateM.run_bind, EStateM.run_get]
  dsimp only
  rw [EStateM.run_bind, run_removePrefix h hp]

theorem notMem_remove (p : HashPrefixer) (prefixPath : String) :
    prefixPath ∉ (p.remove prefixPath).mapping :=
  Finmap.notMem_erase_self

theorem completes_changeLb_iff (lb : String) :
    Completes (EStateM.run (changeLb prefixPath lb) proxy) ↔
      proxy.mu = .free ∧ Supported lb ∧ ∃ p, proxy.prefixMapping = some p ∧
        prefixPath ∈ p.mapping := by
  cases hp : proxy.prefixMapping with
  | none =>
      rw [changeLb, EStateM.run_bind, getBalancer, run_onPrefixer_none hp]
      simp
  | some p =>
      cases hb : p.getBalancer prefixPath with
      | none =>
          rw [changeLb, EStateM.run_bind, run_getBalancer hp, hb]
          have hnot : prefixPath ∉ p.mapping := Finmap.lookup_eq_none.mp hb
          simp [hnot]
      | some b =>
          have hmem : prefixPath ∈ p.mapping := Finmap.mem_iff.mpr ⟨b, hb⟩
          by_cases h : proxy.mu = .free
          · rw [run_changeLb h hp hb, completes_addPrefix_iff]
            have hmu : (proxy.withoutPrefix p prefixPath).mu = .free := h
            have hrouter : (proxy.withoutPrefix p prefixPath).prefixMapping =
                some (p.remove prefixPath) := rfl
            simp [hmu, hrouter, h, hmem, notMem_remove]
          · rw [changeLb, EStateM.run_bind, run_getBalancer hp, hb]
            dsimp only
            rw [EStateM.run_bind, EStateM.run_get]
            dsimp only
            rw [EStateM.run_bind, removePrefix, run_withLock_held h]
            simp [h]

theorem run_changeLb_ok {lb : String}
    (hrun : EStateM.run (changeLb prefixPath lb) proxy = .ok () proxy') :
    proxy.mu = .free ∧ ∃ p b b', proxy.prefixMapping = some p ∧
      p.getBalancer prefixPath = some b ∧ build lb b.hosts = .ok b' ∧
      proxy' = (proxy.withoutPrefix p prefixPath).withPrefix (p.remove prefixPath) prefixPath lb
        (proxy.staticMapping.get prefixPath false) b' := by
  obtain ⟨h, -, p, hp, hmem⟩ := (completes_changeLb_iff lb).mp (by rw [hrun]; trivial)
  obtain ⟨b, hb⟩ := Finmap.mem_iff.mp hmem
  rw [run_changeLb h hp hb] at hrun
  obtain ⟨-, p', hp', hcases⟩ := run_addPrefix_ok hrun
  obtain rfl : p.remove prefixPath = p' := Option.some.inj hp'
  rcases hcases with ⟨hold, -⟩ | ⟨-, b', hbuild, rfl⟩
  · exact absurd hold (notMem_remove p prefixPath)
  · exact ⟨h, p, b, b', hp, hb, hbuild, rfl⟩

end HttpReverseProxy
end Proxy
end VermouthGateway
