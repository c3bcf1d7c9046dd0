import VermouthGateway.Proxy.Limiters

/-!
# What a request changes

`ServeHTTP` writes to the state of a proxy in two places: the balancer that
answers keeps a counter or loses a read lock, and a path without a limiter gets
one.

* `NeedsLimiter` says when a request makes a limiter.
* `memory_serveHTTP`: a request changes the router, never the routes, and then
  makes the limiter it needs.
* `serveHTTP_frame`: a request that needs none changes the router only.
-/

namespace VermouthGateway
namespace Proxy

open Go Balancing Acl

namespace HttpReverseProxy

variable {proxy : HttpReverseProxy}

/-- The request is forwarded on a path that is not static and has no limiter. -/
def NeedsLimiterAt (proxy : HttpReverseProxy) (peerAvailable : Bool) (r : Utils.Request)
    (prefixPath apiPath : String) : Prop :=
  proxy.available = true ∧ peerAvailable = true ∧
  proxy.acl.accessControl (Utils.remoteIp r) = .ok false ∧
  (∃ p p' realPath, proxy.prefixMapping = some p ∧
    EStateM.run (HashPrefixer.mappingPath r.path r) p =
      .ok (.ok (prefixPath, apiPath, realPath)) p') ∧
  proxy.isStaticResource prefixPath = false ∧
  (proxy.rateLimiters.bind fun limiters =>
    limiters.lookup (compeleteUrl prefixPath apiPath)) = none

def NeedsLimiter (proxy : HttpReverseProxy) (peerAvailable : Bool) (r : Utils.Request) : Prop :=
  ∃ prefixPath apiPath, NeedsLimiterAt proxy peerAvailable r prefixPath apiPath

/-- A proxy that differs in the counters and locks of its balancers only. -/
def SameRoutes (proxy proxy' : HttpReverseProxy) : Prop :=
  ∃ pm, proxy' = { proxy with prefixMapping := pm } ∧
    pm.map HashPrefixer.routes = proxy.prefixMapping.map HashPrefixer.routes

theorem SameRoutes.refl (proxy : HttpReverseProxy) : SameRoutes proxy proxy :=
  ⟨proxy.prefixMapping, rfl, rfl⟩

/-- What `ServeHTTP` does after the router answered. -/
theorem memory_takeToken {prefixPath apiPath : String} (allow : QpsRateLimiter → Bool)
    (proxy : HttpReverseProxy) :
    memory (EStateM.run (takeToken allow prefixPath apiPath) proxy) =
      match proxy.rateLimiters.bind fun limiters =>
          limiters.lookup (compeleteUrl prefixPath apiPath) with
      | some _ => proxy
      | none =>
          memory (EStateM.run (createRateLimiter prefixPath apiPath "qps" inf inf) proxy) := by
  rw [takeToken, EStateM.run_bind, EStateM.run_get]
  dsimp only
  cases proxy.rateLimiters.bind fun limiters =>
      limiters.lookup (compeleteUrl prefixPath apiPath) with
  | some limiter => rfl
  | none =>
      dsimp only
      rw [EStateM.run_bind]
      cases EStateM.run (createRateLimiter prefixPath apiPath "qps" inf inf) proxy with
      | error e proxy₁ => rfl
      | ok answer proxy₁ => cases answer <;> rfl

/-- A request changes the router only, or makes the limiter it needs. -/
theorem memory_serveHTTP (peerAvailable : Bool) (allow : QpsRateLimiter → Bool)
    (r : Utils.Request) (proxy : HttpReverseProxy) :
    ∃ proxy₁, SameRoutes proxy proxy₁ ∧
      (memory (EStateM.run (serveHTTP peerAvailable allow r) proxy) = proxy₁ ∨
        ∃ prefixPath apiPath, NeedsLimiterAt proxy peerAvailable r prefixPath apiPath ∧
          memory (EStateM.run (serveHTTP peerAvailable allow r) proxy) =
            memory (EStateM.run (createRateLimiter prefixPath apiPath "qps" inf inf) proxy₁)) := by
  rw [serveHTTP, EStateM.run_bind, EStateM.run_get]
  dsimp only
  rw [run_ite]
  -- answered before the router is asked: nothing changes
  by_cases hup : (!proxy.available || !peerAvailable) = true
  · rw [if_pos hup]
    exact ⟨proxy, SameRoutes.refl proxy, Or.inl rfl⟩
  rw [if_neg hup, EStateM.run_bind]
  cases hacl : proxy.acl.accessControl (Utils.remoteIp r) with
  | error e => exact ⟨proxy, SameRoutes.refl proxy, Or.inl rfl⟩
  | ok isForbidden =>
  cases isForbidden with
  | true => exact ⟨proxy, SameRoutes.refl proxy, Or.inl rfl⟩
  | false =>
  rw [run_ofPure_ok]
  dsimp only
  rw [run_ite, if_neg (by decide), EStateM.run_bind]
  cases hp : proxy.prefixMapping with
  | none =>
      rw [run_onPrefixer_none hp]
      exact ⟨proxy, SameRoutes.refl proxy, Or.inl rfl⟩
  | some p =>
  rw [run_onPrefixer_some hp]
  -- from here on only the state of a balancer may have moved
  have hroutes := HashPrefixer.memory_mappingPath_routes r.path r p
  cases hmap : EStateM.run (HashPrefixer.mappingPath r.path r) p with
  | error e p' =>
      rw [hmap] at hroutes
      refine ⟨{ proxy with prefixMapping := some p' }, ⟨some p', rfl, ?_⟩, Or.inl rfl⟩
      rw [hp]
      exact congrArg some hroutes
  | ok answer p' =>
  rw [hmap] at hroutes
  have hsame : SameRoutes proxy { proxy with prefixMapping := some p' } := by
    refine ⟨some p', rfl, ?_⟩
    rw [hp]
    exact congrArg some hroutes
  refine ⟨{ proxy with prefixMapping := some p' }, hsame, ?_⟩
  rw [embed_ok]
  cases answer with
  | error e => exact Or.inl rfl
  | ok mapped =>
  obtain ⟨prefixPath, apiPath, realPath⟩ := mapped
  dsimp only
  rw [run_ite]
  by_cases hstatic : proxy.isStaticResource prefixPath = true
  · rw [if_pos hstatic]
    exact Or.inl rfl
  rw [if_neg hstatic, memory_run_bind_pure, memory_takeToken]
  dsimp only
  cases hlimiter : proxy.rateLimiters.bind fun limiters =>
      limiters.lookup (compeleteUrl prefixPath apiPath) with
  | some limiter => exact Or.inl rfl
  | none =>
      -- all checks are passed and the path has no limiter
      simp only [Bool.or_eq_true, Bool.not_eq_true', not_or, Bool.not_eq_false] at hup
      exact Or.inr ⟨prefixPath, apiPath,
        ⟨hup.1, hup.2, hacl, ⟨p, p', realPath, hp, hmap⟩, Bool.eq_false_of_not_eq_true hstatic,
          hlimiter⟩, rfl⟩

/-- A request that needs a limiter makes it. -/
theorem memory_serveHTTP_of_needs {peerAvailable : Bool} {r : Utils.Request}
    {prefixPath apiPath : String} (allow : QpsRateLimiter → Bool)
    (hneeds : NeedsLimiterAt proxy peerAvailable r prefixPath apiPath) :
    ∃ proxy₁, SameRoutes proxy proxy₁ ∧
      memory (EStateM.run (serveHTTP peerAvailable allow r) proxy) =
        memory (EStateM.run (createRateLimiter prefixPath apiPath "qps" inf inf) proxy₁) := by
  obtain ⟨havailable, hpeer, hacl, ⟨p, p', realPath, hp, hmap⟩, hstatic, hnone⟩ := hneeds
  have hroutes := HashPrefixer.memory_mappingPath_routes r.path r p
  rw [hmap] at hroutes
  refine ⟨{ proxy with prefixMapping := some p' }, ⟨some p', rfl, ?_⟩, ?_⟩
  · rw [hp]
    exact congrArg some hroutes
  rw [serveHTTP, EStateM.run_bind, EStateM.run_get]
  dsimp only
  rw [run_ite, if_neg (by rw [havailable, hpeer]; decide), EStateM.run_bind, hacl, run_ofPure_ok]
  dsimp only
  rw [run_ite, if_neg (by decide), EStateM.run_bind, run_onPrefixer_some hp, hmap, embed_ok]
  dsimp only
  rw [run_ite, if_neg (by rw [hstatic]; decide), memory_run_bind_pure, memory_takeToken]
  dsimp only
  rw [hnone]

/-- A request on a path that has its limiter changes the router only. -/
theorem serveHTTP_frame {peerAvailable : Bool} {r : Utils.Request}
    (allow : QpsRateLimiter → Bool) (hneeds : ¬ NeedsLimiter proxy peerAvailable r) :
    SameRoutes proxy (memory (EStateM.run (serveHTTP peerAvailable allow r) proxy)) := by
  obtain ⟨proxy₁, hsame, hmem | ⟨prefixPath, apiPath, hat, -⟩⟩ :=
    memory_serveHTTP peerAvailable allow r proxy
  · rw [hmem]
    exact hsame
  · exact absurd ⟨prefixPath, apiPath, hat⟩ hneeds

end HttpReverseProxy
end Proxy
end VermouthGateway
