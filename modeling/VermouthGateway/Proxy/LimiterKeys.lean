import VermouthGateway.Proxy.Limits
import VermouthGateway.Proxy.Routing

/-!
# The key of a limiter

`ServeHTTP` finds the limiter of a request under the prefix and the rest that
`MappingPath` cut its path into, put together again; `SetRateLimit` stores a
limit under the prefix and the rest of the operator.  The two meet when the
pieces of a request make up its path.

The root is the exception: it is left out of a key, which is right for a path
without a registered prefix, whose rest is the whole path, and loses the slash
of a path that has the root for its longest prefix.

* `governs_iff`: a stored limit governs the key it was stored under.
* `named_by_path_iff`: a request is limited under its path exactly when the
  root is not its longest registered prefix.
-/

namespace VermouthGateway
namespace Proxy

open Go Balancing
open HttpReverseProxy HashPrefixer

/-- Some `SetRateLimit` for the two texts returns. -/
def Settable (proxy : HttpReverseProxy) (prefixPath u : String) : Prop :=
  ∃ limiterType init speed,
    Completes (EStateM.run (setRateLimit prefixPath u limiterType init speed) proxy)

/-- Whatever `SetRateLimit` stores for the two texts is the limit of the key. -/
def Governs (proxy : HttpReverseProxy) (prefixPath u key : String) : Prop :=
  ∀ limiterType init speed proxy',
    EStateM.run (setRateLimit prefixPath u limiterType init speed) proxy = .ok () proxy' →
      limitOf proxy' key = some (every (second.tdiv speed), init)

theorem limitOf_withRate {proxy : HttpReverseProxy} {limiters : GoMap String QpsRateLimiter}
    (hl : proxy.rateLimiters = some limiters) (limiter : QpsRateLimiter)
    (prefixPath u : String) (init speed : Int) (key : String) :
    limitOf (proxy.withRate limiters limiter prefixPath u init speed) key =
      if key = compeleteUrl prefixPath u then some (every (second.tdiv speed), init)
      else limitOf proxy key := by
  rw [limitOf, limitOf, hl, withRate]
  dsimp only
  rw [Option.bind_some, Option.bind_some, GoMap.lookup_insert_eq]
  split <;> rfl

/-- A stored limit governs the key it was stored under and no other. -/
theorem governs_iff {proxy : HttpReverseProxy} {prefixPath u : String}
    (hsettable : Settable proxy prefixPath u) (key : String) :
    Governs proxy prefixPath u key ↔ key = compeleteUrl prefixPath u := by
  constructor
  · intro hgoverns
    by_contra hne
    obtain ⟨limiterType, init, speed, hcompletes⟩ := hsettable
    obtain ⟨hfree, -, limiters, limiter, hl, hlimiter⟩ :=
      (completes_setRateLimit_iff limiterType).mp hcompletes
    -- a burst the key does not have
    obtain ⟨burst, hburst⟩ : ∃ burst, ∀ limit, limitOf proxy key ≠ some (limit, burst) := by
      cases hkey : limitOf proxy key with
      | none => exact ⟨0, fun limit h => nomatch h⟩
      | some old =>
          refine ⟨old.2 + 1, fun limit h => ?_⟩
          have hsame : old.2 = old.2 + 1 := congrArg Prod.snd (Option.some.inj h)
          omega
    have hrun : EStateM.run (setRateLimit prefixPath u "qps" burst 1) proxy = _ :=
      run_setRateLimit hfree hl hlimiter
    rw [if_neg (by decide)] at hrun
    have hlimit := hgoverns _ _ _ _ hrun
    rw [limitOf_withRate hl, if_neg hne] at hlimit
    exact hburst _ hlimit
  · rintro rfl limiterType init speed proxy' hrun
    obtain ⟨-, -, limiters, limiter, hl, -, rfl⟩ := run_setRateLimit_ok hrun
    rw [limitOf_withRate hl, if_pos rfl]

/-- The limiter of a routed request has the path of the request for its key, and
a limit is applied to it exactly when it was stored for this path. -/
structure NamedByPath (path prefixPath apiPath : String) : Prop where
  key : compeleteUrl prefixPath apiPath = path
  governs : ∀ proxy q u, Settable proxy q u →
    (Governs proxy q u (compeleteUrl prefixPath apiPath) ↔
      path = if q = "/" then u else q ++ u)

/-- What `ServeHTTP` puts together is the path, unless the root was cut off it. -/
theorem compeleteUrl_matched {p : HashPrefixer} {path : String} {rest : List Char}
    (hpath : path.toList = '/' :: rest) :
    compeleteUrl (p.matched path).1 (p.matched path).2 = path ↔ ¬ Longest p path "/" := by
  rw [compeleteUrl]
  rcases p.matched_cases hpath with ⟨hlongest, happend⟩ | ⟨hroot, hall⟩
  · by_cases hq : (p.matched path).1 = "/"
    · rw [if_pos hq]
      rw [hq] at hlongest happend
      refine ⟨fun hsame => ?_, fun hnot => absurd hlongest hnot⟩
      -- the rest would be as long as the path it was cut from
      have hlength := congrArg String.length happend
      rw [String.length_append, hsame] at hlength
      have hone : "/".length = 1 := rfl
      omega
    · rw [if_neg hq]
      refine ⟨fun _ hslash => hq ?_, fun _ => happend⟩
      exact RoutesTo.unique (Or.inl hslash) (Or.inl hlongest)
  · rw [hroot, if_pos rfl]
    exact ⟨fun _ hslash => hall _ hslash.toCandidate, fun _ => rfl⟩

/-- A request that is routed is limited under its path exactly when the root is
not the longest registered prefix of the path. -/
theorem named_by_path_iff {p p' : HashPrefixer} {r : Utils.Request}
    {path prefixPath apiPath realPath : String} (hslash : ∃ rest, path = "/" ++ rest)
    (hrun : EStateM.run (mappingPath path r) p = .ok (.ok (prefixPath, apiPath, realPath)) p') :
    NamedByPath path prefixPath apiPath ↔ ¬ Longest p path "/" := by
  obtain ⟨rest, hpath⟩ := exists_toList hslash
  obtain ⟨hmatched, -⟩ := run_mappingPath_ok hrun
  have hkey := compeleteUrl_matched (p := p) hpath
  rw [hmatched] at hkey
  rw [← hkey]
  refine ⟨NamedByPath.key, fun hsame => ⟨hsame, fun proxy q u hsettable => ?_⟩⟩
  rw [governs_iff hsettable, hsame]
  rfl

/-- A request below the longer of two registered prefixes. -/
theorem named_by_path_below : ∃ p' realPath,
    EStateM.run (mappingPath "/api/users" ⟨"/api/users", "", fun _ => ""⟩) apiRouter =
      .ok (.ok ("/api", "/users", realPath)) p' ∧
    NamedByPath "/api/users" "/api" "/users" := by
  obtain ⟨p', hrun⟩ := run_mappingPath_apiRouter
  have hroot : "/" ∉ apiRouter.mapping := by decide
  exact ⟨p', _, hrun, (named_by_path_iff ⟨"api/users", rfl⟩ hrun).mpr
    fun hlongest => hroot hlongest.registered⟩

/-- With the root registered, the request for the root itself is limited under
the empty text. -/
theorem root_limited_under_empty :
    ¬ ∀ (p p' : HashPrefixer) (r : Utils.Request) (path prefixPath apiPath realPath : String),
      (∃ rest, path = "/" ++ rest) →
      EStateM.run (mappingPath path r) p = .ok (.ok (prefixPath, apiPath, realPath)) p' →
      NamedByPath path prefixPath apiPath := by
  intro hall
  have hnamed := hall (newHashPrefixer.add "/" typeRoundRobin ["10.0.0.1:80"]) _
    ⟨"/", "", fun _ => ""⟩ "/" "/" "" _ ⟨"", rfl⟩ rfl
  have hkey : "" = "/" := hnamed.key
  exact absurd hkey (by decide)

end Proxy
end VermouthGateway
