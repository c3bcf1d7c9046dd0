import VermouthGateway.Balancing.Turns
import VermouthGateway.Proxy.Prefixes
import VermouthGateway.Proxy.RoutingModel

/-!
# What asks a balancer

A balancer is asked by the requests that are routed behind its prefix, also by those
that the limiter refuses afterwards, and by `LoadBalance`.

* `routedBehind`: the prefix that a request is routed behind.
* `balancerOf_serveHTTP`, `balancerOf_loadBalance`: the balancer of this prefix is
  asked, and no other is touched.
* `forwarded_in_turn`: a forwarded request goes to the host that was answered.
* `ProxyCall.run_balancerOf`: which calls leave a balancer alone.
-/

namespace VermouthGateway
namespace Proxy

open Go Balancing Acl
open HttpReverseProxy

namespace HttpReverseProxy

/-- The prefix that a request is routed behind, unless it is answered before. -/
def routedBehind (peerAvailable : Bool) (r : Utils.Request) (proxy : HttpReverseProxy) :
    Option String :=
  if !proxy.available || !peerAvailable then none
  else
    match proxy.acl.accessControl (Utils.remoteIp r) with
    | .ok false => proxy.prefixMapping.map fun p => (p.matched r.path).1
    | _ => none

end HttpReverseProxy

/-- A balancer that was asked. -/
def askedWith (url : String) (r : Option Utils.Request) (b : Balancer) : Balancer :=
  memory (EStateM.run (Balancer.balance url r) b)

/-- The routers differ in one balancer at most, which has been asked. -/
theorem getBalancer_withBalancer (url : String) (r : Option Utils.Request) {β : Type}
    (f : Except BalanceError String → β) (p : HashPrefixer) (found q : String) :
    (memory (EStateM.run (HashPrefixer.withBalancer found do
        let host ← Balancer.balance url r
        pure (f host)) p)).getBalancer q =
      if q = found then (p.getBalancer q).map (askedWith url r) else p.getBalancer q := by
  rw [HashPrefixer.run_withBalancer]
  cases hb : p.getBalancer found with
  | none =>
      dsimp only
      split
      next heq =>
        subst heq
        rw [memory_error, hb]
        rfl
      · rfl
  | some b =>
      dsimp only
      rw [memory_embed, memory_run_bind_pure, HashPrefixer.getBalancer, GoMap.lookup_insert_eq]
      split
      next heq =>
        subst heq
        rw [hb]
        rfl
      · rfl

theorem getBalancer_mappingPath (r : Utils.Request) (p : HashPrefixer) (q : String) :
    (memory (EStateM.run (HashPrefixer.mappingPath r.path r) p)).getBalancer q =
      if q = (p.matched r.path).1 then (p.getBalancer q).map (askedWith "" (some r))
      else p.getBalancer q := by
  by_cases hfound : (p.matched r.path).1 ∈ p.mapping
  · rw [HashPrefixer.run_mappingPath_routed hfound]
    exact getBalancer_withBalancer _ _ _ p _ q
  · rw [HashPrefixer.run_mappingPath_unrouted hfound, memory_ok]
    split
    next heq =>
      have hnone : p.getBalancer q = none := by
        rw [heq]
        exact Finmap.lookup_eq_none.mpr hfound
      rw [hnone]
      rfl
    · rfl

section Requests

variable {proxy proxy' : HttpReverseProxy} {peerAvailable : Bool} {r : Utils.Request}
  {allow : QpsRateLimiter → Bool}

theorem prefixMapping_createRateLimiter (proxy : HttpReverseProxy)
    (prefixPath apiPath : String) :
    (memory (EStateM.run (createRateLimiter prefixPath apiPath "qps" inf inf)
      proxy)).prefixMapping = proxy.prefixMapping := by
  by_cases hfree : proxy.mu = .free
  · cases hl : proxy.rateLimiters with
    | some limiters =>
        rw [run_createRateLimiter hfree hl (by decide)]
        rfl
    | none =>
        obtain ⟨mu⟩ := proxy
        obtain rfl : mu = .free := hfree
        obtain rfl : _ = none := hl
        rfl
  · rw [createRateLimiter, run_withLock_held hfree]
    rfl

theorem prefixMapping_takeToken (proxy : HttpReverseProxy) (prefixPath apiPath : String) :
    (memory (EStateM.run (takeToken allow prefixPath apiPath) proxy)).prefixMapping =
      proxy.prefixMapping := by
  rw [memory_takeToken]
  split
  · rfl
  · exact prefixMapping_createRateLimiter proxy prefixPath apiPath

/-- A request that is answered before the router. -/
theorem memory_serveHTTP_unrouted (h : proxy.routedBehind peerAvailable r = none) :
    (memory (EStateM.run (serveHTTP peerAvailable allow r) proxy)).prefixMapping =
      proxy.prefixMapping := by
  rw [serveHTTP, EStateM.run_bind, EStateM.run_get]
  dsimp only
  rw [run_ite]
  by_cases hup : (!proxy.available || !peerAvailable) = true
  · rw [if_pos hup]
    rfl
  rw [if_neg hup, EStateM.run_bind]
  rw [routedBehind, if_neg hup] at h
  cases hacl : proxy.acl.accessControl (Utils.remoteIp r) with
  | error e => rfl
  | ok isForbidden =>
      cases isForbidden with
      | true => rfl
      | false =>
          rw [hacl, Option.map_eq_none_iff] at h
          rw [run_ofPure_ok]
          dsimp only
          rw [run_ite, if_neg (by decide), EStateM.run_bind, run_onPrefixer_none h]
          rfl

/-- The router after a request that it got. -/
theorem memory_serveHTTP_routed (allow : QpsRateLimiter → Bool) {prefixPath : String}
    (h : proxy.routedBehind peerAvailable r = some prefixPath) :
    ∃ p, proxy.prefixMapping = some p ∧ (p.matched r.path).1 = prefixPath ∧
      (memory (EStateM.run (serveHTTP peerAvailable allow r) proxy)).prefixMapping =
        some (memory (EStateM.run (HashPrefixer.mappingPath r.path r) p)) := by
  by_cases hup : (!proxy.available || !peerAvailable) = true
  · rw [routedBehind, if_pos hup] at h
    cases h
  rw [routedBehind, if_neg hup] at h
  cases hacl : proxy.acl.accessControl (Utils.remoteIp r) with
  | error e =>
      rw [hacl] at h
      cases h
  | ok isForbidden =>
      rw [hacl] at h
      cases isForbidden with
      | true => cases h
      | false =>
          obtain ⟨p, hp, hfound⟩ := Option.map_eq_some_iff.mp h
          refine ⟨p, hp, hfound, ?_⟩
          rw [serveHTTP, EStateM.run_bind, EStateM.run_get]
          dsimp only
          rw [run_ite, if_neg hup, EStateM.run_bind, hacl, run_ofPure_ok]
          dsimp only
          rw [run_ite, if_neg (by decide), EStateM.run_bind, run_onPrefixer_some hp]
          -- whatever is answered, the limiter does not touch the router
          cases EStateM.run (HashPrefixer.mappingPath r.path r) p with
          | error e p' => exact rfl
          | ok answer p' =>
              rw [embed_ok]
              cases answer with
              | error e => exact rfl
              | ok mapped =>
                  obtain ⟨q, apiPath, realPath⟩ := mapped
                  dsimp only
                  rw [run_ite]
                  split
                  · exact rfl
                  · rw [memory_run_bind_pure]
                    exact prefixMapping_takeToken _ q apiPath

/-- The balancer of the prefix is asked, and no other. -/
theorem balancerOf_serveHTTP (proxy : HttpReverseProxy) (peerAvailable : Bool)
    (allow : QpsRateLimiter → Bool) (r : Utils.Request) (q : String) :
    (memory (EStateM.run (serveHTTP peerAvailable allow r) proxy)).balancerOf q =
      if proxy.routedBehind peerAvailable r = some q then
        (proxy.balancerOf q).map (askedWith "" (some r))
      else proxy.balancerOf q := by
  cases hbehind : proxy.routedBehind peerAvailable r with
  | none => rw [if_neg (by simp), balancerOf, balancerOf, memory_serveHTTP_unrouted hbehind]
  | some prefixPath =>
      obtain ⟨p, hp, rfl, hrouter⟩ := memory_serveHTTP_routed allow hbehind
      rw [balancerOf_eq hrouter, balancerOf_eq hp, getBalancer_mappingPath]
      by_cases hq : q = (p.matched r.path).1
      · rw [if_pos hq, if_pos (congrArg some hq.symm)]
      · rw [if_neg hq, if_neg fun heq => hq (Option.some.inj heq).symm]

/-- A forwarded request goes to the host that the balancer of its prefix answered. -/
theorem forwarded_in_turn {host apiUrl : String} {port : Int}
    (hrun : EStateM.run (serveHTTP peerAvailable allow r) proxy =
      .ok (.forwarded host port apiUrl) proxy') :
    ∃ prefixPath b realHost rest, proxy.routedBehind peerAvailable r = some prefixPath ∧
      proxy.balancerOf prefixPath = some b ∧
      hostOf (EStateM.run (Balancer.balance "" (some r)) b) = some realHost ∧
      forwardToSpecficPath (realHost ++ rest) = .forwarded host port apiUrl := by
  obtain ⟨p, p', prefixPath, rest, realPath, hp, hmap, hforward⟩ := run_serveHTTP_forwarded hrun
  obtain ⟨hmatched, b, b', realHost, hb, hbalance, rfl, -⟩ := HashPrefixer.run_mappingPath_ok hmap
  refine ⟨prefixPath, b, realHost, rest, ?_, (balancerOf_eq hp prefixPath).trans hb, ?_, hforward⟩
  · cases hbehind : proxy.routedBehind peerAvailable r with
    | some found =>
        obtain ⟨p₁, hp₁, hfound, -⟩ := memory_serveHTTP_routed allow hbehind
        obtain rfl : p₁ = p := Option.some.inj (hp₁.symm.trans hp)
        rw [← hfound, hmatched]
    | none =>
        -- such a request is answered with an error, or not at all
        exfalso
        rw [routedBehind] at hbehind
        rw [serveHTTP, EStateM.run_bind, EStateM.run_get] at hrun
        dsimp only at hrun
        rw [run_ite] at hrun
        split at hbehind
        next hup =>
          rw [if_pos hup] at hrun
          cases hrun
        next hup =>
          rw [if_neg hup, EStateM.run_bind] at hrun
          cases hacl : proxy.acl.accessControl (Utils.remoteIp r) with
          | error e =>
              rw [hacl] at hrun
              cases hrun
          | ok isForbidden =>
              rw [hacl] at hbehind hrun
              cases isForbidden with
              | true => cases hrun
              | false =>
                  rw [hp] at hbehind
                  cases hbehind
  · rw [hbalance]
    rfl

/-- `LoadBalance` asks the balancer of its prefix. -/
theorem balancerOf_loadBalance {prefixPath url addr : String}
    (hrun : EStateM.run (loadBalance prefixPath url) proxy = .ok addr proxy') (q : String) :
    proxy'.balancerOf q =
      if q = prefixPath then (proxy.balancerOf q).map (askedWith url none)
      else proxy.balancerOf q := by
  cases hwriter : proxy.mu.writer with
  | true =>
      rw [loadBalance, run_withRLock_held hwriter] at hrun
      cases hrun
  | false =>
      rw [loadBalance, run_withRLock hwriter] at hrun
      obtain ⟨proxy₁, hbody, rfl⟩ := released_eq_ok hrun
      obtain ⟨p, proxy₂, hget, hbody⟩ := run_bind_ok hbody
      obtain ⟨p₁, p₂, hp, hread, rfl⟩ := run_focus_ok hget
      cases hread
      have hrouter : proxy.prefixMapping = some p := hp
      rw [balancerOf_eq hrouter]
      cases hb : p.getBalancer prefixPath with
      | none =>
          rw [hb] at hbody
          cases hbody
          rw [show HttpReverseProxy.balancerOf _ q = p.getBalancer q from rfl]
          split
          next heq =>
            rw [heq, hb]
            rfl
          · rfl
      | some b =>
          rw [hb] at hbody
          dsimp only at hbody
          obtain ⟨balanced, proxy₃, hbalance, hlast⟩ := run_bind_ok hbody
          obtain ⟨p₃, p', hp₃, hanswer, rfl⟩ := run_focus_ok hbalance
          cases hp₃
          have hasked := getBalancer_withBalancer url none id p prefixPath q
          simp only [id_eq, bind_pure] at hasked
          rw [hanswer, memory_ok] at hasked
          rw [← hasked]
          cases balanced <;> (cases hlast; rfl)

end Requests

/-! ## Calls -/

/-- The call leaves the balancer of the prefix alone. -/
def RoutingCall.LeavesBalancer (prefixPath : String) : RoutingCall → Prop
  | .removePrefix q => q ≠ prefixPath
  | .addHost q _ => q ≠ prefixPath
  | .removeHost q _ => q ≠ prefixPath
  | .changeLb q _ => q ≠ prefixPath
  | _ => True

def ProxyCall.LeavesBalancer (prefixPath : String) : ProxyCall → Prop
  | .routing call => call.LeavesBalancer prefixPath
  | _ => True

section Calls

variable {proxy proxy' : HttpReverseProxy} {prefixPath : String} {b : Balancer}

theorem balancerOf_withPrefix {p : HashPrefixer} (hp : proxy.prefixMapping = some p) {q : String}
    (algo : String) (isStatic : Bool) (b' : Balancer) (hq : q ≠ prefixPath) :
    (proxy.withPrefix p q algo isStatic b').balancerOf prefixPath = proxy.balancerOf prefixPath :=
  congrArg Row.prefixMapping
    ((row_withPrefix hp algo isStatic b' prefixPath).trans (if_neg hq.symm))

theorem balancerOf_withoutPrefix {p : HashPrefixer} (hp : proxy.prefixMapping = some p)
    {q : String} (hq : q ≠ prefixPath) :
    (proxy.withoutPrefix p q).balancerOf prefixPath = proxy.balancerOf prefixPath :=
  congrArg Row.prefixMapping ((row_withoutPrefix hp prefixPath).trans (if_neg hq.symm))

theorem balancerOf_withBalancer {p : HashPrefixer} (hp : proxy.prefixMapping = some p)
    {q : String} (b' : Balancer) (hq : q ≠ prefixPath) :
    (proxy.withBalancer p q b').balancerOf prefixPath = proxy.balancerOf prefixPath := by
  rw [balancerOf_eq hp]
  exact (balancerOf_insert rfl prefixPath).trans (if_neg hq.symm)

theorem RoutingCall.run_balancerOf (call : RoutingCall)
    (hb : proxy.balancerOf prefixPath = some b) (hleaves : call.LeavesBalancer prefixPath)
    (hrun : EStateM.run call.run proxy = .ok () proxy') :
    proxy'.balancerOf prefixPath = some b := by
  cases call with
  | addPrefix q algo hosts isStatic =>
      obtain ⟨-, p, hp, ⟨-, rfl⟩ | ⟨hnew, b', -, rfl⟩⟩ := run_addPrefix_ok hrun
      · exact hb
      · -- the prefix is routed already
        have hq : q ≠ prefixPath := by
          rintro rfl
          rw [balancerOf_eq hp] at hb
          exact hnew (Finmap.mem_iff.mpr ⟨b, hb⟩)
        rw [balancerOf_withPrefix hp algo isStatic b' hq, hb]
  | removePrefix q =>
      obtain ⟨-, p, hp, rfl⟩ := run_removePrefix_ok hrun
      rw [balancerOf_withoutPrefix hp hleaves, hb]
  | addHost q host =>
      obtain ⟨-, p, b₁, b', hp, -, -, rfl⟩ := run_updateHosts_ok hrun
      rw [balancerOf_withBalancer hp b' hleaves, hb]
  | removeHost q host =>
      obtain ⟨-, p, b₁, b', hp, -, -, rfl⟩ := run_updateHosts_ok hrun
      rw [balancerOf_withBalancer hp b' hleaves, hb]
  | changeStatic q =>
      obtain ⟨hfree, -⟩ := run_withLock_ok hrun
      rw [RoutingCall.run, run_changeStatic hfree] at hrun
      cases hrun
      exact hb
  | changeLb q lb =>
      obtain ⟨-, p, b₁, b', hp, -, -, rfl⟩ := run_changeLb_ok hrun
      rw [balancerOf_withPrefix (p := p.remove q) rfl lb _ b' hleaves,
        balancerOf_withoutPrefix hp hleaves, hb]

theorem ProxyCall.run_balancerOf (call : ProxyCall)
    (hb : proxy.balancerOf prefixPath = some b) (hleaves : call.LeavesBalancer prefixPath)
    (hrun : EStateM.run call.run proxy = .ok () proxy') :
    proxy'.balancerOf prefixPath = some b := by
  cases call with
  | routing call => exact call.run_balancerOf hb hleaves hrun
  | addBlackList ips =>
      obtain ⟨-, tree, -, rfl⟩ := run_aclLoop_ok hrun
      exact hb
  | removeBlackList ips =>
      obtain ⟨-, tree, -, rfl⟩ := run_aclLoop_ok hrun
      exact hb
  | setRateLimit q apiPath limiterType init speed =>
      obtain ⟨-, -, limiters, limiter, -, -, rfl⟩ := run_setRateLimit_ok hrun
      exact hb
  | start =>
      obtain ⟨hfree, -⟩ := run_withLock_ok hrun
      rw [ProxyCall.run, run_start hfree] at hrun
      cases hrun
      exact hb
  | stop =>
      obtain ⟨hfree, -⟩ := run_withLock_ok hrun
      rw [ProxyCall.run, run_stop hfree] at hrun
      cases hrun
      exact hb

end Calls

end Proxy
end VermouthGateway
