import VermouthGateway.Proxy.Sound

/-!
# Two proxies with the same routes

The counters and locks behind the router of a proxy depend on the requests it
answered; its routes, its tables, its limiters and its black list do not.  Two
proxies that differ in the former only (`SameRoutes`) stay so under every
method that returns on both.

* `SameRoutes.router`: what the routers of such proxies share.
* `ProxyCall.run_agree`: one method, run on both.
-/

namespace VermouthGateway
namespace Proxy

open Go Balancing Acl

namespace HttpReverseProxy
namespace SameRoutes

variable {left right : HttpReverseProxy} {p q : HashPrefixer} {prefixPath : String}

theorem symm (h : SameRoutes left right) : SameRoutes right left := by
  obtain ⟨pm, rfl, hroutes⟩ := h
  exact ⟨left.prefixMapping, rfl, hroutes.symm⟩

theorem trans {last : HttpReverseProxy} (h : SameRoutes left right)
    (h' : SameRoutes right last) : SameRoutes left last := by
  obtain ⟨pm, rfl, hroutes⟩ := h
  obtain ⟨pm', rfl, hroutes'⟩ := h'
  exact ⟨pm', rfl, hroutes'.trans hroutes⟩

theorem router (h : SameRoutes left right) (hp : left.prefixMapping = some p)
    (hq : right.prefixMapping = some q) :
    q.routes = p.routes ∧ right = { left with prefixMapping := some q } := by
  obtain ⟨pm, rfl, hroutes⟩ := h
  obtain rfl : pm = some q := hq
  rw [hp] at hroutes
  exact ⟨Option.some.inj hroutes, rfl⟩

theorem mem_iff (hroutes : q.routes = p.routes) (prefixPath : String) :
    prefixPath ∈ q.mapping ↔ prefixPath ∈ p.mapping := by
  rw [← HashPrefixer.mem_routes, ← HashPrefixer.mem_routes, hroutes]

theorem view_eq (hroutes : q.routes = p.routes) {b c : Balancer}
    (hb : p.getBalancer prefixPath = some b) (hc : q.getBalancer prefixPath = some c) :
    c.view = b.view := by
  have hlookup := lookup_routes_of_balancer hc
  rw [hroutes, lookup_routes_of_balancer hb] at hlookup
  exact (Option.some.inj hlookup).symm

/-- The same balancer on one more prefix. -/
theorem withPrefix (h : SameRoutes left right) (hp : left.prefixMapping = some p)
    (hq : right.prefixMapping = some q) (algo : String) (isStatic : Bool) (b : Balancer) :
    SameRoutes (left.withPrefix p prefixPath algo isStatic b)
      (right.withPrefix q prefixPath algo isStatic b) := by
  obtain ⟨hroutes, rfl⟩ := h.router hp hq
  refine ⟨some ⟨q.mapping.insert prefixPath b⟩, rfl, ?_⟩
  show some (HashPrefixer.routes _) = some (HashPrefixer.routes _)
  rw [HashPrefixer.routes_insert, HashPrefixer.routes_insert, hroutes]

theorem withoutPrefix (h : SameRoutes left right) (hp : left.prefixMapping = some p)
    (hq : right.prefixMapping = some q) :
    SameRoutes (left.withoutPrefix p prefixPath) (right.withoutPrefix q prefixPath) := by
  obtain ⟨hroutes, rfl⟩ := h.router hp hq
  refine ⟨some (q.remove prefixPath), rfl, ?_⟩
  show some (HashPrefixer.routes _) = some (HashPrefixer.routes _)
  rw [HashPrefixer.routes_remove, HashPrefixer.routes_remove, hroutes]

/-- Balancers of one view on a prefix. -/
theorem withBalancer (h : SameRoutes left right) (hp : left.prefixMapping = some p)
    (hq : right.prefixMapping = some q) {b c : Balancer} (hview : c.view = b.view) :
    SameRoutes (left.withBalancer p prefixPath b) (right.withBalancer q prefixPath c) := by
  obtain ⟨hroutes, rfl⟩ := h.router hp hq
  have hhosts : c.hosts = b.hosts := congrArg View.hosts hview
  refine ⟨some ⟨q.mapping.insert prefixPath c⟩, ?_, ?_⟩
  · rw [HttpReverseProxy.withBalancer, HttpReverseProxy.withBalancer, hhosts]
  · show some (HashPrefixer.routes _) = some (HashPrefixer.routes _)
    rw [HashPrefixer.routes_insert, HashPrefixer.routes_insert, hroutes, hview]

end SameRoutes
end HttpReverseProxy

open HttpReverseProxy

variable {left left' right right' : HttpReverseProxy}

theorem RoutingCall.run_agree (call : RoutingCall) (h : SameRoutes left right)
    (hleft : EStateM.run call.run left = .ok () left')
    (hright : EStateM.run call.run right = .ok () right') : SameRoutes left' right' := by
  cases call with
  | addPrefix prefixPath algo hosts isStatic =>
      obtain ⟨-, p, hp, hcases⟩ := run_addPrefix_ok hleft
      obtain ⟨-, q, hq, hcases'⟩ := run_addPrefix_ok hright
      -- both proxies route the prefix or neither does, so they take the same branch
      have hmem := SameRoutes.mem_iff (h.router hp hq).1 prefixPath
      rcases hcases with ⟨hold, rfl⟩ | ⟨hnew, b, hbuild, rfl⟩
      · rcases hcases' with ⟨-, rfl⟩ | ⟨hnew, -⟩
        · exact h
        · exact absurd (hmem.mpr hold) hnew
      · rcases hcases' with ⟨hold, -⟩ | ⟨-, c, hbuild', rfl⟩
        · exact absurd (hmem.mp hold) hnew
        · rw [hbuild] at hbuild'
          cases hbuild'
          exact h.withPrefix hp hq algo isStatic b
  | removePrefix prefixPath =>
      obtain ⟨-, p, hp, rfl⟩ := run_removePrefix_ok hleft
      obtain ⟨-, q, hq, rfl⟩ := run_removePrefix_ok hright
      exact h.withoutPrefix hp hq
  | addHost prefixPath host =>
      obtain ⟨-, p, b, b', hp, hb, hbody, rfl⟩ := run_updateHosts_ok hleft
      obtain ⟨-, q, c, c', hq, hc, hbody', rfl⟩ := run_updateHosts_ok hright
      refine h.withBalancer hp hq ?_
      rw [Balancer.run_add_view hbody, Balancer.run_add_view hbody',
        SameRoutes.view_eq (h.router hp hq).1 hb hc]
  | removeHost prefixPath host =>
      obtain ⟨-, p, b, b', hp, hb, hbody, rfl⟩ := run_updateHosts_ok hleft
      obtain ⟨-, q, c, c', hq, hc, hbody', rfl⟩ := run_updateHosts_ok hright
      refine h.withBalancer hp hq ?_
      rw [Balancer.run_remove_view hbody, Balancer.run_remove_view hbody',
        SameRoutes.view_eq (h.router hp hq).1 hb hc]
  | changeStatic prefixPath =>
      obtain ⟨hfree, -⟩ := run_withLock_ok hleft
      obtain ⟨hfree', -⟩ := run_withLock_ok hright
      rw [RoutingCall.run, run_changeStatic hfree] at hleft
      rw [RoutingCall.run, run_changeStatic hfree'] at hright
      cases hleft
      cases hright
      obtain ⟨pm, rfl, hroutes⟩ := h
      exact ⟨pm, rfl, hroutes⟩
  | changeLb prefixPath lb =>
      obtain ⟨-, p, b, b', hp, hb, hbuild, rfl⟩ := run_changeLb_ok hleft
      obtain ⟨-, q, c, c', hq, hc, hbuild', rfl⟩ := run_changeLb_ok hright
      have hroutes := (h.router hp hq).1
      have hhosts : c.hosts = b.hosts :=
        congrArg View.hosts (SameRoutes.view_eq hroutes hb hc)
      rw [hhosts, hbuild] at hbuild'
      cases hbuild'
      have hstatic : right.staticMapping = left.staticMapping := by
        rw [(h.router hp hq).2]
      rw [hstatic]
      exact (h.withoutPrefix hp hq).withPrefix rfl rfl lb _ b'

/-- A method that returns on two proxies with the same routes leaves them with
the same routes. -/
theorem ProxyCall.run_agree (call : ProxyCall) (h : SameRoutes left right)
    (hleft : EStateM.run call.run left = .ok () left')
    (hright : EStateM.run call.run right = .ok () right') : SameRoutes left' right' := by
  cases call with
  | routing call => exact call.run_agree h hleft hright
  | addBlackList ips =>
      obtain ⟨-, tree, htree, rfl⟩ := run_aclLoop_ok hleft
      obtain ⟨-, tree', htree', rfl⟩ := run_aclLoop_ok hright
      obtain ⟨pm, rfl, hroutes⟩ := h
      rw [htree] at htree'
      cases htree'
      exact ⟨pm, rfl, hroutes⟩
  | removeBlackList ips =>
      obtain ⟨-, tree, htree, rfl⟩ := run_aclLoop_ok hleft
      obtain ⟨-, tree', htree', rfl⟩ := run_aclLoop_ok hright
      obtain ⟨pm, rfl, hroutes⟩ := h
      rw [htree] at htree'
      cases htree'
      exact ⟨pm, rfl, hroutes⟩
  | setRateLimit prefixPath apiPath limiterType init speed =>
      obtain ⟨-, -, limiters, limiter, hl, hlimiter, rfl⟩ := run_setRateLimit_ok hleft
      obtain ⟨-, -, limiters', limiter', hl', hlimiter', rfl⟩ := run_setRateLimit_ok hright
      obtain ⟨pm, rfl, hroutes⟩ := h
      -- the limiters are the same on both, only the routers differ
      obtain rfl : limiters = limiters' := Option.some.inj (hl.symm.trans hl')
      obtain rfl : limiter = limiter' := Option.some.inj (hlimiter.symm.trans hlimiter')
      exact ⟨pm, rfl, hroutes⟩
  | start =>
      obtain ⟨hfree, -⟩ := run_withLock_ok hleft
      obtain ⟨hfree', -⟩ := run_withLock_ok hright
      rw [ProxyCall.run, run_start hfree] at hleft
      rw [ProxyCall.run, run_start hfree'] at hright
      cases hleft
      cases hright
      obtain ⟨pm, rfl, hroutes⟩ := h
      exact ⟨pm, rfl, hroutes⟩
  | stop =>
      obtain ⟨hfree, -⟩ := run_withLock_ok hleft
      obtain ⟨hfree', -⟩ := run_withLock_ok hright
      rw [ProxyCall.run, run_stop hfree] at hleft
      rw [ProxyCall.run, run_stop hfree'] at hright
      cases hleft
      cases hright
      obtain ⟨pm, rfl, hroutes⟩ := h
      exact ⟨pm, rfl, hroutes⟩

end Proxy
end VermouthGateway
