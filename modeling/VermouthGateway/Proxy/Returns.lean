import VermouthGateway.Proxy.Sound

/-!
# When a method returns

On a sound proxy the lock is free and nothing is nil, so whether a method
returns depends on its arguments, the router, the limiters and the black list
only.  `Ready` is that condition.

* `RoutingCall.completes_iff`: it is exact for the routing calls.
* `ProxyCall.completes_of_ready`, `ProxyCall.completes_iff`: the other methods;
  for the removal of black-listed networks the condition is enough.
-/

namespace VermouthGateway
namespace Proxy

open Go Balancing Acl
open HttpReverseProxy

/-- The balancer of a prefix. -/
def HttpReverseProxy.balancerOf (proxy : HttpReverseProxy) (prefixPath : String) :
    Option Balancer :=
  proxy.prefixMapping.bind fun p => p.getBalancer prefixPath

theorem HttpReverseProxy.balancerOf_eq {proxy : HttpReverseProxy} {p : HashPrefixer}
    (hp : proxy.prefixMapping = some p) (prefixPath : String) :
    proxy.balancerOf prefixPath = p.getBalancer prefixPath := by
  rw [balancerOf, hp, Option.bind_some]

/-- What a routing call needs. -/
def RoutingCall.Ready (proxy : HttpReverseProxy) : RoutingCall → Prop
  | .addPrefix prefixPath algo _ _ => (proxy.balancerOf prefixPath).isSome ∨ Supported algo
  | .removePrefix _ => True
  | .addHost prefixPath _ => ∃ b, proxy.balancerOf prefixPath = some b ∧ b.mu = .free
  | .removeHost prefixPath host =>
      ∃ b, proxy.balancerOf prefixPath = some b ∧ b.Removable host
  | .changeStatic _ => True
  | .changeLb prefixPath lb => (proxy.balancerOf prefixPath).isSome ∧ Supported lb

/-- What a method needs. -/
def ProxyCall.Ready (proxy : HttpReverseProxy) : ProxyCall → Prop
  | .routing call => call.Ready proxy
  | .addBlackList ips => ∀ ip ∈ ips, Readable ip
  | .removeBlackList ips => PrunableAll proxy.acl ips
  | .setRateLimit prefixPath apiPath _ _ speed =>
      speed ≠ 0 ∧ ∃ limiters limiter, proxy.rateLimiters = some limiters ∧
        limiters.lookup (compeleteUrl prefixPath apiPath) = some limiter
  | .start => True
  | .stop => True

variable {proxy : HttpReverseProxy}

theorem completes_updateHosts_balancerOf_iff {prefixPath : String} {body : Eff Balancer Unit}
    (hfree : proxy.mu = .free) :
    Completes (EStateM.run (updateHosts prefixPath body) proxy) ↔
      ∃ b, proxy.balancerOf prefixPath = some b ∧ Completes (EStateM.run body b) := by
  rw [completes_updateHosts_iff]
  constructor
  · rintro ⟨-, p, b, hp, hb, hbody⟩
    exact ⟨b, by rw [balancerOf_eq hp, hb], hbody⟩
  · rintro ⟨b, hb, hbody⟩
    obtain ⟨p, hp, hb⟩ := Option.bind_eq_some_iff.mp hb
    exact ⟨hfree, p, b, hp, hb, hbody⟩

/-- A routing call on a sound proxy returns exactly when it is ready. -/
theorem RoutingCall.completes_iff (h : Sound proxy) (call : RoutingCall) :
    Completes (EStateM.run call.run proxy) ↔ call.Ready proxy := by
  obtain ⟨p, hcopies⟩ := h.copies
  have hp := hcopies.router
  -- the tables of a sound proxy copy the router, so the condition can be read from either
  have hrouted : ∀ q, (proxy.balancerOf q).isSome ↔ q ∈ p.mapping := by
    intro q
    rw [balancerOf_eq hp, HashPrefixer.getBalancer, Finmap.lookup_isSome]
  cases call with
  | addPrefix prefixPath algo hosts isStatic =>
      rw [RoutingCall.run, completes_addPrefix_iff, RoutingCall.Ready, hrouted]
      constructor
      · rintro ⟨-, p', hp', hready⟩
        obtain rfl : p = p' := Option.some.inj (hp.symm.trans hp')
        exact hready
      · exact fun hready => ⟨h.free, p, hp, hready⟩
  | removePrefix prefixPath =>
      rw [RoutingCall.run, completes_removePrefix_iff, hp]
      exact ⟨fun _ => trivial, fun _ => ⟨h.free, rfl⟩⟩
  | addHost prefixPath host =>
      rw [RoutingCall.run, HttpReverseProxy.addHost, completes_updateHosts_balancerOf_iff h.free]
      simp only [Balancer.completes_add_iff, RoutingCall.Ready]
  | removeHost prefixPath host =>
      rw [RoutingCall.run, HttpReverseProxy.removeHost, completes_updateHosts_balancerOf_iff h.free]
      simp only [Balancer.completes_remove_iff, RoutingCall.Ready]
  | changeStatic prefixPath =>
      rw [RoutingCall.run, run_changeStatic h.free]
      exact ⟨fun _ => trivial, fun _ => trivial⟩
  | changeLb prefixPath lb =>
      rw [RoutingCall.run, completes_changeLb_iff, RoutingCall.Ready, hrouted]
      constructor
      · rintro ⟨-, hlb, p', hp', hmem⟩
        obtain rfl : p = p' := Option.some.inj (hp.symm.trans hp')
        exact ⟨hmem, hlb⟩
      · rintro ⟨hmem, hlb⟩
        exact ⟨h.free, hlb, p, hp, hmem⟩

/-- A method on a sound proxy returns when it is ready. -/
theorem ProxyCall.completes_of_ready (h : Sound proxy) {call : ProxyCall}
    (hready : call.Ready proxy) : Completes (EStateM.run call.run proxy) := by
  cases call with
  | routing call => exact (call.completes_iff h).mpr hready
  | addBlackList ips =>
      exact (completes_addBlackList_iff ips).mpr
        ⟨h.free, (completes_addAll_iff h.root).mpr hready⟩
  | removeBlackList ips =>
      exact (completes_removeBlackList_iff ips).mpr ⟨h.free, completes_deleteAll hready⟩
  | setRateLimit prefixPath apiPath limiterType init speed =>
      exact (completes_setRateLimit_iff limiterType).mpr ⟨h.free, hready⟩
  | start =>
      rw [ProxyCall.run, run_start h.free]
      trivial
  | stop =>
      rw [ProxyCall.run, run_stop h.free]
      trivial

/-- The condition is exact, but for the removal of black-listed networks. -/
theorem ProxyCall.completes_iff (h : Sound proxy) {call : ProxyCall}
    (hcall : ∀ ips, call ≠ .removeBlackList ips) :
    Completes (EStateM.run call.run proxy) ↔ call.Ready proxy := by
  refine ⟨fun hcomplete => ?_, call.completes_of_ready h⟩
  cases call with
  | routing call => exact (call.completes_iff h).mp hcomplete
  | addBlackList ips =>
      exact (completes_addAll_iff h.root).mp ((completes_addBlackList_iff ips).mp hcomplete).2
  | removeBlackList ips => exact absurd rfl (hcall ips)
  | setRateLimit prefixPath apiPath limiterType init speed =>
      exact ((completes_setRateLimit_iff limiterType).mp hcomplete).2
  | start => trivial
  | stop => trivial

end Proxy
end VermouthGateway
