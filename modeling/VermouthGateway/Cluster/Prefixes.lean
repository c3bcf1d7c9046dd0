import VermouthGateway.Cluster.Rpc
import VermouthGateway.Proxy.Prefixes

/-!
# Prefixes of a running node

Every proxy of a node is sound, whatever entries, requests, shutdowns and restores
the node has seen, so what holds of `AddPrefix` and `changeLb` on sound proxies
holds of every state a node can reach.
-/

namespace VermouthGateway
namespace Cluster

open Go Proxy Balancing
open HttpReverseProxy

section Reached

variable {node : Node} {port : Int} {proxy : HttpReverseProxy}

/-- On every proxy of a node `AddPrefix` is all or nothing when it finds the prefix
routed or the algorithm supported. -/
theorem addPrefix_whole_iff (h : Reachable node)
    (hproxy : node.ctx.httpReverseProxyList.lookup port = some proxy)
    (prefixPath algo : String) (hosts : List String) (isStatic : Bool) :
    AddsWhole proxy prefixPath algo hosts isStatic ↔
      (proxy.balancerOf prefixPath).isSome ∨ Supported algo :=
  (h.sound port proxy hproxy).addsWhole_iff algo hosts isStatic

/-- On every proxy of a node `changeLb` changes the balancer of a routed prefix and
nothing else when the algorithm is supported and the prefix has no limiter to lose. -/
theorem changeLb_only_iff (h : Reachable node)
    (hproxy : node.ctx.httpReverseProxyList.lookup port = some proxy) {prefixPath : String}
    (hrouted : (proxy.balancerOf prefixPath).isSome) (lb : String) :
    ChangesLbOnly proxy prefixPath lb ↔ Supported lb ∧ Unlimited proxy prefixPath :=
  (h.sound port proxy hproxy).changesLbOnly_iff hrouted lb

end Reached

theorem run_oneRegistered_routes : ∃ ctx proxy,
    EStateM.run (forEach oneRegistered StateContext.apply) (newStateContext fun _ => true) =
      .ok () ctx ∧
    ctx.httpReverseProxyList.lookup 8080 = some proxy ∧
    (proxy.balancerOf "/api").isSome ∧ proxy.balancerOf "/web" = none :=
  ⟨_, _, rfl, rfl, rfl, rfl⟩

/-- A node with one routed prefix. -/
theorem exists_registered : ∃ node proxy, Reachable node ∧
    node.ctx.httpReverseProxyList.lookup 8080 = some proxy ∧
    (proxy.balancerOf "/api").isSome ∧ proxy.balancerOf "/web" = none := by
  obtain ⟨ctx, proxy, hrun, hproxy, hrouted, hnew⟩ := run_oneRegistered_routes
  exact ⟨⟨ctx, []⟩, proxy, reachable_oneRegistered hrun, hproxy, hrouted, hnew⟩

theorem addPrefix_whole_iff_registered : ∃ node proxy, Reachable node ∧
    node.ctx.httpReverseProxyList.lookup 8080 = some proxy ∧
    (AddsWhole proxy "/api" "random" [] false ↔
      (proxy.balancerOf "/api").isSome ∨ Supported "random") := by
  obtain ⟨node, proxy, h, hproxy, -, -⟩ := exists_registered
  exact ⟨node, proxy, h, hproxy, addPrefix_whole_iff h hproxy "/api" "random" [] false⟩

theorem changeLb_only_iff_registered : ∃ node proxy, Reachable node ∧
    node.ctx.httpReverseProxyList.lookup 8080 = some proxy ∧
    (proxy.balancerOf "/api").isSome ∧
    (ChangesLbOnly proxy "/api" typeConsistenceHash ↔
      Supported typeConsistenceHash ∧ Unlimited proxy "/api") := by
  obtain ⟨node, proxy, h, hproxy, hrouted, -⟩ := exists_registered
  exact ⟨node, proxy, h, hproxy, hrouted, changeLb_only_iff h hproxy hrouted _⟩

/-- An unknown algorithm on a new prefix panics between the tables. -/
theorem addPrefix_torn : ¬ ∀ (node : Node) (port : Int) (proxy : HttpReverseProxy), Reachable node →
    node.ctx.httpReverseProxyList.lookup port = some proxy →
    ∀ (prefixPath algo : String) (hosts : List String) (isStatic : Bool),
      AddsWhole proxy prefixPath algo hosts isStatic := by
  intro hclaim
  obtain ⟨node, proxy, h, hproxy, -, hnew⟩ := exists_registered
  have hwhole := hclaim node 8080 proxy h hproxy "/web" "random" [] false
  rcases ((h.sound _ _ hproxy).addsWhole_iff _ _ _).mp hwhole with hrouted | hsupported
  · rw [hnew] at hrouted
    cases hrouted
  · exact absurd hsupported (by decide)

/-- An unknown algorithm panics once the prefix is removed. -/
theorem changeLb_removes : ¬ ∀ (node : Node) (port : Int) (proxy : HttpReverseProxy),
    Reachable node → node.ctx.httpReverseProxyList.lookup port = some proxy →
    ∀ prefixPath lb : String, (proxy.balancerOf prefixPath).isSome →
      ChangesLbOnly proxy prefixPath lb := by
  intro hclaim
  obtain ⟨node, proxy, h, hproxy, hrouted, -⟩ := exists_registered
  have honly := hclaim node 8080 proxy h hproxy "/api" "random" hrouted
  exact absurd (((h.sound _ _ hproxy).changesLbOnly_iff hrouted _).mp honly).1 (by decide)

end Cluster
end VermouthGateway
