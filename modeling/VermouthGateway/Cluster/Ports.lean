import VermouthGateway.Cluster.Events

/-!
# The proxy of a port

Most steps of a node are of another port, or change the proxy of a port in place.

* `OnPort`: a property of the proxy of a port.
* `OnPort.apply`, `OnPort.serve`, `OnPort.finish`: what a step makes of it, when one
  knows what calls and requests make of the proxy.
-/

namespace VermouthGateway
namespace Cluster

open Go Proxy Balancing

/-- The port has a proxy with this property. -/
def OnPort (port : Int) (P : HttpReverseProxy → Prop) (ctx : StateContext) : Prop :=
  ∃ proxy, ctx.httpReverseProxyList.lookup port = some proxy ∧ P proxy

namespace OnPort

variable {port : Int} {P P' : HttpReverseProxy → Prop} {ctx ctx' : StateContext}

theorem of_lookup (h : OnPort port P ctx) (himp : ∀ proxy, P proxy → P' proxy)
    (hlookup : ctx'.httpReverseProxyList.lookup port = ctx.httpReverseProxyList.lookup port) :
    OnPort port P' ctx' := by
  obtain ⟨proxy, hproxy, hP⟩ := h
  exact ⟨proxy, hlookup.trans hproxy, himp proxy hP⟩

/-- A proxy is written back to its port. -/
theorem insert (h : OnPort port P ctx) {q : Int} {proxy proxy' : HttpReverseProxy}
    (hproxy : ctx.httpReverseProxyList.lookup q = some proxy)
    (hcalled : q = port → P proxy → P' proxy') (hother : q ≠ port → ∀ proxy, P proxy → P' proxy) :
    OnPort port P' { ctx with
      httpReverseProxyList := ctx.httpReverseProxyList.insert q proxy' } := by
  by_cases hq : q = port
  · subst hq
    obtain ⟨_, hold, hP⟩ := h
    cases hold.symm.trans hproxy
    exact ⟨proxy', Finmap.lookup_insert _, hcalled rfl hP⟩
  · exact h.of_lookup (hother hq) (Finmap.lookup_insert_of_ne _ fun heq => hq heq.symm)

/-- An entry calls the proxy of the port, or leaves it where it is. -/
theorem apply (h : OnPort port P ctx) {entry : LogEntry}
    (hcall : ∀ call proxy proxy', entry.call = some (port, call) → P proxy →
      EStateM.run call.run proxy = .ok () proxy' → P' proxy')
    (hother : (∀ call, entry.call ≠ some (port, call)) → ∀ proxy, P proxy → P' proxy)
    (hstays : ∀ body, entry = .rmvHttpProxy body → body.port ≠ port)
    (hrun : EStateM.run (StateContext.apply entry) ctx = .ok () ctx') : OnPort port P' ctx' := by
  cases htarget : entry.call with
  | some target =>
      obtain ⟨q, call⟩ := target
      rw [StateContext.apply_of_call htarget] at hrun
      obtain ⟨proxy, proxy', hproxy, hbody, rfl⟩ := StateContext.run_onProxy_ok hrun
      refine h.insert hproxy (fun hq hP => ?_) fun hq => hother fun call' hcall' => ?_
      · exact hcall call proxy proxy' (by rw [htarget, hq]) hP hbody
      · rw [htarget] at hcall'
        exact hq (congrArg Prod.fst (Option.some.inj hcall'))
  | none =>
      have hsame : ∀ proxy, P proxy → P' proxy := hother fun call hcall' => by
        rw [htarget] at hcall'
        cases hcall'
      rcases StateContext.apply_of_no_call htarget with
        ⟨body, rfl⟩ | ⟨body, rfl⟩ | ⟨body, rfl, -, -, happly⟩
      · obtain ⟨proxy, -, rfl⟩ := StateContext.run_handleAddHttpProxy_ok hrun
        refine h.of_lookup hsame ?_
        rw [StateContext.withNewProxy]
        dsimp only
        split
        · rfl
        next hfree =>
          -- the port of the property has a proxy
          have hne : port ≠ body.port := by
            rintro rfl
            obtain ⟨_, hold, -⟩ := h
            exact hfree (Finmap.mem_iff.mpr ⟨_, hold⟩)
          exact Finmap.lookup_insert_of_ne _ hne
      · obtain ⟨g, -, rfl⟩ := StateContext.run_handleRemoveHttpProxy_ok hrun
        exact h.of_lookup hsame (Finmap.lookup_erase_ne fun heq => hstays body rfl heq.symm)
      · rw [happly] at hrun
        obtain ⟨g, -, rfl⟩ := StateContext.run_close_ok hrun
        exact h.of_lookup hsame rfl

theorem serve (h : OnPort port P ctx) (q : Int) (peerAvailable : Bool)
    (allow : QpsRateLimiter → Bool) (r : Utils.Request)
    (hserve : q = port → ∀ proxy, P proxy →
      P' (memory (EStateM.run (HttpReverseProxy.serveHTTP peerAvailable allow r) proxy)))
    (hother : q ≠ port → ∀ proxy, P proxy → P' proxy) :
    OnPort port P' (ctx.serve q peerAvailable allow r) := by
  rw [StateContext.serve]
  cases hproxy : ctx.httpReverseProxyList.lookup q with
  | none =>
      rw [StateContext.run_onProxy_none hproxy]
      refine h.of_lookup (hother ?_) rfl
      rintro rfl
      obtain ⟨_, hold, -⟩ := h
      rw [hproxy] at hold
      cases hold
  | some proxy =>
      rw [StateContext.run_onProxy_some hproxy, memory_embed]
      exact h.insert hproxy (fun hq => hserve hq proxy) hother

theorem finish (h : OnPort port P ctx) (himp : ∀ proxy, P proxy → P' proxy) {q : Int}
    (hq : q ≠ port) : OnPort port P' (StateContext.finishShutdown q ctx) :=
  h.of_lookup himp (Finmap.lookup_erase_ne fun heq => hq heq.symm)

end OnPort

end Cluster
end VermouthGateway
