import VermouthGateway.Cluster.Handlers
import VermouthGateway.Cluster.Modes
import VermouthGateway.Proxy.Hosts

/-!
# Calls in stand mode

In stand mode a method of the interface that passes its checks calls the proxy
before it returns.

* `run_withProxy_missing`, `run_withProxy_refused`: a check fails, and nothing
  happens.
* `run_withProxy_stand`, `run_withProxy_checked`: the checks pass.
* `run_withProxy_cases`: what a method can have done, in either mode.
-/

namespace VermouthGateway
namespace Cluster
namespace Vermouth

open Go Proxy Balancing
open EStateM (Result)

/-- The node with another proxy on a port. -/
def putProxy (v : Vermouth) (port : Int) (proxy : HttpReverseProxy) : Vermouth :=
  { v with ctx := { v.ctx with
      httpReverseProxyList := v.ctx.httpReverseProxyList.insert port proxy } }

variable {v v' : Vermouth} {port : Int} {proxy proxy' : HttpReverseProxy}
  {check : HttpReverseProxy → Option ApiError} {stand : Eff StateContext Unit} {entry : LogEntry}

@[simp] theorem putProxy_mode (v : Vermouth) (port : Int) (proxy : HttpReverseProxy) :
    (v.putProxy port proxy).mode = v.mode := rfl

@[simp] theorem lookup_putProxy (v : Vermouth) (port : Int) (proxy : HttpReverseProxy) :
    (v.putProxy port proxy).ctx.httpReverseProxyList.lookup port = some proxy :=
  Finmap.lookup_insert _

/-- Writing back the proxy that is there changes nothing. -/
theorem putProxy_self (h : v.ctx.httpReverseProxyList.lookup port = some proxy) :
    v.putProxy port proxy = v := by
  rw [putProxy, GoMap.insert_lookup_self h]

theorem run_onCtx_onProxy_some {α : Type} {body : Eff HttpReverseProxy α}
    (h : v.ctx.httpReverseProxyList.lookup port = some proxy) :
    EStateM.run (onCtx (StateContext.onProxy port body)) v =
      embed (v.putProxy port) (EStateM.run body proxy) := by
  have hctx : EStateM.run (onCtx (StateContext.onProxy port body)) v =
      embed (fun ctx => { v with ctx := ctx })
        (EStateM.run (StateContext.onProxy port body) v.ctx) := rfl
  rw [hctx, StateContext.run_onProxy_some h]
  cases EStateM.run body proxy <;> rfl

theorem run_onCtx_onProxy_none {α : Type} {body : Eff HttpReverseProxy α}
    (h : v.ctx.httpReverseProxyList.lookup port = none) :
    EStateM.run (onCtx (StateContext.onProxy port body)) v =
      .error (.panic .nilDereference) v := by
  have hctx : EStateM.run (onCtx (StateContext.onProxy port body)) v =
      embed (fun ctx => { v with ctx := ctx })
        (EStateM.run (StateContext.onProxy port body) v.ctx) := rfl
  rw [hctx, StateContext.run_onProxy_none h]
  rfl

theorem run_withProxy_missing (h : v.ctx.httpReverseProxyList.lookup port = none) :
    EStateM.run (withProxy port check stand entry) v =
      .ok (.error .httpProxyNotExists) v := by
  rw [withProxy, EStateM.run_bind, EStateM.run_get]
  dsimp only
  rw [h]
  rfl

theorem run_withProxy_refused (h : v.ctx.httpReverseProxyList.lookup port = some proxy)
    {e : ApiError} (hcheck : check proxy = some e) :
    EStateM.run (withProxy port check stand entry) v = .ok (.error e) v := by
  rw [withProxy, EStateM.run_bind, EStateM.run_get]
  dsimp only
  rw [h]
  dsimp only
  rw [hcheck]
  rfl

/-- The method calls the proxy, and answers when that call returns. -/
theorem run_withProxy_stand {body : Eff HttpReverseProxy Unit} (hmode : v.mode = .stand)
    (h : v.ctx.httpReverseProxyList.lookup port = some proxy) (hcheck : check proxy = none) :
    EStateM.run (withProxy port check (StateContext.onProxy port body) entry) v =
      match EStateM.run body proxy with
      | .ok _ proxy' => .ok (.ok ()) (v.putProxy port proxy')
      | .error e proxy' => .error e (v.putProxy port proxy') := by
  rw [withProxy, EStateM.run_bind, EStateM.run_get]
  dsimp only
  rw [h]
  dsimp only
  rw [hcheck]
  dsimp only
  rw [byMode, EStateM.run_bind, EStateM.run_get]
  dsimp only
  rw [hmode]
  dsimp only
  rw [EStateM.run_bind, run_onCtx_onProxy_some h]
  cases EStateM.run body proxy <;> rfl

/-- A method that passed its check and returned called the proxy. -/
theorem run_withProxy_checked {body : Eff HttpReverseProxy Unit} {answer : Except ApiError Unit}
    (hmode : v.mode = .stand) (h : v.ctx.httpReverseProxyList.lookup port = some proxy)
    (hcheck : check proxy = none)
    (hrun : EStateM.run (withProxy port check (StateContext.onProxy port body) entry) v =
      .ok answer v') :
    answer = .ok () ∧ ∃ proxy', EStateM.run body proxy = .ok () proxy' ∧
      v' = v.putProxy port proxy' := by
  rw [run_withProxy_stand hmode h hcheck] at hrun
  cases hbody : EStateM.run body proxy with
  | error e proxy' =>
      rw [hbody] at hrun
      cases hrun
  | ok u proxy' =>
      rw [hbody] at hrun
      cases hrun
      exact ⟨rfl, proxy', rfl, rfl⟩

/-! ## Either mode -/

/-- The switch changes the state or appends to the log. -/
theorem run_byMode_cases {answer : Except ApiError Unit}
    (hrun : EStateM.run (byMode stand entry) v = .ok answer v') :
    (∃ ctx, EStateM.run stand v.ctx = .ok () ctx ∧ v' = { v with ctx := ctx }) ∨
      v' = { v with raftLog := v.raftLog ++ [entry] } := by
  obtain ⟨mode, ctx₀, raftLog⟩ := v
  cases mode with
  | stand =>
      obtain ⟨u, v₁, hstand, hlast⟩ := run_bind_ok
        (show EStateM.run (onCtx stand >>= fun _ => pure (.ok ())) ⟨.stand, ctx₀, raftLog⟩ =
          .ok answer v' from hrun)
      cases hlast
      obtain ⟨ctx, ctx', hctx, hbody, rfl⟩ := run_focus_ok hstand
      cases hctx
      exact Or.inl ⟨ctx', hbody, rfl⟩
  | cluster =>
      cases hrun
      exact Or.inr rfl

/-- A method that returned has left the node alone, changed its state, or appended its
entry to the log. -/
theorem run_withProxy_cases {answer : Except ApiError Unit}
    (hrun : EStateM.run (withProxy port check stand entry) v = .ok answer v') :
    v' = v ∨ (∃ ctx, EStateM.run stand v.ctx = .ok () ctx ∧ v' = { v with ctx := ctx }) ∨
      v' = { v with raftLog := v.raftLog ++ [entry] } := by
  cases hproxy : v.ctx.httpReverseProxyList.lookup port with
  | none =>
      rw [run_withProxy_missing hproxy] at hrun
      cases hrun
      exact Or.inl rfl
  | some proxy =>
      cases hcheck : check proxy with
      | some refusal =>
          rw [run_withProxy_refused hproxy hcheck] at hrun
          cases hrun
          exact Or.inl rfl
      | none =>
          rw [withProxy, EStateM.run_bind, EStateM.run_get] at hrun
          dsimp only at hrun
          rw [hproxy] at hrun
          dsimp only at hrun
          rw [hcheck] at hrun
          exact Or.inr (run_byMode_cases hrun)

end Vermouth
end Cluster
end VermouthGateway
