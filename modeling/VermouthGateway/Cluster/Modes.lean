import VermouthGateway.Cluster.Api

/-!
# The two deployment modes

A request changes the state at once in stand mode; in cluster mode it appends
an entry, and the state changes when the entry is applied.  Both ways reach the
same method of the proxy, behind checks of their own.

* `agrees_byMode`, `agrees_withProxy`: the modes agree wherever the checks are
  made before the switch.
* `agrees_iff`: they agree on every request but one on the black list of a port
  without a proxy, where only the stand branch looks for the proxy.
-/

namespace VermouthGateway
namespace Cluster

open Go Proxy Balancing

/-- The node applies what is in its log. -/
def Vermouth.applyLog : Eff Vermouth Unit := do
  let v ← get
  set { v with raftLog := [] }
  Vermouth.onCtx (forEach v.raftLog StateContext.apply)

/-- A call on a node in a mode, with the entries it appended applied. -/
def inMode (mode : Mode) (call : Eff Vermouth (Except ApiError Unit)) :
    Eff StateContext (Except ApiError Unit) := fun ctx =>
  embed Vermouth.ctx (EStateM.run
    (do
      let answer ← call
      Vermouth.applyLog
      pure answer)
    ⟨mode, ctx, []⟩)

/-- Wherever the call returns in stand mode, it returns in cluster mode with
the same answer and the same tables. -/
def Agrees (call : Eff Vermouth (Except ApiError Unit)) (ctx : StateContext) : Prop :=
  ∀ answer ctx₁, EStateM.run (inMode .stand call) ctx = .ok answer ctx₁ →
    ∃ ctx₂, EStateM.run (inMode .cluster call) ctx = .ok answer ctx₂ ∧
      ctx₁.SameTables ctx₂

section Calls

variable {ctx : StateContext} {stand : Eff StateContext Unit} {entry : LogEntry}

theorem agrees_of_eq {call : Eff Vermouth (Except ApiError Unit)}
    (h : EStateM.run (inMode .cluster call) ctx = EStateM.run (inMode .stand call) ctx) :
    Agrees call ctx := by
  intro answer ctx₁ hrun
  exact ⟨ctx₁, h.trans hrun, fun _ => rfl⟩

theorem run_inMode_get (mode : Mode) (f : Vermouth → Eff Vermouth (Except ApiError Unit))
    (ctx : StateContext) :
    EStateM.run (inMode mode (get >>= f)) ctx =
      EStateM.run (inMode mode (f ⟨mode, ctx, []⟩)) ctx := rfl

/-- Work on the state with nothing appended. -/
theorem run_inMode_onCtx (mode : Mode) (body : Eff StateContext Unit) (ctx : StateContext) :
    EStateM.run (inMode mode (do Vermouth.onCtx body; pure (.ok ()))) ctx =
      EStateM.run (do body; pure (.ok ())) ctx := by
  have hbody : EStateM.run (Vermouth.onCtx body) ⟨mode, ctx, []⟩ =
      embed (fun ctx => ⟨mode, ctx, []⟩) (EStateM.run body ctx) := rfl
  show embed Vermouth.ctx (EStateM.run _ _) = _
  rw [EStateM.run_bind, EStateM.run_bind, hbody, EStateM.run_bind]
  cases EStateM.run body ctx <;> rfl

/-- An appended entry is applied. -/
theorem run_inMode_append (mode : Mode) (entry : LogEntry) (ctx : StateContext) :
    EStateM.run (inMode mode (do Vermouth.appendLogEntry entry; pure (.ok ()))) ctx =
      EStateM.run (do StateContext.apply entry; pure (.ok ())) ctx := by
  have happend : EStateM.run (Vermouth.appendLogEntry entry) ⟨mode, ctx, []⟩ =
      .ok () ⟨mode, ctx, [entry]⟩ := rfl
  have happly : EStateM.run Vermouth.applyLog ⟨mode, ctx, [entry]⟩ =
      embed (fun ctx => ⟨mode, ctx, []⟩)
        (EStateM.run (forEach [entry] StateContext.apply) ctx) := rfl
  show embed Vermouth.ctx (EStateM.run _ _) = _
  rw [EStateM.run_bind, EStateM.run_bind, happend]
  dsimp only
  rw [EStateM.run_pure]
  dsimp only
  rw [EStateM.run_bind, happly, run_forEach_cons, EStateM.run_bind]
  cases EStateM.run (StateContext.apply entry) ctx <;> rfl

/-- Behind the switch the modes agree when the handler does what the stand
branch does. -/
theorem agrees_byMode (hentry : StateContext.apply entry = stand) :
    Agrees (Vermouth.byMode stand entry) ctx := by
  apply agrees_of_eq
  rw [Vermouth.byMode, run_inMode_get, run_inMode_get]
  dsimp only
  rw [run_inMode_onCtx, run_inMode_append, hentry]

/-- A check before the switch reads the same state in both modes. -/
theorem agrees_withProxy {port : Int} {check : HttpReverseProxy → Option ApiError}
    (hentry : StateContext.apply entry = stand) :
    Agrees (Vermouth.withProxy port check stand entry) ctx := by
  intro answer ctx₁ hrun
  rw [Vermouth.withProxy, run_inMode_get] at hrun ⊢
  dsimp only at hrun ⊢
  cases hport : ctx.httpReverseProxyList.lookup port with
  | none =>
      rw [hport] at hrun
      exact ⟨ctx₁, hrun, fun _ => rfl⟩
  | some proxy =>
      rw [hport] at hrun
      dsimp only at hrun ⊢
      cases hcheck : check proxy with
      | some e =>
          rw [hcheck] at hrun
          exact ⟨ctx₁, hrun, fun _ => rfl⟩
      | none =>
          rw [hcheck] at hrun
          exact agrees_byMode hentry answer ctx₁ hrun

theorem agrees_unchecked {port : Int} (hentry : StateContext.apply entry = stand) :
    Agrees (Vermouth.withProxy port (fun _ => none) stand entry) ctx :=
  agrees_withProxy hentry

/-- When only the stand branch looks for the proxy, the modes agree exactly
when it is there. -/
theorem agrees_standProxy_iff {port : Int} {body : Eff HttpReverseProxy Unit}
    (hentry : StateContext.apply entry = StateContext.onProxy port body) :
    Agrees (Vermouth.standProxy port (StateContext.onProxy port body) entry) ctx ↔
      port ∈ ctx.httpReverseProxyList := by
  -- cluster mode runs the method whether the port is there or not
  have hcluster : EStateM.run (inMode .cluster
      (Vermouth.standProxy port (StateContext.onProxy port body) entry)) ctx =
      EStateM.run (do StateContext.onProxy port body; pure (.ok ())) ctx := by
    rw [Vermouth.standProxy, run_inMode_get]
    dsimp only
    rw [run_inMode_append, hentry]
  by_cases hport : port ∈ ctx.httpReverseProxyList
  · have hstand : EStateM.run (inMode .stand
        (Vermouth.standProxy port (StateContext.onProxy port body) entry)) ctx =
        EStateM.run (do StateContext.onProxy port body; pure (.ok ())) ctx := by
      rw [Vermouth.standProxy, run_inMode_get]
      dsimp only
      rw [if_pos hport, run_inMode_onCtx]
    exact ⟨fun _ => hport, fun _ => agrees_of_eq (hcluster.trans hstand.symm)⟩
  · -- the stand branch answers an error, the handler has no proxy to call
    refine ⟨fun hagrees => ?_, fun h => absurd h hport⟩
    have hstand : EStateM.run (inMode .stand
        (Vermouth.standProxy port (StateContext.onProxy port body) entry)) ctx =
        .ok (.error .httpProxyNotExists) ctx := by
      rw [Vermouth.standProxy, run_inMode_get]
      dsimp only
      rw [if_neg hport]
      rfl
    obtain ⟨ctx₂, hrun, -⟩ := hagrees _ _ hstand
    rw [hcluster, EStateM.run_bind, StateContext.onProxy,
      run_focus_none (s := ctx) (Finmap.lookup_eq_none.mpr hport)] at hrun
    cases hrun

theorem agrees_addHttpProxy (body : AddHttpProxyBody) :
    Agrees (Vermouth.addHttpProxy body) ctx := by
  intro answer ctx₁ hrun
  rw [Vermouth.addHttpProxy, run_inMode_get] at hrun ⊢
  dsimp only at hrun ⊢
  by_cases hport : body.port ∈ ctx.httpReverseProxyList
  · rw [if_pos hport] at hrun ⊢
    exact ⟨ctx₁, hrun, fun _ => rfl⟩
  · rw [if_neg hport] at hrun ⊢
    exact agrees_byMode rfl answer ctx₁ hrun

theorem agrees_changeLb (body : HttpChangeLbBody) :
    Agrees (Vermouth.changeLb body) ctx := by
  intro answer ctx₁ hrun
  rw [Vermouth.changeLb, run_inMode_get] at hrun ⊢
  dsimp only at hrun ⊢
  cases hport : ctx.httpReverseProxyList.lookup body.port with
  | none =>
      rw [hport] at hrun
      exact ⟨ctx₁, hrun, fun _ => rfl⟩
  | some proxy =>
  rw [hport] at hrun
  dsimp only at hrun ⊢
  cases hrouter : proxy.prefixMapping with
  | none =>
      rw [hrouter] at hrun
      cases hrun
  | some p =>
  rw [hrouter] at hrun
  dsimp only at hrun ⊢
  cases hbalancer : p.getBalancer body.prefixPath with
  | none =>
      rw [hbalancer] at hrun
      exact ⟨ctx₁, hrun, fun _ => rfl⟩
  | some b =>
  rw [hbalancer] at hrun
  dsimp only at hrun ⊢
  -- every check is made before the switch, so both modes answer it alike
  by_cases hmode : b.mode = body.lb
  · rw [if_pos hmode] at hrun ⊢
    exact ⟨ctx₁, hrun, fun _ => rfl⟩
  · rw [if_neg hmode] at hrun ⊢
    exact agrees_byMode rfl answer ctx₁ hrun

end Calls

/-- A request on the black list of a port without a proxy. -/
def ApiRequest.UncheckedPort (ctx : StateContext) : ApiRequest → Prop
  | .addBlackList body => body.port ∉ ctx.httpReverseProxyList
  | .removeBlackList body => body.port ∉ ctx.httpReverseProxyList
  | _ => False

/-- On every state the two modes agree on every request but one on the black
list of a port without a proxy. -/
theorem agrees_iff (request : ApiRequest) (ctx : StateContext) :
    Agrees request.call ctx ↔ ¬ request.UncheckedPort ctx := by
  cases request with
  | addHttpProxy body =>
      exact ⟨fun _ => not_false, fun _ => agrees_addHttpProxy body⟩
  | addHttpProxyPrefix body =>
      exact ⟨fun _ => not_false, fun _ => agrees_withProxy rfl⟩
  | removeHttpProxyPrefix body =>
      exact ⟨fun _ => not_false, fun _ => agrees_withProxy rfl⟩
  | addHttpProxyHost body =>
      exact ⟨fun _ => not_false, fun _ => agrees_withProxy rfl⟩
  | removeHttpProxyHost body =>
      exact ⟨fun _ => not_false, fun _ => agrees_withProxy rfl⟩
  | addBlackList body => exact (agrees_standProxy_iff rfl).trans not_not.symm
  | removeBlackList body => exact (agrees_standProxy_iff rfl).trans not_not.symm
  | setRateLimiter body =>
      exact ⟨fun _ => not_false, fun _ => agrees_unchecked rfl⟩
  | changeStatic body =>
      exact ⟨fun _ => not_false, fun _ => agrees_unchecked rfl⟩
  | changeLb body =>
      exact ⟨fun _ => not_false, fun _ => agrees_changeLb body⟩
  | changeProxyAvailable body =>
      exact ⟨fun _ => not_false, fun _ => agrees_unchecked rfl⟩

/-- Adding to the black list of a port without a proxy is an error value in
stand mode, and a nil dereference where the entry is applied. -/
theorem not_agrees_addBlackList : ¬ ∀ (request : ApiRequest) (ctx : StateContext),
    Agrees request.call ctx := by
  intro hclaim
  have hagrees := hclaim (.addBlackList ⟨8080, ["10.0.0.0/8"]⟩) (newStateContext fun _ => true)
  exact Finmap.notMem_empty ((agrees_standProxy_iff rfl).mp hagrees)

end Cluster
end VermouthGateway
