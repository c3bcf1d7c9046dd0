import VermouthGateway.Cluster.Context
import VermouthGateway.Proxy.Sound

/-!
# What an entry does

Nine of the twelve kinds of entries, and two of the three states of the last,
call one method of one proxy; the others make a proxy or close one.

* `LogEntry.call` and `apply_of_call`: the entries of the first kind.
* `run_handleAddHttpProxy`, `run_close_ok`, `completes_close_iff`: the others.
* `apply_sound`: an applied entry keeps every proxy sound.
-/

namespace VermouthGateway
namespace Cluster

open Go Proxy Balancing

/-- The method an entry calls, and the port of the proxy it calls it on. -/
def LogEntry.call : LogEntry → Option (Int × ProxyCall)
  | .addHttpProxy _ => none
  | .addHttpProxyPrefix body => some (body.port,
      .routing (.addPrefix body.prefixPath body.balanceType body.proxyPass body.static))
  | .addHttpProxyHost body => some (body.port, .routing (.addHost body.prefixPath body.host))
  | .addHttpBlackList body => some (body.port, .addBlackList body.ips)
  | .rmvHttpProxyPrefix body => some (body.port, .routing (.removePrefix body.prefixPath))
  | .rmvHttpProxyHost body =>
      some (body.port, .routing (.removeHost body.prefixPath body.host))
  | .rmvHttpBlackList body => some (body.port, .removeBlackList body.ips)
  | .rmvHttpProxy _ => none
  | .setRateLimiter body => some (body.port,
      .setRateLimit body.prefixPath body.url body.type body.volumn body.speed)
  | .chgStatic body => some (body.port, .routing (.changeStatic body.prefixPath))
  | .chgLb body => some (body.port, .routing (.changeLb body.prefixPath body.lb))
  | .chgState body =>
      if body.state = 1 then some (body.port, .start)
      else if body.state = 2 then some (body.port, .stop)
      else none

namespace StateContext

variable {ctx ctx' : StateContext} {port : Int} {entry : LogEntry}

theorem apply_of_call {call : ProxyCall} (h : entry.call = some (port, call)) :
    apply entry = onProxy port call.run := by
  cases entry with
  | addHttpProxy body => cases h
  | rmvHttpProxy body => cases h
  | chgState body =>
      rw [LogEntry.call] at h
      rw [apply, handleChangeState, changeState]
      by_cases hstart : body.state = 1
      · rw [if_pos hstart] at h ⊢
        cases h
        rfl
      · rw [if_neg hstart] at h ⊢
        by_cases hstop : body.state = 2
        · rw [if_pos hstop] at h ⊢
          cases h
          rfl
        · rw [if_neg hstop] at h
          cases h
  | _ =>
      cases h
      rfl

/-- An entry that calls no method adds, removes or closes a proxy. -/
theorem apply_of_no_call (h : entry.call = none) :
    (∃ body, entry = .addHttpProxy body) ∨ (∃ body, entry = .rmvHttpProxy body) ∨
      ∃ body, entry = .chgState body ∧ body.state ≠ 1 ∧ body.state ≠ 2 ∧
        apply entry = close body.port := by
  cases entry with
  | addHttpProxy body => exact Or.inl ⟨body, rfl⟩
  | rmvHttpProxy body => exact Or.inr (Or.inl ⟨body, rfl⟩)
  | chgState body =>
      rw [LogEntry.call] at h
      by_cases hstart : body.state = 1
      · rw [if_pos hstart] at h
        cases h
      · rw [if_neg hstart] at h
        by_cases hstop : body.state = 2
        · rw [if_pos hstop] at h
          cases h
        · refine Or.inr (Or.inr ⟨body, rfl, hstart, hstop, ?_⟩)
          rw [apply, handleChangeState, changeState, if_neg hstart, if_neg hstop]
  | _ => cases h

/-! ## Methods of a proxy -/

theorem run_onProxy_none {α : Type} {body : Eff HttpReverseProxy α}
    (h : ctx.httpReverseProxyList.lookup port = none) :
    EStateM.run (onProxy port body) ctx = .error (.panic .nilDereference) ctx :=
  run_focus_none (s := ctx) h

theorem run_onProxy_some {α : Type} {body : Eff HttpReverseProxy α} {proxy : HttpReverseProxy}
    (h : ctx.httpReverseProxyList.lookup port = some proxy) :
    EStateM.run (onProxy port body) ctx =
      embed (fun proxy' => { ctx with
        httpReverseProxyList := ctx.httpReverseProxyList.insert port proxy' })
        (EStateM.run body proxy) :=
  run_focus_some (s := ctx) h

theorem run_onProxy_ok {α : Type} {body : Eff HttpReverseProxy α} {a : α}
    (hrun : EStateM.run (onProxy port body) ctx = .ok a ctx') :
    ∃ proxy proxy', ctx.httpReverseProxyList.lookup port = some proxy ∧
      EStateM.run body proxy = .ok a proxy' ∧
      ctx' = { ctx with
        httpReverseProxyList := ctx.httpReverseProxyList.insert port proxy' } :=
  run_focus_ok hrun

theorem completes_onProxy_iff {α : Type} {body : Eff HttpReverseProxy α} :
    Completes (EStateM.run (onProxy port body) ctx) ↔
      ∃ proxy, ctx.httpReverseProxyList.lookup port = some proxy ∧
        Completes (EStateM.run body proxy) :=
  completes_focus_iff

/-- Reading a proxy changes nothing. -/
theorem run_onProxy_get {proxy : HttpReverseProxy}
    (h : ctx.httpReverseProxyList.lookup port = some proxy) :
    EStateM.run (onProxy port get) ctx = .ok proxy ctx := by
  rw [run_onProxy_some h, EStateM.run_get, embed_ok, GoMap.insert_lookup_self h]

/-! ## New proxies -/

theorem newHttpReverseProxy_ok {args : HttpProxyArgs} {shutdown : Nat}
    {proxy : HttpReverseProxy} (h : newHttpReverseProxy args shutdown = .ok proxy) :
    args.prefixerType = typeHashPrefixer ∧ proxy.port = args.port ∧
      proxy.shutdown = some shutdown := by
  have htype := (mirrored_newHttpReverseProxy h).type
  rw [newHttpReverseProxy] at h
  split at h
  · cases h
  · cases h
    exact ⟨htype, rfl, rfl⟩

theorem newHttpReverseProxy_of_type (args : HttpProxyArgs) (shutdown : Nat)
    (h : args.prefixerType = typeHashPrefixer) :
    ∃ proxy, newHttpReverseProxy args shutdown = .ok proxy := by
  rw [newHttpReverseProxy, buildPrefixer, if_pos h]
  exact ⟨_, rfl⟩

/-- The context with a proxy offered for its port and run. -/
def withNewProxy (ctx : StateContext) (port : Int) (proxy : HttpReverseProxy) :
    StateContext :=
  { ctx with
    httpReverseProxyList :=
      if port ∈ ctx.httpReverseProxyList then ctx.httpReverseProxyList
      else ctx.httpReverseProxyList.insert port proxy
    goroutines := ctx.goroutines ++
      if ctx.listens ctx.nextChan then [.awaitShutdown port ctx.nextChan] else []
    nextChan := ctx.nextChan + 1 }

theorem run_handleAddHttpProxy {body : AddHttpProxyBody} {proxy : HttpReverseProxy}
    (h : newHttpReverseProxy ⟨body.port, body.prefixType, []⟩ ctx.nextChan = .ok proxy) :
    EStateM.run (handleAddHttpProxy body) ctx =
      .ok () (ctx.withNewProxy body.port proxy) := by
  obtain ⟨-, hport, hshutdown⟩ := newHttpReverseProxy_ok h
  -- the three statements of the handler, each on any context
  have hmake : EStateM.run (makeProxy ⟨body.port, body.prefixType, []⟩) ctx =
      .ok proxy { ctx with nextChan := ctx.nextChan + 1 } := by
    rw [makeProxy, EStateM.run_bind, EStateM.run_get]
    dsimp only
    rw [EStateM.run_bind, h]
    rfl
  have hadd : ∀ ctx₁ : StateContext, EStateM.run (addHttpReverseProxy proxy) ctx₁ =
      .ok () { ctx₁ with
        httpReverseProxyList :=
          if body.port ∈ ctx₁.httpReverseProxyList then ctx₁.httpReverseProxyList
          else ctx₁.httpReverseProxyList.insert body.port proxy } := by
    intro ctx₁
    rw [addHttpReverseProxy, EStateM.run_bind, EStateM.run_get]
    dsimp only
    rw [hport, run_ite]
    split <;> rfl
  have hrun : ∀ ctx₁ : StateContext, EStateM.run (runProxy proxy) ctx₁ =
      .ok () { ctx₁ with
        goroutines := ctx₁.goroutines ++
          if ctx₁.listens ctx.nextChan then [.awaitShutdown body.port ctx.nextChan] else [] } := by
    intro ctx₁
    rw [runProxy, EStateM.run_bind, EStateM.run_get]
    dsimp only
    rw [hshutdown, hport]
    dsimp only
    rw [run_ite]
    split
    · rfl
    · rw [List.append_nil]
      rfl
  rw [handleAddHttpProxy, EStateM.run_bind, hmake]
  dsimp only
  rw [EStateM.run_bind, hadd]
  dsimp only
  rw [hrun]
  rfl

/-- An unknown prefixer type is fatal to the node that applies the entry. -/
theorem completes_handleAddHttpProxy_iff {body : AddHttpProxyBody} :
    Completes (EStateM.run (handleAddHttpProxy body) ctx) ↔
      body.prefixType = typeHashPrefixer := by
  cases hnew : newHttpReverseProxy ⟨body.port, body.prefixType, []⟩ ctx.nextChan with
  | ok proxy =>
      rw [run_handleAddHttpProxy hnew]
      exact ⟨fun _ => (newHttpReverseProxy_ok hnew).1, fun _ => trivial⟩
  | error e =>
      rw [handleAddHttpProxy, EStateM.run_bind, makeProxy, EStateM.run_bind, EStateM.run_get]
      dsimp only
      rw [EStateM.run_bind, hnew]
      refine ⟨fun h => absurd h (not_completes_error _ _), fun htype => ?_⟩
      obtain ⟨proxy, hok⟩ := newHttpReverseProxy_of_type
        ⟨body.port, body.prefixType, []⟩ ctx.nextChan htype
      rw [hok] at hnew
      cases hnew

theorem run_handleAddHttpProxy_ok {body : AddHttpProxyBody}
    (hrun : EStateM.run (handleAddHttpProxy body) ctx = .ok () ctx') :
    ∃ proxy, newHttpReverseProxy ⟨body.port, body.prefixType, []⟩ ctx.nextChan = .ok proxy ∧
      ctx' = ctx.withNewProxy body.port proxy := by
  have htype := completes_handleAddHttpProxy_iff.mp (by rw [hrun]; trivial)
  obtain ⟨proxy, hnew⟩ := newHttpReverseProxy_of_type
    ⟨body.port, body.prefixType, []⟩ ctx.nextChan htype
  rw [run_handleAddHttpProxy hnew] at hrun
  cases hrun
  exact ⟨proxy, hnew, rfl⟩

/-! ## Closing -/

/-- The proxy on a port has a channel, and the goroutine receives on it. -/
def Receiver (ctx : StateContext) (port : Int) (g : Goroutine) : Prop :=
  ∃ proxy shutdown, ctx.httpReverseProxyList.lookup port = some proxy ∧
    proxy.shutdown = some shutdown ∧ ctx.goroutines.find? (Goroutine.receives shutdown) = some g

theorem run_close {g : Goroutine} (h : ctx.Receiver port g) :
    EStateM.run (close port) ctx =
      .ok () { ctx with goroutines := ctx.goroutines.erase g ++ [g.received] } := by
  obtain ⟨proxy, shutdown, hproxy, hshutdown, hfind⟩ := h
  rw [close, EStateM.run_bind, run_onProxy_get hproxy]
  dsimp only
  rw [send, EStateM.run_bind, EStateM.run_get]
  dsimp only
  rw [hshutdown, Option.bind_some, hfind]
  rfl

/-- `Close` returns when its signal is received. -/
theorem completes_close_iff :
    Completes (EStateM.run (close port) ctx) ↔ ∃ g, ctx.Receiver port g := by
  constructor
  · intro h
    rw [close, EStateM.run_bind] at h
    cases hproxy : ctx.httpReverseProxyList.lookup port with
    | none =>
        rw [run_onProxy_none hproxy] at h
        exact absurd h (not_completes_error _ _)
    | some proxy =>
        rw [run_onProxy_get hproxy] at h
        dsimp only at h
        rw [send, EStateM.run_bind, EStateM.run_get] at h
        dsimp only at h
        cases hfind : proxy.shutdown.bind fun c =>
            ctx.goroutines.find? (Goroutine.receives c) with
        | none =>
            rw [hfind] at h
            exact absurd h (not_completes_error _ _)
        | some g =>
            obtain ⟨shutdown, hshutdown, hfind⟩ := Option.bind_eq_some_iff.mp hfind
            exact ⟨g, proxy, shutdown, hproxy, hshutdown, hfind⟩
  · rintro ⟨g, hg⟩
    rw [run_close hg]
    trivial

theorem run_close_ok (hrun : EStateM.run (close port) ctx = .ok () ctx') :
    ∃ g, ctx.Receiver port g ∧
      ctx' = { ctx with goroutines := ctx.goroutines.erase g ++ [g.received] } := by
  obtain ⟨g, hg⟩ := completes_close_iff.mp (by rw [hrun]; trivial)
  rw [run_close hg] at hrun
  cases hrun
  exact ⟨g, hg, rfl⟩

theorem completes_handleRemoveHttpProxy_iff {body : RemoveHttpProxyBody} :
    Completes (EStateM.run (handleRemoveHttpProxy body) ctx) ↔
      ∃ g, ctx.Receiver body.port g := by
  rw [handleRemoveHttpProxy, EStateM.run_bind, ← completes_close_iff]
  cases EStateM.run (close body.port) ctx <;> exact Iff.rfl

theorem run_handleRemoveHttpProxy_ok {body : RemoveHttpProxyBody}
    (hrun : EStateM.run (handleRemoveHttpProxy body) ctx = .ok () ctx') :
    ∃ g, ctx.Receiver body.port g ∧
      ctx' = { ctx with
        httpReverseProxyList := ctx.httpReverseProxyList.erase body.port
        goroutines := ctx.goroutines.erase g ++ [g.received] } := by
  rw [handleRemoveHttpProxy] at hrun
  obtain ⟨u, ctx₁, hclose, hmodify⟩ := run_bind_ok hrun
  obtain ⟨g, hg, rfl⟩ := run_close_ok hclose
  cases hmodify
  exact ⟨g, hg, rfl⟩

/-! ## Sound contexts -/

/-- Every proxy is sound. -/
def Sound (ctx : StateContext) : Prop :=
  ∀ port proxy, ctx.httpReverseProxyList.lookup port = some proxy → Proxy.Sound proxy

theorem sound_newStateContext (listens : Nat → Bool) : (newStateContext listens).Sound := by
  intro port proxy h
  cases h

theorem Sound.insert (h : ctx.Sound) {proxy : HttpReverseProxy} (hproxy : Proxy.Sound proxy)
    (port : Int) (gs : List Goroutine) (n : Nat) :
    Sound { ctx with
      httpReverseProxyList := ctx.httpReverseProxyList.insert port proxy
      goroutines := gs, nextChan := n } := by
  intro q other hq
  rw [GoMap.lookup_insert_eq] at hq
  split at hq
  · cases hq
    exact hproxy
  · exact h q other hq

theorem Sound.erase (h : ctx.Sound) (port : Int) (gs : List Goroutine) :
    Sound { ctx with
      httpReverseProxyList := ctx.httpReverseProxyList.erase port, goroutines := gs } := by
  intro q other hq
  exact h q other (GoMap.lookup_erase_eq_some_iff.mp hq).2

theorem Sound.withNewProxy (h : ctx.Sound) {proxy : HttpReverseProxy}
    (hproxy : Proxy.Sound proxy) (port : Int) : (ctx.withNewProxy port proxy).Sound := by
  rw [StateContext.withNewProxy]
  split
  · exact h
  · exact h.insert hproxy port _ _

/-- An applied entry keeps every proxy sound. -/
theorem apply_sound (h : ctx.Sound) (hrun : EStateM.run (apply entry) ctx = .ok () ctx') :
    ctx'.Sound := by
  cases hcall : entry.call with
  | some target =>
      obtain ⟨port, call⟩ := target
      rw [apply_of_call hcall] at hrun
      obtain ⟨proxy, proxy', hproxy, hbody, rfl⟩ := run_onProxy_ok hrun
      exact h.insert (call.run_sound (h port proxy hproxy) hbody) port _ _
  | none =>
      rcases apply_of_no_call hcall with ⟨body, rfl⟩ | ⟨body, rfl⟩ | ⟨body, rfl, -, -, happly⟩
      · obtain ⟨proxy, hnew, rfl⟩ := run_handleAddHttpProxy_ok hrun
        exact h.withNewProxy (sound_newHttpReverseProxy hnew) body.port
      · obtain ⟨g, -, rfl⟩ := run_handleRemoveHttpProxy_ok hrun
        exact h.erase body.port _
      · rw [happly] at hrun
        obtain ⟨g, -, rfl⟩ := run_close_ok hrun
        exact h

theorem serve_sound (h : ctx.Sound) (port : Int) (peerAvailable : Bool)
    (allow : QpsRateLimiter → Bool) (r : Utils.Request) :
    (ctx.serve port peerAvailable allow r).Sound := by
  rw [serve]
  cases hproxy : ctx.httpReverseProxyList.lookup port with
  | none =>
      rw [run_onProxy_none hproxy]
      exact h
  | some proxy =>
      rw [run_onProxy_some hproxy, memory_embed]
      exact h.insert (sound_serveHTTP (h port proxy hproxy) peerAvailable allow r) port _ _

theorem finishShutdown_sound (h : ctx.Sound) (port : Int) : (finishShutdown port ctx).Sound :=
  h.erase port _

end StateContext
end Cluster
end VermouthGateway
