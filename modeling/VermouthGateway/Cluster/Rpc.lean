import VermouthGateway.Cluster.Reachable
import VermouthGateway.Cluster.StandMode

/-!
# The registration server

`rpcServer` registers an address under a prefix, takes it back, and answers
which host is next.  In cluster mode an entry that was appended has been
applied when `AppendLogEntry` returns.

* `cancel_of_listed`, `cancel_of_absent`: what `Cancel` answers in stand mode.
* `cancel_never_undoes`: it is the wrong way round, on every prefix and for
  every address.
-/

namespace VermouthGateway
namespace Cluster

open Go Proxy Balancing

structure RegisterToProxyReq where
  port : Int
  prefixPath : String
  balanceMode : String
  static : Bool
  localAddr : String
deriving DecidableEq

structure CancalReq where
  port : Int
  prefixPath : String
  localAddr : String

structure LoadBalanceReq where
  port : Int
  prefixPath : String
  fact : String

structure Res where
  message : String
deriving DecidableEq

/-- `Success`. -/
def success : String := "success"

/-- The answer of a method that failed. -/
def failed : String := "failed"

namespace Vermouth

/-- The wait in `AppendLogEntry` for the entry to be applied. -/
def awaitApplied : Eff Vermouth Unit := do
  let v ← get
  match v.mode with
  | .stand => pure ()
  | .cluster => applyLog

end Vermouth

namespace RegisterToProxyReq

/-- The method a registration calls in stand mode. -/
def stand (req : RegisterToProxyReq) (pathExists : Bool) : Eff StateContext Unit :=
  if !pathExists then
    StateContext.onProxy req.port
      (HttpReverseProxy.addPrefix req.prefixPath req.balanceMode [req.localAddr] req.static)
  else
    StateContext.onProxy req.port (HttpReverseProxy.addHost req.prefixPath req.localAddr)

/-- The entry a registration appends in cluster mode. -/
def entry (req : RegisterToProxyReq) (pathExists : Bool) : LogEntry :=
  if !pathExists then
    .addHttpProxyPrefix
      { port := req.port, prefixPath := req.prefixPath, balanceType := req.balanceMode
        proxyPass := [req.localAddr], static := req.static }
  else
    .addHttpProxyHost { port := req.port, prefixPath := req.prefixPath, host := req.localAddr }

end RegisterToProxyReq

namespace RpcServer

/-- The end of `RegisterToProxy`, on a proxy that is there. -/
def register (req : RegisterToProxyReq) : Eff Vermouth Res := do
  let pathExists ← Vermouth.onCtx
    (StateContext.onProxy req.port (HttpReverseProxy.checkPrefixExists req.prefixPath))
  -- in cluster mode the entry follows the test made here, not the state it is applied to
  let _ ← Vermouth.byMode (req.stand pathExists) (req.entry pathExists)
  Vermouth.awaitApplied
  pure ⟨success⟩

/-- `RegisterToProxy`. -/
def registerToProxy (req : RegisterToProxyReq) : Eff Vermouth Res := do
  let v ← get
  if req.port ∈ v.ctx.httpReverseProxyList then register req
  else
    match ← Vermouth.addHttpProxy ⟨req.port, "hash-prefixer"⟩ with
    | .error _ => pure ⟨failed⟩
    | .ok () =>
        Vermouth.awaitApplied
        let v ← get
        -- read again: the new proxy must be in the map by now
        if req.port ∈ v.ctx.httpReverseProxyList then register req
        else pure ⟨failed⟩

/-- `Cancel`: a prefix that is left without a host goes as well. -/
def cancel (req : CancalReq) : Eff Vermouth Res := do
  match ← Vermouth.removeHttpProxyHost ⟨req.port, req.prefixPath, req.localAddr⟩ with
  | .error _ => pure ⟨failed⟩
  | .ok () =>
      Vermouth.awaitApplied
      let hosts ← Vermouth.onCtx
        (StateContext.onProxy req.port (HttpReverseProxy.lockedGetHosts req.prefixPath))
      -- the last host takes its prefix with it
      if hosts.length = 0 then
        match ← Vermouth.removeHttpProxyPrefix ⟨req.port, req.prefixPath⟩ with
        | .error _ => pure ⟨failed⟩
        | .ok () =>
            Vermouth.awaitApplied
            pure ⟨success⟩
      else pure ⟨success⟩

/-- `LoadBalance`. -/
def loadBalance (req : LoadBalanceReq) : Eff Vermouth (Except String Res) := do
  let v ← get
  if req.port ∈ v.ctx.httpReverseProxyList then
    let addr ← Vermouth.onCtx
      (StateContext.onProxy req.port (HttpReverseProxy.loadBalance req.prefixPath req.fact))
    pure (.ok ⟨addr⟩)
  else pure (.error "proxy not exists")

end RpcServer

open RpcServer

/-- After some calls of `LoadBalance` one of them answers the address. -/
def Answers (v : Vermouth) (port : Int) (prefixPath addr : String) : Prop :=
  ∃ facts fact v₁ v₂,
    EStateM.run (forEach facts fun fact => loadBalance ⟨port, prefixPath, fact⟩) v = .ok () v₁ ∧
      EStateM.run (loadBalance ⟨port, prefixPath, fact⟩) v₁ = .ok (.ok ⟨addr⟩) v₂

/-- `Cancel` takes a listed address back, with its prefix when it was the last
one, and refuses any other. -/
structure CancelUndoes (v : Vermouth) (req : CancalReq) (hosts : List String) : Prop where
  listed : req.localAddr ∈ hosts → ∃ v' proxy',
    EStateM.run (cancel req) v = .ok ⟨success⟩ v' ∧
    v'.ctx.httpReverseProxyList.lookup req.port = some proxy' ∧
    proxy'.getHosts req.prefixPath = hosts.erase req.localAddr ∧
    req.localAddr ∉ proxy'.getHosts req.prefixPath ∧
    ¬ Answers v' req.port req.prefixPath req.localAddr ∧
    (proxy'.prefixExists req.prefixPath = false ↔ hosts = [req.localAddr])
  absent : req.localAddr ∉ hosts → EStateM.run (cancel req) v = .ok ⟨failed⟩ v

section Cancel

variable {v v' : Vermouth} {req : CancalReq} {proxy : HttpReverseProxy} {hosts : List String}

/-- A listed address is refused, and nothing happens. -/
theorem cancel_of_listed (hproxy : v.ctx.httpReverseProxyList.lookup req.port = some proxy)
    (h : Balances proxy req.prefixPath hosts) (hlisted : req.localAddr ∈ hosts) :
    EStateM.run (cancel req) v = .ok ⟨failed⟩ v := by
  have hrefused : EStateM.run (Vermouth.removeHttpProxyHost
      ⟨req.port, req.prefixPath, req.localAddr⟩) v = .ok (.error .hostNotExists) v := by
    refine Vermouth.run_withProxy_refused hproxy ?_
    dsimp only
    rw [h.hostExists, if_pos (decide_eq_true hlisted)]
  rw [cancel, EStateM.run_bind, hrefused]
  rfl

/-- In stand mode there is nothing to wait for. -/
theorem run_awaitApplied_stand (hmode : v.mode = .stand) :
    EStateM.run Vermouth.awaitApplied v = .ok () v := by
  rw [Vermouth.awaitApplied, EStateM.run_bind, EStateM.run_get]
  dsimp only
  rw [hmode]
  rfl

/-- An address that is not listed is taken back with success. -/
theorem cancel_of_absent (hmode : v.mode = .stand)
    (hproxy : v.ctx.httpReverseProxyList.lookup req.port = some proxy)
    (h : Balances proxy req.prefixPath hosts) (habsent : req.localAddr ∉ hosts) {answer : Res}
    (hrun : EStateM.run (cancel req) v = .ok answer v') : answer = ⟨success⟩ := by
  rw [cancel] at hrun
  obtain ⟨removed, v₁, hremove, hrun⟩ := run_bind_ok hrun
  have hcheck : proxy.hostExists req.prefixPath req.localAddr = false := by
    rw [h.hostExists]
    exact decide_eq_false habsent
  rw [Vermouth.removeHttpProxyHost] at hremove
  obtain ⟨rfl, proxy₁, hcall, rfl⟩ :=
    Vermouth.run_withProxy_checked hmode hproxy (by rw [hcheck]; rfl) hremove
  have h₁ := run_removeHost_balances h hcall
  have hmode₁ : (v.putProxy req.port proxy₁).mode = .stand := hmode
  dsimp only at hrun
  obtain ⟨u, v₂, hwait, hrun⟩ := run_bind_ok hrun
  rw [run_awaitApplied_stand hmode₁] at hwait
  cases hwait
  obtain ⟨hosts₁, v₃, hread, hrun⟩ := run_bind_ok hrun
  rw [Vermouth.run_onCtx_onProxy_some (Vermouth.lookup_putProxy v req.port proxy₁)] at hread
  obtain ⟨proxy₂, hgot, rfl⟩ := embed_eq_ok hread
  obtain ⟨rfl, rfl⟩ := HttpReverseProxy.run_lockedGetHosts_ok hgot
  rw [run_ite] at hrun
  -- without a host left the prefix is there to be removed
  split at hrun
  · obtain ⟨removed, v₄, hremove, hrun⟩ := run_bind_ok hrun
    rw [Vermouth.removeHttpProxyPrefix] at hremove
    have hmode₂ : ((v.putProxy req.port proxy₂).putProxy req.port proxy₂).mode = .stand := hmode
    obtain ⟨rfl, -⟩ := Vermouth.run_withProxy_checked hmode₂ (Vermouth.lookup_putProxy _ _ _)
      (by rw [h₁.prefixExists]; rfl) hremove
    dsimp only at hrun
    obtain ⟨u, v₅, -, hrun⟩ := run_bind_ok hrun
    cases hrun
    rfl
  · cases hrun
    rfl

/-- On a round-robin prefix `Cancel` never does what it is for: it refuses the
addresses that are listed and accepts the others. -/
theorem cancel_never_undoes (hmode : v.mode = .stand)
    (hproxy : v.ctx.httpReverseProxyList.lookup req.port = some proxy)
    (h : Balances proxy req.prefixPath hosts) : ¬ CancelUndoes v req hosts := by
  intro hundoes
  by_cases hlisted : req.localAddr ∈ hosts
  · obtain ⟨v', proxy', hcancel, -⟩ := hundoes.listed hlisted
    rw [cancel_of_listed hproxy h hlisted] at hcancel
    have hanswer : Res.mk failed = ⟨success⟩ := (EStateM.Result.ok.inj hcancel).1
    exact absurd hanswer (by decide)
  · have hanswer : Res.mk failed = ⟨success⟩ :=
      cancel_of_absent hmode hproxy h hlisted (hundoes.absent hlisted)
    exact absurd hanswer (by decide)

end Cancel

/-- A proxy with one registered address. -/
def oneRegistered : List LogEntry :=
  [.addHttpProxy ⟨8080, typeHashPrefixer⟩,
    .addHttpProxyPrefix ⟨8080, false, "/api", "round-robin", ["10.0.0.1:80"]⟩]

theorem run_oneRegistered : ∃ ctx proxy,
    EStateM.run (forEach oneRegistered StateContext.apply) (newStateContext fun _ => true) =
      .ok () ctx ∧
    ctx.httpReverseProxyList.lookup 8080 = some proxy ∧
    Balances proxy "/api" ["10.0.0.1:80"] :=
  ⟨_, _, rfl, rfl, ⟨_, _, rfl, rfl, rfl⟩, rfl⟩

theorem reachable_oneRegistered {ctx : StateContext}
    (hrun : EStateM.run (forEach oneRegistered StateContext.apply) (newStateContext fun _ => true) =
      .ok () ctx) : Reachable ⟨ctx, []⟩ :=
  reachable_of_run (run_of_applied hrun)

theorem cancel_never_undoes_registered : ∃ ctx, Reachable ⟨ctx, []⟩ ∧
    ¬ CancelUndoes ⟨.stand, ctx, []⟩ ⟨8080, "/api", "10.0.0.1:80"⟩ ["10.0.0.1:80"] := by
  obtain ⟨ctx, proxy, hrun, hproxy, hbalances⟩ := run_oneRegistered
  exact ⟨ctx, reachable_oneRegistered hrun, cancel_never_undoes rfl hproxy hbalances⟩

/-- The one registered address is not taken back. -/
theorem cancel_refuses_listed : ¬ ∀ (node : Node) (v : Vermouth) (req : CancalReq)
    (proxy : HttpReverseProxy) (hosts : List String), Reachable node →
    v.mode = .stand → v.ctx = node.ctx →
    v.ctx.httpReverseProxyList.lookup req.port = some proxy →
    Balances proxy req.prefixPath hosts → hosts.Nodup → CancelUndoes v req hosts := by
  intro hclaim
  obtain ⟨ctx, proxy, hrun, hproxy, hbalances⟩ := run_oneRegistered
  have hlisted : "10.0.0.1:80" ∈ ["10.0.0.1:80"] := List.mem_singleton_self _
  obtain ⟨v', proxy', hcancel, -⟩ := (hclaim ⟨ctx, []⟩ ⟨.stand, ctx, []⟩
    ⟨8080, "/api", "10.0.0.1:80"⟩ proxy ["10.0.0.1:80"] (reachable_oneRegistered hrun) rfl rfl
    hproxy hbalances (List.nodup_singleton _)).listed hlisted
  have hrefused : EStateM.run (cancel ⟨8080, "/api", "10.0.0.1:80"⟩) ⟨.stand, ctx, []⟩ =
      .ok ⟨failed⟩ ⟨.stand, ctx, []⟩ := cancel_of_listed hproxy hbalances hlisted
  rw [hrefused] at hcancel
  have hanswer : Res.mk failed = ⟨success⟩ := (EStateM.Result.ok.inj hcancel).1
  exact absurd hanswer (by decide)

end Cluster
end VermouthGateway
