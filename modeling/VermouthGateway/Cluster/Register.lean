import VermouthGateway.Cluster.Rpc

/-!
# Registrations that interleave

`RegisterToProxy` first asks whether the prefix exists and then adds the prefix
or the host; in cluster mode the second step is an entry that is applied later.
Other registrations come in between.

* `RegisterStep` has one case for each of these steps.
* `Listed` is what an acknowledged registration is owed; every step keeps it.
* `registered_are_listed`: it holds of every acknowledged registration in a run
  whose second steps find the prefix as the first ones left it.
* `registerToProxy_steps`: `RegisterToProxy` on its own takes these steps.
* `registration_lost`: two registrations of one new prefix.
-/

namespace VermouthGateway
namespace Cluster

open Go Proxy Balancing Runs

/-- The registrations on a node: between the test and the second step, in the
log, and acknowledged. -/
structure Registrations where
  ctx : StateContext
  tested : List (RegisterToProxyReq × Bool)
  raftLog : List (RegisterToProxyReq × Bool)
  acknowledged : List RegisterToProxyReq

inductive RegisterEvent
  | test (req : RegisterToProxyReq) (pathExists : Bool)
  | change (req : RegisterToProxyReq) (pathExists : Bool)
  | append (req : RegisterToProxyReq) (pathExists : Bool)
  | applied (req : RegisterToProxyReq) (pathExists : Bool)

/-- The steps of registrations on ports with a proxy.  A call that does not
return acknowledges nothing. -/
inductive RegisterStep : Mode → Registrations → RegisterEvent → Registrations → Prop
  | test {mode : Mode} {s : Registrations} {ctx : StateContext} {req : RegisterToProxyReq}
      {pathExists : Bool} (hmode : Supported req.balanceMode)
      (hrun : EStateM.run (StateContext.onProxy req.port
        (HttpReverseProxy.checkPrefixExists req.prefixPath)) s.ctx = .ok pathExists ctx) :
      RegisterStep mode s (.test req pathExists)
        { s with ctx := ctx, tested := s.tested ++ [(req, pathExists)] }
  | change {s : Registrations} {ctx : StateContext} {req : RegisterToProxyReq}
      {pathExists : Bool} (hmem : (req, pathExists) ∈ s.tested)
      (hrun : EStateM.run (req.stand pathExists) s.ctx = .ok () ctx) :
      RegisterStep .stand s (.change req pathExists)
        { s with
          ctx := ctx
          tested := s.tested.erase (req, pathExists)
          acknowledged := s.acknowledged ++ [req] }
  | append {s : Registrations} {req : RegisterToProxyReq} {pathExists : Bool}
      (hmem : (req, pathExists) ∈ s.tested) :
      RegisterStep .cluster s (.append req pathExists)
        { s with
          tested := s.tested.erase (req, pathExists)
          raftLog := s.raftLog ++ [(req, pathExists)] }
  | applied {s : Registrations} {ctx : StateContext} {req : RegisterToProxyReq}
      {pathExists : Bool} {rest : List (RegisterToProxyReq × Bool)}
      (hlog : s.raftLog = (req, pathExists) :: rest)
      (hrun : EStateM.run (StateContext.apply (req.entry pathExists)) s.ctx = .ok () ctx) :
      RegisterStep .cluster s (.applied req pathExists)
        { s with
          ctx := ctx
          raftLog := rest
          acknowledged := s.acknowledged ++ [req] }

/-- `GetHosts` of the prefix answers the address. -/
def StateContext.Listed (ctx : StateContext) (port : Int) (prefixPath addr : String) : Prop :=
  ∃ proxy, ctx.httpReverseProxyList.lookup port = some proxy ∧
    addr ∈ proxy.getHosts prefixPath

/-- Every acknowledged registration is listed. -/
def Registrations.AllListed (s : Registrations) : Prop :=
  ∀ req ∈ s.acknowledged, s.ctx.Listed req.port req.prefixPath req.localAddr

/-- The second step of a registration lists the address: the prefix it adds is
not routed, or the one it adds a host to is balanced by round robin; or the
address is listed already. -/
def RegisterToProxyReq.Lists (req : RegisterToProxyReq) (ctx : StateContext)
    (pathExists : Bool) : Prop :=
  ctx.Listed req.port req.prefixPath req.localAddr ∨
    ∃ proxy p, ctx.httpReverseProxyList.lookup req.port = some proxy ∧
      proxy.prefixMapping = some p ∧
      match pathExists with
      | false => req.prefixPath ∉ p.mapping
      | true => ∃ b, p.getBalancer req.prefixPath = some b ∧ b.mode = typeRoundRobin

/-- What an event needs to list the address it acknowledges. -/
def RegisterEvent.Lists (s : Registrations) : RegisterEvent → Prop
  | .change req pathExists => req.Lists s.ctx pathExists
  | .applied req pathExists => req.Lists s.ctx pathExists
  | _ => True

/-! ## One step -/

section Steps

variable {ctx ctx' : StateContext} {req : RegisterToProxyReq} {pathExists : Bool} {port : Int}

/-- Applying the entry of a registration does what stand mode does. -/
theorem RegisterToProxyReq.apply_entry (req : RegisterToProxyReq) (pathExists : Bool) :
    StateContext.apply (req.entry pathExists) = req.stand pathExists := by
  cases pathExists <;> rfl

/-- The test changes nothing. -/
theorem test_frame {prefixPath : String}
    (hrun : EStateM.run (StateContext.onProxy port
      (HttpReverseProxy.checkPrefixExists prefixPath)) ctx = .ok pathExists ctx') :
    ctx' = ctx := by
  obtain ⟨proxy, proxy', hproxy, hbody, rfl⟩ := StateContext.run_onProxy_ok hrun
  obtain ⟨rfl, -⟩ := HttpReverseProxy.run_checkPrefixExists_ok hbody
  rw [GoMap.insert_lookup_self hproxy]

/-- A method that keeps the hosts of its proxy keeps what is listed. -/
theorem StateContext.Listed.onProxy {body : Eff HttpReverseProxy Unit} {q : Int}
    {prefixPath addr : String} (h : ctx.Listed q prefixPath addr)
    (hrun : EStateM.run (StateContext.onProxy port body) ctx = .ok () ctx')
    (hkeeps : ∀ proxy proxy', ctx.httpReverseProxyList.lookup port = some proxy →
      EStateM.run body proxy = .ok () proxy' → addr ∈ proxy.getHosts prefixPath →
      addr ∈ proxy'.getHosts prefixPath) : ctx'.Listed q prefixPath addr := by
  obtain ⟨proxy, proxy', hproxy, hbody, rfl⟩ := StateContext.run_onProxy_ok hrun
  obtain ⟨other, hother, hmem⟩ := h
  by_cases hq : q = port
  · subst hq
    cases hproxy.symm.trans hother
    exact ⟨proxy', Finmap.lookup_insert _, hkeeps proxy proxy' hproxy hbody hmem⟩
  · refine ⟨other, ?_, hmem⟩
    dsimp only
    rw [GoMap.lookup_insert_eq, if_neg hq]
    exact hother

/-- The second step keeps everything that is listed. -/
theorem listed_stand (h : ctx.Sound)
    (hrun : EStateM.run (req.stand pathExists) ctx = .ok () ctx') {q : Int}
    {prefixPath addr : String} (hlisted : ctx.Listed q prefixPath addr) :
    ctx'.Listed q prefixPath addr := by
  cases pathExists with
  | false =>
      refine hlisted.onProxy hrun fun proxy proxy' hproxy hbody hmem => ?_
      obtain ⟨p, hcopies⟩ := (h _ proxy hproxy).copies
      exact mem_getHosts_addPrefix hcopies hbody hmem
  | true =>
      refine hlisted.onProxy hrun fun proxy proxy' hproxy hbody hmem => ?_
      obtain ⟨p, hcopies⟩ := (h _ proxy hproxy).copies
      exact mem_getHosts_addHost hcopies hbody hmem

/-- Under its condition the second step lists the address. -/
theorem listed_stand_self (h : ctx.Sound) (hlists : req.Lists ctx pathExists)
    (hrun : EStateM.run (req.stand pathExists) ctx = .ok () ctx') :
    ctx'.Listed req.port req.prefixPath req.localAddr := by
  rcases hlists with hlisted | ⟨proxy, p, hproxy, hp, hcase⟩
  · exact listed_stand h hrun hlisted
  obtain ⟨p', hcopies⟩ := (h _ proxy hproxy).copies
  cases hp.symm.trans hcopies.router
  cases pathExists with
  | false =>
      obtain ⟨found, proxy', hfound, hbody, rfl⟩ := StateContext.run_onProxy_ok hrun
      cases hproxy.symm.trans hfound
      refine ⟨proxy', Finmap.lookup_insert _, ?_⟩
      rw [getHosts_addPrefix_new hcopies hcase hbody]
      exact List.mem_singleton_self _
  | true =>
      obtain ⟨b, hb, hmode⟩ := hcase
      obtain ⟨found, proxy', hfound, hbody, rfl⟩ := StateContext.run_onProxy_ok hrun
      cases hproxy.symm.trans hfound
      exact ⟨proxy', Finmap.lookup_insert _, mem_getHosts_addHost_self hcopies hb hmode hbody⟩

theorem sound_stand (h : ctx.Sound)
    (hrun : EStateM.run (req.stand pathExists) ctx = .ok () ctx') : ctx'.Sound := by
  rw [← req.apply_entry] at hrun
  exact StateContext.apply_sound h hrun

end Steps

/-- The proxies are sound and every acknowledged registration is listed. -/
structure Registrations.Kept (s : Registrations) : Prop where
  sound : s.ctx.Sound
  listed : s.AllListed

namespace Registrations

/-- The second step of a registration, whichever way it comes. -/
theorem Kept.acknowledge {s : Registrations} (h : s.Kept) {ctx : StateContext}
    {req : RegisterToProxyReq} {pathExists : Bool} (hlists : req.Lists s.ctx pathExists)
    (hrun : EStateM.run (req.stand pathExists) s.ctx = .ok () ctx)
    (tested raftLog : List (RegisterToProxyReq × Bool)) :
    Kept ⟨ctx, tested, raftLog, s.acknowledged ++ [req]⟩ where
  sound := sound_stand h.sound hrun
  listed other hother := by
    rcases List.mem_append.mp hother with hold | hnew
    · exact listed_stand h.sound hrun (h.listed other hold)
    · obtain rfl := List.mem_singleton.mp hnew
      exact listed_stand_self h.sound hlists hrun

theorem Kept.step {mode : Mode} {s s' : Registrations} {event : RegisterEvent} (h : s.Kept)
    (hstep : RegisterStep mode s event s') (hlists : event.Lists s) : s'.Kept := by
  cases hstep with
  | test hmode hrun =>
      obtain rfl := test_frame hrun
      exact ⟨h.sound, h.listed⟩
  | change hmem hrun => exact h.acknowledge hlists hrun _ _
  | append hmem => exact ⟨h.sound, h.listed⟩
  | @applied s ctx req pathExists rest hlog hrun =>
      rw [req.apply_entry] at hrun
      exact h.acknowledge hlists hrun _ _

end Registrations

/-! ## One registration alone -/

section Alone

variable {v v' : Vermouth} {req : RegisterToProxyReq} {pathExists : Bool}

/-- The switch and the wait after it: in cluster mode the one entry in the log is
applied. -/
theorem run_byMode_awaitApplied (hlog : v.raftLog = []) {answer : Res}
    (hrun : EStateM.run (do
      let _ ← Vermouth.byMode (req.stand pathExists) (req.entry pathExists)
      Vermouth.awaitApplied
      pure (⟨success⟩ : Res)) v = .ok answer v') :
    ∃ ctx, EStateM.run (req.stand pathExists) v.ctx = .ok () ctx ∧
      v' = { v with ctx := ctx } ∧ answer = ⟨success⟩ := by
  obtain ⟨mode, ctx₀, raftLog⟩ := v
  obtain rfl : raftLog = [] := hlog
  obtain ⟨u, v₁, hswitch, hrun⟩ := run_bind_ok hrun
  obtain ⟨u', v₂, hwait, hrun⟩ := run_bind_ok hrun
  cases hrun
  cases mode with
  | stand =>
      obtain ⟨u'', v₃, hstand, hrun⟩ := run_bind_ok
        (show EStateM.run (Vermouth.onCtx (req.stand pathExists) >>= fun _ => pure (.ok ()))
          ⟨.stand, ctx₀, []⟩ = .ok u v₁ from hswitch)
      cases hrun
      obtain ⟨ctx, ctx', hctx, hbody, rfl⟩ := run_focus_ok hstand
      cases hctx
      cases hwait
      exact ⟨ctx', hbody, rfl, rfl⟩
  | cluster =>
      cases hswitch
      -- the log holds this entry alone, so the wait applies it at once
      have happly : EStateM.run Vermouth.awaitApplied ⟨.cluster, ctx₀, [req.entry pathExists]⟩ =
          embed (fun ctx => ⟨.cluster, ctx, []⟩)
            (EStateM.run (forEach [req.entry pathExists] StateContext.apply) ctx₀) := rfl
      obtain ⟨ctx, hlog, rfl⟩ := embed_eq_ok (happly.symm.trans hwait)
      rw [run_forEach_cons, req.apply_entry] at hlog
      cases hbody : EStateM.run (req.stand pathExists) ctx₀ with
      | error e ctx₁ =>
          rw [hbody] at hlog
          cases hlog
      | ok u'' ctx₁ =>
          rw [hbody] at hlog
          cases hlog
          exact ⟨ctx, rfl, rfl, rfl⟩

/-- On a port with a proxy a registration that runs alone is a test and a second
step, in either mode; it answers success. -/
theorem registerToProxy_steps (hsupported : Supported req.balanceMode) (hlog : v.raftLog = [])
    (hport : req.port ∈ v.ctx.httpReverseProxyList) {answer : Res}
    (hrun : EStateM.run (RpcServer.registerToProxy req) v = .ok answer v') :
    answer = ⟨success⟩ ∧ ∃ events,
      Run (RegisterStep v.mode) ⟨v.ctx, [], [], []⟩ events ⟨v'.ctx, [], [], [req]⟩ := by
  rw [RpcServer.registerToProxy, EStateM.run_bind, EStateM.run_get] at hrun
  dsimp only at hrun
  rw [run_ite, if_pos hport, RpcServer.register] at hrun
  obtain ⟨pathExists, v₁, htest, hrun⟩ := run_bind_ok hrun
  obtain ⟨ctx₀, ctx₁, hctx, htest, rfl⟩ := run_focus_ok htest
  cases hctx
  have hlog₁ : Vermouth.raftLog { v with ctx := ctx₁ } = [] := hlog
  obtain ⟨ctx, hsecond, rfl, rfl⟩ := run_byMode_awaitApplied hlog₁ hrun
  have hfirst : RegisterStep v.mode ⟨v.ctx, [], [], []⟩ (.test req pathExists)
      ⟨ctx₁, [(req, pathExists)], [], []⟩ := .test hsupported htest
  refine ⟨rfl, ?_⟩
  obtain ⟨mode, ctx₀, raftLog⟩ := v
  cases mode with
  | stand =>
      have hchange : RegisterStep .stand ⟨ctx₁, [(req, pathExists)], [], []⟩
          (.change req pathExists)
          ⟨ctx, [(req, pathExists)].erase (req, pathExists), [], [req]⟩ :=
        .change List.mem_cons_self hsecond
      rw [List.erase_cons_head] at hchange
      exact ⟨_, .cons hfirst (.single hchange)⟩
  | cluster =>
      have happend : RegisterStep .cluster ⟨ctx₁, [(req, pathExists)], [], []⟩
          (.append req pathExists)
          ⟨ctx₁, [(req, pathExists)].erase (req, pathExists), [(req, pathExists)], []⟩ :=
        .append List.mem_cons_self
      rw [List.erase_cons_head] at happend
      have happlied : RegisterStep .cluster ⟨ctx₁, [], [(req, pathExists)], []⟩
          (.applied req pathExists) ⟨ctx, [], [], [req]⟩ :=
        .applied rfl ((congrArg (EStateM.run · ctx₁) (req.apply_entry pathExists)).trans hsecond)
      exact ⟨_, .cons hfirst (.cons happend (.single happlied))⟩

end Alone

/-! ## Runs -/

/-- A step that lists the address it acknowledges. -/
def ListingStep (mode : Mode) (s : Registrations) (event : RegisterEvent) (s' : Registrations) :
    Prop :=
  event.Lists s ∧ RegisterStep mode s event s'

/-- In every run of registrations, in either mode and from any reachable state,
whose second steps meet their condition, every acknowledged address is
listed. -/
theorem registered_are_listed {mode : Mode} {node : Node} {events : List RegisterEvent}
    {s : Registrations} (hreachable : Reachable node)
    (hrun : Run (ListingStep mode) ⟨node.ctx, [], [], []⟩ events s) : s.AllListed := by
  have hstart : Registrations.Kept ⟨node.ctx, [], [], []⟩ :=
    ⟨hreachable.sound, fun req hreq => absurd hreq List.not_mem_nil⟩
  have hkept : s.Kept := Run.invariant (P := Registrations.Kept)
    (fun _ _ _ h hstep => h.step hstep.2 hstep.1) hrun hstart
  exact hkept.listed

/-- A registration of an address under `/api`. -/
def apiRegistration (localAddr : String) : RegisterToProxyReq :=
  ⟨8080, "/api", "round-robin", false, localAddr⟩

/-- Two registrations that both find no prefix, one after the other. -/
theorem run_two_registrations : ∃ node ctx proxy p, Reachable node ∧
    node.ctx.httpReverseProxyList.lookup 8080 = some proxy ∧
    proxy.prefixMapping = some p ∧ "/api" ∉ p.mapping ∧
    EStateM.run (StateContext.onProxy 8080 (HttpReverseProxy.checkPrefixExists "/api")) node.ctx =
      .ok false node.ctx ∧
    EStateM.run ((apiRegistration "10.0.0.1:80").stand false) node.ctx = .ok () ctx ∧
    EStateM.run ((apiRegistration "10.0.0.2:80").stand false) ctx = .ok () ctx ∧
    (ctx.httpReverseProxyList.lookup 8080).map (HttpReverseProxy.getHosts · "/api") =
      some ["10.0.0.1:80"] := by
  obtain ⟨proxy, hnew⟩ : ∃ proxy,
      newHttpReverseProxy ⟨8080, typeHashPrefixer, []⟩ 0 = .ok proxy := ⟨_, rfl⟩
  have hreachable := reachable_nodeWith hnew
  cases hnew
  exact ⟨_, _, _, newHashPrefixer, hreachable, rfl, rfl, Finmap.notMem_empty, rfl, rfl, rfl, rfl⟩

/-- A registration of an address under another prefix. -/
def usersRegistration : RegisterToProxyReq :=
  ⟨8080, "/users", "round-robin", true, "10.0.0.2:80"⟩

/-- Both find no prefix, and each adds its own. -/
theorem two_prefixes : ∃ node ctx₁ ctx₂, Reachable node ∧
    EStateM.run (StateContext.onProxy 8080 (HttpReverseProxy.checkPrefixExists "/api")) node.ctx =
      .ok false node.ctx ∧
    EStateM.run (StateContext.onProxy 8080 (HttpReverseProxy.checkPrefixExists "/users"))
      node.ctx = .ok false node.ctx ∧
    usersRegistration.Lists node.ctx false ∧
    EStateM.run (StateContext.apply (usersRegistration.entry false)) node.ctx = .ok () ctx₁ ∧
    (apiRegistration "10.0.0.1:80").Lists ctx₁ false ∧
    EStateM.run (StateContext.apply ((apiRegistration "10.0.0.1:80").entry false)) ctx₁ =
      .ok () ctx₂ := by
  obtain ⟨proxy, hnew⟩ : ∃ proxy,
      newHttpReverseProxy ⟨8080, typeHashPrefixer, []⟩ 0 = .ok proxy := ⟨_, rfl⟩
  have hreachable := reachable_nodeWith hnew
  cases hnew
  have hnone : ∀ q, q ∉ newHashPrefixer.mapping := fun q => Finmap.notMem_empty
  refine ⟨_, _, _, hreachable, rfl, rfl, Or.inr ⟨_, newHashPrefixer, rfl, rfl, hnone _⟩, rfl,
    Or.inr ⟨_, _, rfl, rfl, fun hmem => ?_⟩, rfl⟩
  change "/api" ∈ newHashPrefixer.mapping.insert "/users" _ at hmem
  exact (Finmap.mem_insert.mp hmem).elim (by decide) (hnone _)

/-- In cluster mode both are tested, then both appended and then both applied. -/
theorem registered_are_listed_interleaved : ∃ node s, Reachable node ∧
    Run (ListingStep .cluster) ⟨node.ctx, [], [], []⟩
      [.test (apiRegistration "10.0.0.1:80") false, .test usersRegistration false,
        .append usersRegistration false, .append (apiRegistration "10.0.0.1:80") false,
        .applied usersRegistration false, .applied (apiRegistration "10.0.0.1:80") false] s ∧
    s.acknowledged = [usersRegistration, apiRegistration "10.0.0.1:80"] ∧ s.AllListed := by
  obtain ⟨node, ctx₁, ctx₂, hreachable, hapi, husers, hlists, happly, hlists', happly'⟩ :=
    two_prefixes
  have htests : Run (ListingStep .cluster) ⟨node.ctx, [], [], []⟩
      [.test (apiRegistration "10.0.0.1:80") false, .test usersRegistration false]
      ⟨node.ctx, [(apiRegistration "10.0.0.1:80", false), (usersRegistration, false)], [], []⟩ :=
    .cons ⟨trivial, .test (Or.inl rfl) hapi⟩
      (.single ⟨trivial, .test (s := ⟨node.ctx, _, _, _⟩) (Or.inl rfl) husers⟩)
  have happends : Run (ListingStep .cluster)
      ⟨node.ctx, [(apiRegistration "10.0.0.1:80", false), (usersRegistration, false)], [], []⟩
      [.append usersRegistration false, .append (apiRegistration "10.0.0.1:80") false]
      ⟨node.ctx, [], [(usersRegistration, false), (apiRegistration "10.0.0.1:80", false)], []⟩ :=
    .cons ⟨trivial, .append (List.mem_cons_of_mem _ List.mem_cons_self)⟩
      (.single ⟨trivial, .append (s := ⟨_, [(apiRegistration "10.0.0.1:80", false)], _, _⟩)
        List.mem_cons_self⟩)
  have happlies : Run (ListingStep .cluster)
      ⟨node.ctx, [], [(usersRegistration, false), (apiRegistration "10.0.0.1:80", false)], []⟩
      [.applied usersRegistration false, .applied (apiRegistration "10.0.0.1:80") false]
      ⟨ctx₂, [], [], [usersRegistration, apiRegistration "10.0.0.1:80"]⟩ :=
    .cons ⟨hlists, .applied rfl happly⟩
      (.single ⟨hlists', .applied (s := ⟨ctx₁, _, _, _⟩) rfl happly'⟩)
  have hrun := htests.append (happends.append happlies)
  exact ⟨node, _, hreachable, hrun, rfl, registered_are_listed hreachable hrun⟩

/-- Both registrations find no prefix; the second `AddPrefix` returns without a
word, and its address is in no list. -/
theorem registration_lost : ¬ ∀ (mode : Mode) (node : Node) (events : List RegisterEvent)
    (s : Registrations), Reachable node →
    Run (RegisterStep mode) ⟨node.ctx, [], [], []⟩ events s →
    s.tested = [] → s.raftLog = [] → s.AllListed := by
  intro hclaim
  obtain ⟨node, ctx, proxy, p, hreachable, -, -, -, htest, hfirst, hsecond, hhosts⟩ :=
    run_two_registrations
  have htests : Run (RegisterStep .stand) ⟨node.ctx, [], [], []⟩
      [.test (apiRegistration "10.0.0.1:80") false, .test (apiRegistration "10.0.0.2:80") false]
      ⟨node.ctx, [(apiRegistration "10.0.0.1:80", false), (apiRegistration "10.0.0.2:80", false)],
        [], []⟩ :=
    .cons (.test (Or.inl rfl) htest) (.single (.test (s := ⟨node.ctx, _, _, _⟩) (Or.inl rfl) htest))
  have hchanges : Run (RegisterStep .stand)
      ⟨node.ctx, [(apiRegistration "10.0.0.1:80", false), (apiRegistration "10.0.0.2:80", false)],
        [], []⟩
      [.change (apiRegistration "10.0.0.1:80") false, .change (apiRegistration "10.0.0.2:80") false]
      ⟨ctx, [], [], [apiRegistration "10.0.0.1:80", apiRegistration "10.0.0.2:80"]⟩ :=
    .cons (.change (s := ⟨node.ctx, _, _, _⟩) List.mem_cons_self hfirst)
      (.single (.change (s := ⟨ctx, [(apiRegistration "10.0.0.2:80", false)], _, _⟩)
        List.mem_cons_self hsecond))
  -- the second address is acknowledged, but the prefix was routed when it was added
  obtain ⟨proxy', hproxy', hmem⟩ := hclaim .stand node _ _ hreachable (htests.append hchanges)
    rfl rfl (apiRegistration "10.0.0.2:80") (List.mem_cons_of_mem _ List.mem_cons_self)
  dsimp only at hproxy'
  rw [show (apiRegistration "10.0.0.2:80").port = 8080 from rfl] at hproxy'
  rw [hproxy', Option.map_some] at hhosts
  have hlist : proxy'.getHosts (apiRegistration "10.0.0.2:80").prefixPath = ["10.0.0.1:80"] :=
    Option.some.inj hhosts
  rw [hlist] at hmem
  revert hmem
  decide

end Cluster
end VermouthGateway
