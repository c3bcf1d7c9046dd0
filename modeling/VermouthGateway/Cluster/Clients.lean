import VermouthGateway.Cluster.Register
import VermouthGateway.Cluster.Watches

/-!
# Clients of the registration server

A client registers its address and, when it is interrupted, cancels the
registration and exits.  The server serves the calls of all clients at once: a
handler reads the state, and what it decides to change is changed later, when its
goroutine goes on or when its entry is applied.

* `RpcHandlerStep`: the handlers of `RegisterToProxy` and `Cancel`, in either mode,
  with `LoadBalance` and the requests that are forwarded in between.
* `registered_for_good`: an address that is listed stays listed, whatever calls
  come, and every client that cancels it is refused and exits with status 1.
-/

namespace VermouthGateway
namespace Proxy

open Go Balancing

section Leaves

variable {prefixPath addr : String}

/-- A call that leaves the address under the prefix. -/
def RoutingCall.Leaves (prefixPath addr : String) : RoutingCall → Prop
  | .removePrefix q => q ≠ prefixPath
  | .removeHost q host => ¬ (q = prefixPath ∧ host = addr)
  | _ => True

/-- A view that has the address keeps it under such a call. -/
theorem RoutingCall.route_leaves (call : RoutingCall) (hleaves : call.Leaves prefixPath addr)
    {R : Routing} {v : View} (hv : R.routes.lookup prefixPath = some v) (hmem : addr ∈ v.hosts) :
    ∃ v', (call.route R).routes.lookup prefixPath = some v' ∧ addr ∈ v'.hosts := by
  -- another view on a routed prefix
  have honRoute : ∀ q f, (q = prefixPath → addr ∈ (f v).hosts) →
      ∃ v', (R.onRoute q f).routes.lookup prefixPath = some v' ∧ addr ∈ v'.hosts := by
    intro q f hf
    by_cases hq : prefixPath = q
    · subst hq
      rw [Routing.onRoute_of_lookup hv]
      exact ⟨f v, Finmap.lookup_insert _, hf rfl⟩
    · refine ⟨v, ?_, hmem⟩
      rw [Routing.onRoute]
      split
      · exact hv
      · rw [GoMap.lookup_insert_eq, if_neg hq, hv]
  cases call with
  | addPrefix q algo hosts isStatic =>
      rw [RoutingCall.route]
      split
      · exact ⟨v, hv, hmem⟩
      next hnew =>
        have hne : prefixPath ≠ q := by
          rintro rfl
          exact hnew (Finmap.mem_iff.mpr ⟨v, hv⟩)
        refine ⟨v, ?_, hmem⟩
        dsimp only
        rw [GoMap.lookup_insert_eq, if_neg hne, hv]
  | removePrefix q =>
      refine ⟨v, ?_, hmem⟩
      rw [RoutingCall.route]
      dsimp only
      rw [GoMap.lookup_erase_eq, if_neg fun heq => hleaves heq.symm, hv]
  | addHost q host =>
      refine honRoute q (fun v => v.add host) fun _ => ?_
      rw [View.add]
      split
      · exact mem_addedHosts.mpr (Or.inl hmem)
      · exact hmem
  | removeHost q host =>
      refine honRoute q (fun v => v.remove host) fun hq => ?_
      exact (List.mem_erase_of_ne fun heq => hleaves ⟨hq, heq.symm⟩).mpr hmem
  | changeStatic q => exact ⟨v, hv, hmem⟩
  | changeLb q lb => exact honRoute q (fun v => ⟨lb, v.hosts⟩) fun _ => hmem

end Leaves

end Proxy

namespace Cluster

open Go Proxy Balancing Runs

/-! ## The client -/

/-- What the client remembers of its last registration. -/
structure RpcClient where
  port : Int
  prefixPath : String
  localAddr : String

/-- The request of `RpcClient.RegisterToProxy`. -/
def registerReq (port : Int) (prefixPath addr : String) (opt : List String) :
    RegisterToProxyReq where
  port := port
  prefixPath := prefixPath
  balanceMode := opt.headD "round-robin"
  static := false
  localAddr := addr

/-- The request of `RpcClient.Cancel`. -/
def RpcClient.cancelReq (client : RpcClient) : CancalReq :=
  ⟨client.port, client.prefixPath, client.localAddr⟩

/-- The error that the client makes of an answer. -/
def clientError (res : Res) : Option String :=
  if res.message ≠ success then
    some "server has encounter some error, please check server log"
  else none

/-- How the client exits when it is interrupted, by the answer to its `Cancel`. -/
def exitStatus (res : Res) : Nat :=
  match clientError res with
  | some _ => 1
  | none => 0

/-! ## The handlers -/

deriving instance DecidableEq for CancalReq

/-- Where the handler of a call is. -/
inductive RpcHandler
  /-- `RegisterToProxy` has found no proxy, and adds one. -/
  | creating (req : RegisterToProxyReq)
  /-- It has asked whether the prefix exists. -/
  | registering (req : RegisterToProxyReq) (pathExists : Bool)
  /-- `Cancel` has passed the check of `removeHttpProxyHost`. -/
  | removing (req : CancalReq)
  /-- The host is removed, and the hosts that are left are read next. -/
  | reading (req : CancalReq)
  /-- There are none, and `removeHttpProxyPrefix` is called. -/
  | emptied (req : CancalReq)
  /-- It has passed its check. -/
  | pruning (req : CancalReq)
deriving DecidableEq

/-- The change that the handler has decided on, as an entry. -/
def RpcHandler.entry : RpcHandler → Option LogEntry
  | .creating req => some (.addHttpProxy ⟨req.port, "hash-prefixer"⟩)
  | .registering req pathExists => some (req.entry pathExists)
  | .removing req => some (.rmvHttpProxyHost ⟨req.port, req.prefixPath, req.localAddr⟩)
  | .pruning req => some (.rmvHttpProxyPrefix ⟨req.port, req.prefixPath⟩)
  | _ => none

structure Serving where
  ctx : StateContext
  handlers : List RpcHandler

inductive RpcHandlerEvent
  | registerCalled (req : RegisterToProxyReq)
  | created (req : RegisterToProxyReq)
  | registered (req : RegisterToProxyReq) (pathExists : Bool)
  | cancelCalled (req : CancalReq)
  | removed (req : CancalReq)
  | hostsRead (req : CancalReq)
  | prefixChecked (req : CancalReq)
  | pruned (req : CancalReq)
  | balanced (req : LoadBalanceReq)
  | served (port : Int) (r : Utils.Request)

/-- The steps of the handlers.  The change that a handler has decided on is made
at any later time: by its goroutine in stand mode, and in cluster mode when the log
has come to its entry. -/
inductive RpcHandlerStep : Serving → RpcHandlerEvent → Serving → Prop
  | missing {s : Serving} {req : RegisterToProxyReq}
      (hport : req.port ∉ s.ctx.httpReverseProxyList) :
      RpcHandlerStep s (.registerCalled req) { s with handlers := s.handlers ++ [.creating req] }
  | created {s : Serving} {req : RegisterToProxyReq} {ctx : StateContext}
      (hmem : .creating req ∈ s.handlers)
      (hrun : EStateM.run (StateContext.apply (.addHttpProxy ⟨req.port, "hash-prefixer"⟩))
        s.ctx = .ok () ctx) :
      RpcHandlerStep s (.created req) ⟨ctx, s.handlers.erase (.creating req)⟩
  -- also for a handler that has added the proxy itself
  | tested {s : Serving} {req : RegisterToProxyReq} {ctx : StateContext} {pathExists : Bool}
      (hrun : EStateM.run (StateContext.onProxy req.port
        (HttpReverseProxy.checkPrefixExists req.prefixPath)) s.ctx = .ok pathExists ctx) :
      RpcHandlerStep s (.registerCalled req) ⟨ctx, s.handlers ++ [.registering req pathExists]⟩
  | registered {s : Serving} {req : RegisterToProxyReq} {pathExists : Bool} {ctx : StateContext}
      (hmem : .registering req pathExists ∈ s.handlers)
      (hrun : EStateM.run (StateContext.apply (req.entry pathExists)) s.ctx = .ok () ctx) :
      RpcHandlerStep s (.registered req pathExists)
        ⟨ctx, s.handlers.erase (.registering req pathExists)⟩
  | cancelCalled {s : Serving} {req : CancalReq} {proxy : HttpReverseProxy}
      (hproxy : s.ctx.httpReverseProxyList.lookup req.port = some proxy)
      (hcheck : proxy.hostExists req.prefixPath req.localAddr = false) :
      RpcHandlerStep s (.cancelCalled req) { s with handlers := s.handlers ++ [.removing req] }
  | removed {s : Serving} {req : CancalReq} {ctx : StateContext}
      (hmem : .removing req ∈ s.handlers)
      (hrun : EStateM.run (StateContext.apply
        (.rmvHttpProxyHost ⟨req.port, req.prefixPath, req.localAddr⟩)) s.ctx = .ok () ctx) :
      RpcHandlerStep s (.removed req) ⟨ctx, s.handlers.erase (.removing req) ++ [.reading req]⟩
  | hostsLeft {s : Serving} {req : CancalReq} {proxy : HttpReverseProxy}
      (hmem : .reading req ∈ s.handlers)
      (hproxy : s.ctx.httpReverseProxyList.lookup req.port = some proxy)
      (hhosts : proxy.getHosts req.prefixPath ≠ []) :
      RpcHandlerStep s (.hostsRead req) { s with handlers := s.handlers.erase (.reading req) }
  | noHosts {s : Serving} {req : CancalReq} {proxy : HttpReverseProxy}
      (hmem : .reading req ∈ s.handlers)
      (hproxy : s.ctx.httpReverseProxyList.lookup req.port = some proxy)
      (hhosts : proxy.getHosts req.prefixPath = []) :
      RpcHandlerStep s (.hostsRead req)
        { s with handlers := s.handlers.erase (.reading req) ++ [.emptied req] }
  | prefixChecked {s : Serving} {req : CancalReq} {proxy : HttpReverseProxy}
      (hmem : .emptied req ∈ s.handlers)
      (hproxy : s.ctx.httpReverseProxyList.lookup req.port = some proxy)
      (hcheck : proxy.prefixExists req.prefixPath = true) :
      RpcHandlerStep s (.prefixChecked req)
        { s with handlers := s.handlers.erase (.emptied req) ++ [.pruning req] }
  | pruned {s : Serving} {req : CancalReq} {ctx : StateContext}
      (hmem : .pruning req ∈ s.handlers)
      (hrun : EStateM.run (StateContext.apply (.rmvHttpProxyPrefix ⟨req.port, req.prefixPath⟩))
        s.ctx = .ok () ctx) :
      RpcHandlerStep s (.pruned req) ⟨ctx, s.handlers.erase (.pruning req)⟩
  | balanced {s : Serving} {req : LoadBalanceReq} {addr : String} {ctx : StateContext}
      (hrun : EStateM.run (StateContext.onProxy req.port
        (HttpReverseProxy.loadBalance req.prefixPath req.fact)) s.ctx = .ok addr ctx) :
      RpcHandlerStep s (.balanced req) { s with ctx := ctx }
  | served (s : Serving) (port : Int) (peerAvailable : Bool) (allow : QpsRateLimiter → Bool)
      (r : Utils.Request) :
      RpcHandlerStep s (.served port r) { s with ctx := s.ctx.serve port peerAvailable allow r }

/-! ## What keeps an address listed -/

section Views

variable {port : Int} {prefixPath addr : String}

/-- The view of the prefix has the address. -/
def GatewayRouting.Lists (G : GatewayRouting) (port : Int) (prefixPath addr : String) : Prop :=
  ∃ v, G.view port prefixPath = some v ∧ addr ∈ v.hosts

/-- What is listed is what is routed. -/
theorem listed_iff {ctx : StateContext} {G : GatewayRouting} (h : Routed ctx G) :
    ctx.Listed port prefixPath addr ↔ G.Lists port prefixPath addr := by
  have hhosts : ∀ {proxy R}, Represents proxy R → proxy.getHosts prefixPath =
      ((R.routes.lookup prefixPath).map View.hosts).getD [] := by
    intro proxy R hrep
    obtain ⟨p, hp, hroutes⟩ := hrep.mirrors
    rw [HttpReverseProxy.getHosts, GoMap.get, hp.paths, hroutes]
  constructor
  · rintro ⟨proxy, hproxy, hmem⟩
    obtain ⟨R, hR, hrep⟩ := h.lookup hproxy
    rw [hhosts hrep] at hmem
    cases hv : R.routes.lookup prefixPath with
    | none =>
        rw [hv] at hmem
        cases hmem
    | some v =>
        rw [hv] at hmem
        exact ⟨v, by rw [GatewayRouting.view, hR, Option.bind_some, hv], hmem⟩
  · rintro ⟨v, hview, hmem⟩
    obtain ⟨R, hR, hv⟩ := Option.bind_eq_some_iff.mp hview
    obtain ⟨proxy, hproxy⟩ :=
      Finmap.mem_iff.mp ((h.mem_iff port).mpr (Finmap.mem_iff.mpr ⟨R, hR⟩))
    obtain ⟨R', hR', hrep⟩ := h.lookup hproxy
    cases hR.symm.trans hR'
    refine ⟨proxy, hproxy, ?_⟩
    rw [hhosts hrep, hv]
    exact hmem

/-- An entry that leaves the address under the prefix of the port. -/
def LogEntry.Leaves (port : Int) (prefixPath addr : String) (entry : LogEntry) : Prop :=
  match entry.call with
  | some (p, .routing call) => p = port → call.Leaves prefixPath addr
  | some _ => True
  | none => ∀ body, entry = .rmvHttpProxy body → body.port ≠ port

theorem GatewayRouting.Lists.route {G : GatewayRouting} {entry : LogEntry}
    (h : G.Lists port prefixPath addr) (hleaves : entry.Leaves port prefixPath addr) :
    (entry.route G).Lists port prefixPath addr := by
  obtain ⟨v, hview, hmem⟩ := h
  obtain ⟨R, hR, hv⟩ := Option.bind_eq_some_iff.mp hview
  cases hcall : entry.call with
  | some target =>
      obtain ⟨p, call⟩ := target
      cases hp : G.lookup p with
      | none =>
          have hsame : entry.route G = G := by
            simp only [LogEntry.route, hcall, GatewayRouting.onPort, hp]
          rw [hsame]
          exact ⟨v, hview, hmem⟩
      | some R' =>
          rw [LogEntry.route_of_call hcall hp, GatewayRouting.Lists, view_insert]
          by_cases hport : port = p
          · subst hport
            cases hR.symm.trans hp
            rw [if_pos rfl]
            cases call with
            | routing call =>
                rw [LogEntry.Leaves, hcall] at hleaves
                exact call.route_leaves (hleaves rfl) hv hmem
            | _ => exact ⟨v, hv, hmem⟩
          · rw [if_neg hport]
            exact ⟨v, hview, hmem⟩
  | none =>
      rcases StateContext.apply_of_no_call hcall with
        ⟨body, rfl⟩ | ⟨body, rfl⟩ | ⟨body, rfl, -, -, -⟩
      · refine ⟨v, ?_, hmem⟩
        show (G.offer body.port .empty).view port prefixPath = some v
        rw [GatewayRouting.offer]
        split
        · exact hview
        next hnew =>
          have hne : port ≠ body.port := by
            rintro rfl
            exact hnew (Finmap.mem_iff.mpr ⟨R, hR⟩)
          rw [view_insert, if_neg hne, hview]
      · have hne : port ≠ body.port := by
          rw [LogEntry.Leaves, hcall] at hleaves
          exact fun heq => hleaves body rfl heq.symm
        refine ⟨v, ?_, hmem⟩
        have herase : (LogEntry.rmvHttpProxy body).route G = Finmap.erase body.port G := rfl
        rw [herase, GatewayRouting.view, GoMap.lookup_erase_eq, if_neg hne, hR, Option.bind_some,
          hv]
      · have hsame : (LogEntry.chgState body).route G = G := by
          simp only [LogEntry.route, hcall]
        rw [hsame]
        exact ⟨v, hview, hmem⟩

end Views

/-! ## Runs -/

section Runs

variable {port : Int} {prefixPath addr : String} {s s' : Serving}

/-- The handler is about to take the address or its prefix away. -/
def RpcHandler.Against (port : Int) (prefixPath addr : String) : RpcHandler → Prop
  | .removing req => req = ⟨port, prefixPath, addr⟩
  | .emptied req | .pruning req => req.port = port ∧ req.prefixPath = prefixPath
  | _ => False

/-- The address is listed, and no handler is about to take it away. -/
structure Settled (port : Int) (prefixPath addr : String) (s : Serving) : Prop where
  listed : s.ctx.Listed port prefixPath addr
  handlers : ∀ h ∈ s.handlers, ¬ h.Against port prefixPath addr

theorem listed_proxy {ctx : StateContext} (h : ctx.Listed port prefixPath addr)
    {proxy : HttpReverseProxy} (hproxy : ctx.httpReverseProxyList.lookup port = some proxy) :
    addr ∈ proxy.getHosts prefixPath := by
  obtain ⟨proxy', hproxy', hmem⟩ := h
  cases hproxy.symm.trans hproxy'
  exact hmem

theorem hostExists_of_listed {proxy : HttpReverseProxy}
    (hmem : addr ∈ proxy.getHosts prefixPath) : proxy.hostExists prefixPath addr = true :=
  decide_eq_true hmem

/-- `LoadBalance` keeps the routes. -/
theorem sameRoutes_loadBalance {proxy proxy' : HttpReverseProxy} {url answer : String}
    (hrun : EStateM.run (HttpReverseProxy.loadBalance prefixPath url) proxy = .ok answer proxy') :
    HttpReverseProxy.SameRoutes proxy proxy' := by
  cases hwriter : proxy.mu.writer with
  | true =>
      rw [HttpReverseProxy.loadBalance, run_withRLock_held hwriter] at hrun
      cases hrun
  | false =>
      rw [HttpReverseProxy.loadBalance, run_withRLock hwriter] at hrun
      obtain ⟨proxy₁, hbody, rfl⟩ := released_eq_ok hrun
      obtain ⟨p, proxy₂, hget, hbody⟩ := run_bind_ok hbody
      obtain ⟨p₁, p₂, hp, hread, rfl⟩ := run_focus_ok hget
      cases hread
      have hrouter : proxy.prefixMapping = some p := hp
      cases hb : p.getBalancer prefixPath with
      | none =>
          rw [hb] at hbody
          cases hbody
          exact ⟨some p, rfl, by rw [hrouter]⟩
      | some b =>
          rw [hb] at hbody
          dsimp only at hbody
          obtain ⟨balanced, proxy₃, hbalance, hlast⟩ := run_bind_ok hbody
          obtain ⟨p₃, p', hp₃, hanswer, rfl⟩ := run_focus_ok hbalance
          cases hp₃
          have hroutes : (memory (EStateM.run (HashPrefixer.withBalancer prefixPath
              (Balancer.balance url none)) p)).routes = p.routes :=
            HashPrefixer.memory_withBalancer_routes prefixPath
              fun b _ => Balancer.memory_balance_view url none b
          rw [hanswer] at hroutes
          refine ⟨some p', ?_, ?_⟩
          · cases balanced <;> (cases hlast; rfl)
          · rw [hrouter]
            exact congrArg some hroutes

/-- What a handler has decided on takes no address away but its own. -/
theorem RpcHandler.leaves {h : RpcHandler} {entry : LogEntry} (hentry : h.entry = some entry)
    (hagainst : ¬ h.Against port prefixPath addr) : entry.Leaves port prefixPath addr := by
  cases h with
  | creating req =>
      cases hentry
      exact fun body heq => nomatch heq
  | registering req pathExists =>
      cases hentry
      cases pathExists <;> exact fun _ => trivial
  | removing req =>
      cases hentry
      rintro rfl ⟨rfl, rfl⟩
      exact hagainst rfl
  | pruning req =>
      cases hentry
      exact fun hport hprefix => hagainst ⟨hport, hprefix⟩
  | reading req | emptied req => cases hentry

/-- A step changes the routing as a handler has decided, or not at all. -/
theorem RpcHandlerStep.routed {G : GatewayRouting} {event : RpcHandlerEvent} (h : Routed s.ctx G)
    (hstep : RpcHandlerStep s event s') :
    Routed s'.ctx G ∨ ∃ handler entry, handler ∈ s.handlers ∧ handler.entry = some entry ∧
      Routed s'.ctx (entry.route G) := by
  cases hstep with
  | created hmem hrun | registered hmem hrun | removed hmem hrun | pruned hmem hrun =>
      exact Or.inr ⟨_, _, hmem, rfl, h.apply hrun⟩
  | tested hrun =>
      obtain rfl := test_frame hrun
      exact Or.inl h
  | balanced hrun =>
      obtain ⟨proxy, proxy', hproxy, hbody, rfl⟩ := StateContext.run_onProxy_ok hrun
      obtain ⟨R, hR, hrep⟩ := h.lookup hproxy
      exact Or.inl (h.rewrite hR (hrep.of_sameRoutes (sameRoutes_loadBalance hbody)) rfl)
  | served port peerAvailable allow r => exact Or.inl (h.serve port peerAvailable allow r)
  | missing | cancelCalled | hostsLeft | noHosts | prefixChecked => exact Or.inl h

/-- A handler that goes on against the address has not found it listed. -/
theorem Settled.handlers_step {event : RpcHandlerEvent} (h : Settled port prefixPath addr s)
    (hstep : RpcHandlerStep s event s') :
    ∀ handler ∈ s'.handlers, ¬ handler.Against port prefixPath addr := by
  have herase : ∀ {old : RpcHandler}, ∀ handler ∈ s.handlers.erase old,
      ¬ handler.Against port prefixPath addr :=
    fun handler hmem => h.handlers handler (List.mem_of_mem_erase hmem)
  have happend : ∀ {handlers : List RpcHandler} {new : RpcHandler},
      (∀ handler ∈ handlers, ¬ handler.Against port prefixPath addr) →
      ¬ new.Against port prefixPath addr →
      ∀ handler ∈ handlers ++ [new], ¬ handler.Against port prefixPath addr := by
    intro handlers new hhandlers hnew handler hmem
    rcases List.mem_append.mp hmem with hold | hlast
    · exact hhandlers handler hold
    · rw [List.mem_singleton.mp hlast]
      exact hnew
  cases hstep with
  | missing hport => exact happend h.handlers id
  | created hmem hrun => exact herase
  | tested hrun => exact happend h.handlers id
  | registered hmem hrun => exact herase
  | cancelCalled hproxy hcheck =>
      refine happend h.handlers ?_
      rintro rfl
      rw [hostExists_of_listed (listed_proxy h.listed hproxy)] at hcheck
      cases hcheck
  | removed hmem hrun => exact happend herase id
  | hostsLeft hmem hproxy hhosts => exact herase
  | noHosts hmem hproxy hhosts =>
      refine happend herase ?_
      rintro ⟨rfl, rfl⟩
      have hlisted := listed_proxy h.listed hproxy
      rw [hhosts] at hlisted
      cases hlisted
  | prefixChecked hmem hproxy hcheck =>
      have hagainst := h.handlers _ hmem
      exact happend herase hagainst
  | pruned hmem hrun => exact herase
  | balanced hrun => exact h.handlers
  | served port peerAvailable allow r => exact h.handlers

/-- The proxies of a node that serves have a routing. -/
theorem exists_routed {start : Serving} {events : List RpcHandlerEvent}
    (h : ∃ G, Routed start.ctx G) (hrun : Run RpcHandlerStep start events s) :
    ∃ G, Routed s.ctx G := by
  refine hrun.invariant (P := fun s => ∃ G, Routed s.ctx G) ?_ h
  rintro s event s' ⟨G, hrouted⟩ hstep
  rcases hstep.routed hrouted with hsame | ⟨handler, entry, -, -, hnext⟩
  · exact ⟨G, hsame⟩
  · exact ⟨_, hnext⟩

theorem Settled.step {G : GatewayRouting} {event : RpcHandlerEvent} (hrouted : Routed s.ctx G)
    (h : Settled port prefixPath addr s) (hstep : RpcHandlerStep s event s') :
    Settled port prefixPath addr s' := by
  refine ⟨?_, h.handlers_step hstep⟩
  have hlists := (listed_iff hrouted).mp h.listed
  rcases hstep.routed hrouted with hsame | ⟨handler, entry, hmem, hentry, hnext⟩
  · exact (listed_iff hsame).mpr hlists
  · exact (listed_iff hnext).mpr (hlists.route (handler.leaves hentry (h.handlers _ hmem)))

/-- `Cancel` is refused, and nothing happens. -/
theorem cancel_of_settled {v : Vermouth} (h : v.ctx.Listed port prefixPath addr) :
    EStateM.run (RpcServer.cancel ⟨port, prefixPath, addr⟩) v = .ok ⟨failed⟩ v := by
  obtain ⟨proxy, hproxy, hmem⟩ := h
  have hrefused : EStateM.run (Vermouth.removeHttpProxyHost ⟨port, prefixPath, addr⟩) v =
      .ok (.error .hostNotExists) v := by
    refine Vermouth.run_withProxy_refused hproxy ?_
    dsimp only
    rw [if_pos (hostExists_of_listed hmem)]
  rw [RpcServer.cancel, EStateM.run_bind, hrefused]
  rfl

variable {confs : List HttpProxyArgs} {order : RangeOrder Int HttpReverseProxy}
  {listens : Nat → Bool} {ctx : StateContext} {before events : List RpcHandlerEvent}

/-- When an address is listed and no call is about to take it away, it stays listed
whatever calls come, in whatever order their handlers go on.  A client that cancels
it is refused, and exits with status 1. -/
theorem registered_for_good (client : RpcClient) (hagree : ∀ args ∈ confs, ModesAgree args)
    (hboot : EStateM.run (StateContext.boot confs order) (newStateContext listens) = .ok () ctx)
    (hbefore : Run RpcHandlerStep ⟨ctx, []⟩ before s)
    (hsettled : Settled client.port client.prefixPath client.localAddr s)
    (hrun : Run RpcHandlerStep s events s') :
    s'.ctx.Listed client.port client.prefixPath client.localAddr ∧
      ∀ v : Vermouth, v.ctx = s'.ctx → ∃ res,
        EStateM.run (RpcServer.cancel client.cancelReq) v = .ok res v ∧ exitStatus res = 1 := by
  have hstart := exists_routed ⟨_, routed_boot hagree hboot⟩ hbefore
  obtain ⟨-, hfinal⟩ := hrun.invariant
    (P := fun s => (∃ G, Routed s.ctx G) ∧
      Settled client.port client.prefixPath client.localAddr s)
    (fun s event s' h hstep => by
      obtain ⟨⟨G, hrouted⟩, hsettled⟩ := h
      exact ⟨exists_routed ⟨G, hrouted⟩ (.single hstep), hsettled.step hrouted hstep⟩)
    ⟨hstart, hsettled⟩
  refine ⟨hfinal.listed, fun v hv => ⟨⟨failed⟩, cancel_of_settled ?_, by decide⟩⟩
  rw [hv]
  exact hfinal.listed

/-- A client of the configured prefix, while another one registers on a new port. -/
theorem registered_for_good_one_proxy : ∃ ctx s',
    EStateM.run (StateContext.boot oneProxyConf (.sorted _ _)) (newStateContext fun _ => true) =
      .ok () ctx ∧
    Run RpcHandlerStep ⟨ctx, []⟩ [.registerCalled (registerReq 9090 "/web" "10.0.0.3:80" []),
      .created (registerReq 9090 "/web" "10.0.0.3:80" [])] s' ∧
    s'.ctx.Listed 8080 "/api" "10.0.0.1:80" ∧
    ∃ res, EStateM.run (RpcServer.cancel (RpcClient.cancelReq ⟨8080, "/api", "10.0.0.1:80"⟩))
      ⟨.stand, s'.ctx, []⟩ = .ok res ⟨.stand, s'.ctx, []⟩ ∧ exitStatus res = 1 := by
  obtain ⟨ctx, hboot⟩ : ∃ ctx, EStateM.run (StateContext.boot oneProxyConf (.sorted _ _))
      (newStateContext fun _ => true) = .ok () ctx := ⟨_, run_boot _ rfl⟩
  have hrouted := routed_boot modesAgree_oneProxyConf hboot
  have hsettled : Settled 8080 "/api" "10.0.0.1:80" ⟨ctx, []⟩ :=
    ⟨(listed_iff hrouted).mpr ⟨⟨"round-robin", ["10.0.0.1:80"]⟩, rfl, List.mem_cons_self⟩,
      fun h hmem => absurd hmem List.not_mem_nil⟩
  have hnew : 9090 ∉ ctx.httpReverseProxyList := by
    rw [hrouted.mem_iff]
    decide
  obtain ⟨ctx', hcreated⟩ := exists_apply_addHttpProxy 9090 ctx
  have hrun : Run RpcHandlerStep ⟨ctx, []⟩
      [.registerCalled (registerReq 9090 "/web" "10.0.0.3:80" []),
        .created (registerReq 9090 "/web" "10.0.0.3:80" [])] ⟨ctx', []⟩ := by
    refine .cons (.missing hnew) (.single ?_)
    have hstep := RpcHandlerStep.created
      (s := ⟨ctx, [.creating (registerReq 9090 "/web" "10.0.0.3:80" [])]⟩)
      List.mem_cons_self hcreated
    rw [List.erase_cons_head] at hstep
    exact hstep
  obtain ⟨hlisted, hcancel⟩ := registered_for_good ⟨8080, "/api", "10.0.0.1:80"⟩
    modesAgree_oneProxyConf hboot (.nil _) hsettled hrun
  exact ⟨ctx, _, hboot, hrun, hlisted, hcancel ⟨.stand, ctx', []⟩ rfl⟩

end Runs

end Cluster
end VermouthGateway
