import VermouthGateway.Cluster.Namespace

/-!
# The event loop of a discovery

The goroutines of a discovery and the gateway run side by side: an event is
sent when `HandleNamespaceEvent` takes it, and it is handled before the next one.
A nil dereference there ends the process.

* `raises_handle_iff`: which events dereference a missing proxy or balancer.
* `GatewayStep` is the discovery, the event loop and the rest of the node.
* `loop_runs_on`: a run in which the proxy and the prefix are there for the
  events that need them never crashes.
* `removeHosts_crashes`: the first event of a watcher needs a proxy.
-/

namespace VermouthGateway
namespace Cluster

open Go Proxy Balancing Runs
open Discovery (ZookeeperDiscovery WatchEvent WatchStep newZookeeperDiscovery)

namespace Vermouth

/-- What an event needs of the state: a proxy on the port to ask for hosts, and
on a proxy that is there the prefix to change hosts of. -/
def SafeFor (v : Vermouth) (port : Int) (e : Discovery.Event) : Prop :=
  match e.opt with
  | .removeHosts => port ∈ v.ctx.httpReverseProxyList
  | .addHost | .removeHost => ∀ proxy p, v.ctx.httpReverseProxyList.lookup port = some proxy →
      proxy.prefixMapping = some p → servicePrefix e.serviceName ∈ p.mapping
  | _ => True

section Handling

variable {v : Vermouth} {port : Int} {proxy : HttpReverseProxy} {p : HashPrefixer}
  {prefixPath : String} {check : HttpReverseProxy → Option ApiError}
  {body : Eff HttpReverseProxy Unit} {entry : LogEntry}

/-- The hosts of a prefix that is not routed cannot be changed. -/
theorem raises_updateHosts_iff {call : Eff Balancer Unit} (hfree : proxy.mu = .free)
    (hp : proxy.prefixMapping = some p) (hcall : Never .nilDereference call) :
    Raises .nilDereference (EStateM.run (HttpReverseProxy.updateHosts prefixPath call) proxy) ↔
      prefixPath ∉ p.mapping := by
  rw [HttpReverseProxy.run_updateHosts hfree hp]
  cases hb : p.getBalancer prefixPath with
  | none =>
      have hnot : prefixPath ∉ p.mapping := Finmap.lookup_eq_none.mp hb
      simp [hnot]
  | some b =>
      have hmem : prefixPath ∈ p.mapping := Finmap.mem_iff.mpr ⟨b, hb⟩
      have hnever := hcall b
      dsimp only
      cases hrun : EStateM.run call b with
      | ok u b' => simp [hmem]
      | error e b' =>
          rw [hrun, raises_error_iff] at hnever
          dsimp only
          rw [raises_released_iff, raises_error_iff]
          exact iff_of_false hnever fun hnot => hnot hmem

/-- A dropped answer hides no panic. -/
theorem raises_dropAnswer_iff (call : Eff Vermouth (Except ApiError Unit)) (v : Vermouth) :
    Raises .nilDereference (EStateM.run (dropAnswer call) v) ↔
      Raises .nilDereference (EStateM.run call v) := by
  rw [run_dropAnswer]
  cases EStateM.run call v with
  | ok answer v' => simp
  | error e v' => simp

/-- In stand mode a method panics when its proxy is there, passes the check, and
the call on it panics. -/
theorem raises_withProxy_iff (hmode : v.mode = .stand) :
    Raises .nilDereference
        (EStateM.run (withProxy port check (StateContext.onProxy port body) entry) v) ↔
      ∃ proxy, v.ctx.httpReverseProxyList.lookup port = some proxy ∧ check proxy = none ∧
        Raises .nilDereference (EStateM.run body proxy) := by
  cases hproxy : v.ctx.httpReverseProxyList.lookup port with
  | none =>
      rw [run_withProxy_missing hproxy]
      simp
  | some proxy =>
      cases hcheck : check proxy with
      | some e =>
          rw [run_withProxy_refused hproxy hcheck]
          simp [hcheck]
      | none =>
          rw [run_withProxy_stand hmode hproxy hcheck]
          cases hbody : EStateM.run body proxy with
          | ok u proxy' => simp [hcheck, hbody]
          | error e proxy' => simp [hcheck, hbody]

/-- A listed host is a host of a routed prefix. -/
theorem mem_of_hostExists (h : Copies proxy p) {host : String}
    (hexists : proxy.hostExists prefixPath host = true) : prefixPath ∈ p.mapping := by
  by_contra hnot
  have hmem : host ∈ proxy.getHosts prefixPath := of_decide_eq_true hexists
  rw [getHosts_of_unrouted h hnot] at hmem
  cases hmem

/-- Changing the hosts behind the check of the interface. -/
theorem raises_changeHosts_iff (h : v.ctx.Sound) (hmode : v.mode = .stand)
    {call : Eff Balancer Unit} (hcall : Never .nilDereference call) {host : String} {e : ApiError} :
    Raises .nilDereference (EStateM.run (withProxy port
        (fun proxy => if proxy.hostExists prefixPath host then some e else none)
        (StateContext.onProxy port (HttpReverseProxy.updateHosts prefixPath call)) entry) v) ↔
      ¬ ∀ proxy p, v.ctx.httpReverseProxyList.lookup port = some proxy →
        proxy.prefixMapping = some p → prefixPath ∈ p.mapping := by
  rw [raises_withProxy_iff hmode]
  push Not
  constructor
  · rintro ⟨proxy, hproxy, -, hraises⟩
    obtain ⟨p, hcopies⟩ := (h port proxy hproxy).copies
    exact ⟨proxy, p, hproxy, hcopies.router,
      (raises_updateHosts_iff (h port proxy hproxy).free hcopies.router hcall).mp hraises⟩
  · rintro ⟨proxy, p, hproxy, hp, hnot⟩
    obtain ⟨p', hcopies⟩ := (h port proxy hproxy).copies
    cases hp.symm.trans hcopies.router
    refine ⟨proxy, hproxy, ?_,
      (raises_updateHosts_iff (h port proxy hproxy).free hp hcall).mpr hnot⟩
    rw [if_neg fun hexists => hnot (mem_of_hostExists hcopies hexists)]

/-- An event dereferences nil exactly when what it needs is not there. -/
theorem raises_handle_iff (h : v.ctx.Sound) (hmode : v.mode = .stand) (e : Discovery.Event) :
    Raises .nilDereference (EStateM.run (handleNamespaceEvent port e) v) ↔
      ¬ v.SafeFor port e := by
  rw [handleNamespaceEvent, SafeFor]
  -- one case for each event; the two about a service are safe on every proxy that is sound
  cases hopt : e.opt with
  | addHost =>
      dsimp only
      rw [EStateM.run_bind, run_checkAndCreateAside]
      dsimp only
      rw [raises_dropAnswer_iff]
      exact raises_changeHosts_iff h hmode (Balancer.never_add e.host)
  | removeHost =>
      dsimp only
      rw [raises_dropAnswer_iff]
      exact raises_changeHosts_iff h hmode (Balancer.never_remove e.host)
  | addService =>
      dsimp only
      rw [EStateM.run_bind, run_checkAndCreateAside]
      dsimp only
      rw [raises_dropAnswer_iff, addHttpProxyPrefix, raises_withProxy_iff hmode]
      -- round robin is supported, so the prefix can always be added
      refine iff_of_false ?_ fun hnot => hnot trivial
      rintro ⟨proxy, hproxy, -, hraises⟩
      obtain ⟨p, hcopies⟩ := (h port proxy hproxy).copies
      obtain ⟨u, proxy', hrun⟩ := completes_iff.mp
        ((HttpReverseProxy.completes_addPrefix_iff "round-robin" [] false).mpr
          ⟨(h port proxy hproxy).free, p, hcopies.router, Or.inr (Or.inl rfl)⟩)
      rw [hrun] at hraises
      exact not_raises_ok _ _ hraises
  | removeService =>
      dsimp only
      rw [raises_dropAnswer_iff, removeHttpProxyPrefix, raises_withProxy_iff hmode]
      refine iff_of_false ?_ fun hnot => hnot trivial
      rintro ⟨proxy, hproxy, -, hraises⟩
      obtain ⟨p, hcopies⟩ := (h port proxy hproxy).copies
      rw [HttpReverseProxy.run_removePrefix (h port proxy hproxy).free hcopies.router] at hraises
      exact not_raises_ok _ _ hraises
  | removeHosts =>
      cases hproxy : v.ctx.httpReverseProxyList.lookup port with
      | none =>
          dsimp only
          rw [EStateM.run_bind, run_onCtx_onProxy_none hproxy]
          have hnot : port ∉ v.ctx.httpReverseProxyList := Finmap.lookup_eq_none.mp hproxy
          simp [hnot]
      | some proxy =>
          -- a proxy that is there only refuses the removals
          have hwriter : proxy.mu.writer = false := by
            rw [(h port proxy hproxy).free]
            rfl
          have hrun := run_removeHosts hopt hproxy hwriter
          rw [handleNamespaceEvent, hopt] at hrun
          rw [hrun]
          exact iff_of_false (not_raises_ok _ _) fun hnot =>
            hnot (Finmap.mem_iff.mpr ⟨proxy, hproxy⟩)

/-- A method that returns keeps every proxy sound. -/
theorem sound_withProxy {v' : Vermouth} {answer : Except ApiError Unit} (call : ProxyCall)
    (h : v.ctx.Sound) (hmode : v.mode = .stand)
    (hrun : EStateM.run (withProxy port check (StateContext.onProxy port call.run) entry) v =
      .ok answer v') : v'.ctx.Sound ∧ v'.mode = .stand := by
  rcases run_withProxy_cases hrun with rfl | ⟨ctx, hctx, rfl⟩ | rfl
  · exact ⟨h, hmode⟩
  · obtain ⟨proxy, proxy', hproxy, hbody, rfl⟩ := StateContext.run_onProxy_ok hctx
    exact ⟨h.insert (call.run_sound (h port proxy hproxy) hbody) port _ _, hmode⟩
  · exact ⟨h, hmode⟩

theorem run_dropAnswer_ok {call : Eff Vermouth (Except ApiError Unit)} {v' : Vermouth}
    (hrun : EStateM.run (dropAnswer call) v = .ok () v') :
    ∃ answer, EStateM.run call v = .ok answer v' := by
  rw [run_dropAnswer] at hrun
  cases hcall : EStateM.run call v with
  | ok answer v₁ =>
      rw [hcall] at hrun
      cases hrun
      exact ⟨answer, rfl⟩
  | error e v₁ =>
      rw [hcall] at hrun
      cases hrun

/-- An event that was handled keeps every proxy sound. -/
theorem sound_handle {v' : Vermouth} {e : Discovery.Event} (h : v.ctx.Sound)
    (hmode : v.mode = .stand) (hrun : EStateM.run (handleNamespaceEvent port e) v = .ok () v') :
    v'.ctx.Sound ∧ v'.mode = .stand := by
  cases hopt : e.opt with
  | addHost =>
      rw [handleNamespaceEvent, hopt] at hrun
      dsimp only at hrun
      rw [EStateM.run_bind, run_checkAndCreateAside] at hrun
      obtain ⟨answer, hcall⟩ := run_dropAnswer_ok hrun
      exact sound_withProxy (.routing (.addHost _ _)) h hmode hcall
  | removeHost =>
      rw [handleNamespaceEvent, hopt] at hrun
      obtain ⟨answer, hcall⟩ := run_dropAnswer_ok hrun
      exact sound_withProxy (.routing (.removeHost _ _)) h hmode hcall
  | addService =>
      rw [handleNamespaceEvent, hopt] at hrun
      dsimp only at hrun
      rw [EStateM.run_bind, run_checkAndCreateAside] at hrun
      obtain ⟨answer, hcall⟩ := run_dropAnswer_ok hrun
      exact sound_withProxy (.routing (.addPrefix _ _ _ _)) h hmode hcall
  | removeService =>
      rw [handleNamespaceEvent, hopt] at hrun
      obtain ⟨answer, hcall⟩ := run_dropAnswer_ok hrun
      exact sound_withProxy (.routing (.removePrefix _)) h hmode hcall
  | removeHosts =>
      obtain rfl := run_removeHosts_ok hopt hrun
      exact ⟨h, hmode⟩

end Handling

end Vermouth

/-! ## The discovery and the gateway -/

structure Gateway where
  zk : ZookeeperDiscovery
  v : Vermouth
  /-- The event loop waits for ever. -/
  stuck : Bool
  crashed : Bool

/-- The process runs. -/
def Gateway.Alive (g : Gateway) : Prop := g.crashed = false ∧ g.zk.panicked = false

inductive GatewayEvent
  | discovery (event : WatchEvent)
  | node (event : Event)

/-- A step of the discovery, with the handling of the event it sends, or a step
of the rest of the node. -/
inductive GatewayStep (port : Int) : Gateway → GatewayEvent → Gateway → Prop
  | quiet {g : Gateway} {zk : ZookeeperDiscovery} {event : WatchEvent} (halive : g.Alive)
      (hstep : WatchStep g.zk event zk) (hsends : event.sends = none) :
      GatewayStep port g (.discovery event) { g with zk := zk }
  | handled {g : Gateway} {zk : ZookeeperDiscovery} {event : WatchEvent} {e : Discovery.Event}
      {v : Vermouth} (halive : g.Alive) (hloop : g.stuck = false)
      (hstep : WatchStep g.zk event zk) (hsends : event.sends = some e)
      (hrun : EStateM.run (Vermouth.handleNamespaceEvent port e) g.v = .ok () v) :
      GatewayStep port g (.discovery event) { g with zk := zk, v := v }
  | hangs {g : Gateway} {zk : ZookeeperDiscovery} {event : WatchEvent} {e : Discovery.Event}
      {halt : Halt} {v : Vermouth} (halive : g.Alive) (hloop : g.stuck = false)
      (hstep : WatchStep g.zk event zk) (hsends : event.sends = some e)
      (hrun : EStateM.run (Vermouth.handleNamespaceEvent port e) g.v = .error halt v)
      (hhalt : halt ≠ .panic .nilDereference) :
      GatewayStep port g (.discovery event) { g with zk := zk, v := v, stuck := true }
  | crashes {g : Gateway} {zk : ZookeeperDiscovery} {event : WatchEvent} {e : Discovery.Event}
      {v : Vermouth} (halive : g.Alive) (hloop : g.stuck = false)
      (hstep : WatchStep g.zk event zk) (hsends : event.sends = some e)
      (hrun : EStateM.run (Vermouth.handleNamespaceEvent port e) g.v =
        .error (.panic .nilDereference) v) :
      GatewayStep port g (.discovery event) { g with zk := zk, v := v, crashed := true }
  | node {g : Gateway} {event : Event} {ctx : StateContext} (halive : g.Alive)
      (hstep : Step g.v.ctx event ctx) :
      GatewayStep port g (.node event) { g with v := { g.v with ctx := ctx } }

/-- An event that is sent finds what it needs. -/
def GatewayEvent.Safe (g : Gateway) (port : Int) : GatewayEvent → Prop
  | .discovery event => ∀ e, event.sends = some e → g.v.SafeFor port e
  | .node _ => True

/-- The process has not crashed, and as long as the loop runs the proxies are
sound. -/
structure Gateway.Running (g : Gateway) : Prop where
  alive : g.crashed = false
  mode : g.stuck = false → g.v.mode = .stand
  sound : g.stuck = false → g.v.ctx.Sound

theorem GatewayStep.running {port : Int} {g g' : Gateway} {event : GatewayEvent}
    (hstep : GatewayStep port g event g') (hsafe : event.Safe g port) (h : g.Running) :
    g'.Running := by
  cases hstep with
  | quiet halive hwatch hsends => exact ⟨h.alive, h.mode, h.sound⟩
  | handled halive hloop hwatch hsends hrun =>
      obtain ⟨hsound, hmode⟩ := Vermouth.sound_handle (h.sound hloop) (h.mode hloop) hrun
      exact ⟨h.alive, fun _ => hmode, fun _ => hsound⟩
  | hangs halive hloop hwatch hsends hrun hhalt =>
      exact ⟨h.alive, fun hrunning => (nomatch hrunning), fun hrunning => (nomatch hrunning)⟩
  | @crashes zk event e v halive hloop hwatch hsends hrun =>
      have hraises := (Vermouth.raises_handle_iff (h.sound hloop) (h.mode hloop) e).mp ⟨v, hrun⟩
      exact absurd (hsafe e hsends) hraises
  | node halive hstep =>
      exact ⟨h.alive, h.mode, fun hrunning => step_sound (h.sound hrunning) hstep⟩

/-- A step whose event, if it sends one, finds what it needs. -/
def SafeStep (port : Int) (g : Gateway) (event : GatewayEvent) (g' : Gateway) : Prop :=
  event.Safe g port ∧ GatewayStep port g event g'

/-- A gateway in stand mode with a discovery that starts. -/
def Gateway.ofCtx (ctx : StateContext) : Gateway :=
  ⟨newZookeeperDiscovery, ⟨.stand, ctx, []⟩, false, false⟩

/-- In every run from a reachable state in which the events find the proxy and
the prefix they need the event loop does not crash. -/
theorem loop_runs_on {node : Node} {port : Int} {events : List GatewayEvent} {g : Gateway}
    (hreachable : Reachable node)
    (hrun : Run (SafeStep port) (Gateway.ofCtx node.ctx) events g) : g.crashed = false := by
  have hstart : (Gateway.ofCtx node.ctx).Running :=
    ⟨rfl, fun _ => rfl, fun _ => hreachable.sound⟩
  have h : g.Running := Run.invariant (P := Gateway.Running)
    (fun _ _ _ h hstep => hstep.2.running hstep.1 h) hrun hstart
  exact h.alive

/-- What a new service is announced with. -/
def usersAnnounced : Discovery.Event := { opt := .addService, serviceName := "users" }

/-- The first event of the watcher of a service without nodes. -/
def usersMissing (children : List String) : Discovery.Event :=
  { opt := .removeHosts, serviceName := "users", children := children }

/-- A service is found and announced, and its watcher is about to send. -/
theorem run_usersAnnounced {ctx : StateContext} {v : Vermouth}
    (hannounced : EStateM.run (Vermouth.handleNamespaceEvent 8080 usersAnnounced)
      ⟨.stand, ctx, []⟩ = .ok () v) :
    ∃ events zk children, Run (SafeStep 8080) (Gateway.ofCtx ctx) events ⟨zk, v, false, false⟩ ∧
      zk.panicked = false ∧
      zk.watchNodes.lookup 1 = some ⟨"users", .sending [usersMissing children]⟩ := by
  have halive : (Gateway.ofCtx ctx).Alive := ⟨rfl, rfl⟩
  -- the steps that send nothing ask nothing of the context
  have hsafe : ∀ (g : Gateway) (event : WatchEvent), event.sends = none →
      (GatewayEvent.discovery event).Safe g 8080 := by
    intro g event hsends e he
    rw [hsends] at he
    cases he
  have hservice : ∀ g : Gateway,
      (GatewayEvent.discovery (.announced "users")).Safe g 8080 := by
    intro g e he
    cases he
    trivial
  refine ⟨_, _, _, .cons ⟨hsafe _ (.listed {"users"} []) rfl,
      .quiet halive (.listed rfl List.nodup_nil (by simp [Gateway.ofCtx, newZookeeperDiscovery]))
        rfl⟩
    (.cons ⟨hsafe _ (.dropped ["users"]) rfl,
      .quiet halive (.dropped rfl (List.nodup_singleton _) (by simp)) rfl⟩
    (.cons ⟨hsafe _ (.created "users") rfl,
      .quiet halive (.created rfl Finmap.notMem_empty) rfl⟩
    (.cons ⟨hservice _, .handled halive rfl (.announced rfl) rfl hannounced⟩
    (.cons ⟨hsafe _ (.started "users") rfl, .quiet halive (.started rfl) rfl⟩
    (.single ⟨hsafe _ (.nodeRead 1) rfl, .quiet halive
      (.nodeRead (.sorted _ _) (fun _ => none) [] ∅ (Finmap.lookup_insert _) rfl) rfl⟩))))),
    rfl, Finmap.lookup_insert _⟩

/-- The announcement makes the prefix on a proxy that is there. -/
theorem run_handle_announced : ∃ ctx proxy v,
    EStateM.run (StateContext.apply (.addHttpProxy ⟨8080, typeHashPrefixer⟩))
      (newStateContext fun _ => true) = .ok () ctx ∧
    EStateM.run (Vermouth.handleNamespaceEvent 8080 usersAnnounced) ⟨.stand, ctx, []⟩ =
      .ok () v ∧
    v.ctx.httpReverseProxyList.lookup 8080 = some proxy ∧ proxy.mu.writer = false :=
  ⟨_, _, _, rfl, rfl, rfl, rfl⟩

/-- With a proxy on the port the watcher goes on. -/
theorem loop_runs_on_users : ∃ node events g, Reachable node ∧
    Run (SafeStep 8080) (Gateway.ofCtx node.ctx) events g ∧ g.crashed = false := by
  obtain ⟨ctx, proxy, v, happlied, hannounced, hproxy, hwriter⟩ := run_handle_announced
  have hreachable : Reachable ⟨ctx, []⟩ := reachable_of_run (.single (.apply happlied))
  obtain ⟨events, zk, children, hrun, hpanicked, hsending⟩ := run_usersAnnounced hannounced
  have hsafe : (GatewayEvent.discovery (.nodeSent 1 (usersMissing children))).Safe
      ⟨zk, v, false, false⟩ 8080 := by
    intro e he
    cases he
    exact Finmap.mem_iff.mpr ⟨proxy, hproxy⟩
  have hlast : GatewayStep 8080 ⟨zk, v, false, false⟩
      (.discovery (.nodeSent 1 (usersMissing children))) _ :=
    .handled ⟨rfl, hpanicked⟩ rfl (.nodeSent hsending rfl) rfl
      (Vermouth.run_removeHosts rfl hproxy hwriter)
  have hall := hrun.append (.single ⟨hsafe, hlast⟩)
  exact ⟨⟨ctx, []⟩, _, _, hreachable, hall, loop_runs_on hreachable hall⟩

/-- Without one its first event ends the process. -/
theorem removeHosts_crashes : ¬ ∀ (node : Node) (port : Int) (events : List GatewayEvent)
    (g : Gateway), Reachable node → Run (GatewayStep port) (Gateway.ofCtx node.ctx) events g →
      g.crashed = false := by
  intro hclaim
  have hannounced : EStateM.run (Vermouth.handleNamespaceEvent 8080 usersAnnounced)
      ⟨.stand, newStateContext fun _ => true, []⟩ =
        .ok () ⟨.stand, newStateContext fun _ => true, []⟩ := rfl
  obtain ⟨events, zk, children, hrun, hpanicked, hsending⟩ := run_usersAnnounced hannounced
  have hcrash : GatewayStep 8080 ⟨zk, ⟨.stand, newStateContext fun _ => true, []⟩, false, false⟩
      (.discovery (.nodeSent 1 (usersMissing children))) _ :=
    .crashes ⟨rfl, hpanicked⟩ rfl (.nodeSent hsending rfl) rfl rfl
  have hcrashed := hclaim _ 8080 _ _ (reachable_empty fun _ => true)
    ((hrun.mono fun _ _ _ hstep => hstep.2).append (.single hcrash))
  cases hcrashed

end Cluster
end VermouthGateway
