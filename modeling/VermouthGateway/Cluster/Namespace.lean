import VermouthGateway.Cluster.Rpc
import VermouthGateway.Discovery.Zookeeper

/-!
# Handling the events of a discovery

`HandleNamespaceEvent` turns the events of a discovery into calls of the
interface, on the prefix of the service and the port of the discovery.

* `run_removeHosts`: `REMOVE_HOSTS` asks for the removal of hosts that are
  listed, and each of them is refused.
* `run_addHost_event`: `ADD_HOST` adds a host that is not listed.
* `completes_refresh`: one round of a watcher is processed to its end.
* `converges_iff`: one round of a watcher leaves exactly the hosts it has read
  if and only if no other host was there.
-/

namespace VermouthGateway
namespace Cluster

open Go Proxy Balancing

namespace Vermouth

/-- `NewStateContext().checkAndCreate(port)`: the new context is dropped. -/
def checkAndCreateAside (port : Int) : Eff Vermouth Unit := do
  let v ← get
  match EStateM.run (StateContext.checkAndCreate port) (newStateContext v.ctx.listens) with
  | .ok _ _ => pure ()
  | .error e _ => throw e

/-- A call whose answer is dropped. -/
def dropAnswer (call : Eff Vermouth (Except ApiError Unit)) : Eff Vermouth Unit := do
  let _ ← call
  pure ()

/-- The prefix of a service. -/
def servicePrefix (serviceName : String) : String := "/" ++ serviceName

/-- One round of the loop of `REMOVE_HOSTS`. -/
def removeUnlessVisited (port : Int) (e : Discovery.Event) (host : String) : Eff Vermouth Unit :=
  if host ∈ e.children then pure ()
  else dropAnswer (removeHttpProxyHost ⟨port, servicePrefix e.serviceName, host⟩)

/-- One round of `HandleNamespaceEvent`. -/
def handleNamespaceEvent (port : Int) (e : Discovery.Event) : Eff Vermouth Unit :=
  match e.opt with
  | .addHost => do
      checkAndCreateAside port
      dropAnswer (addHttpProxyHost ⟨port, servicePrefix e.serviceName, e.host⟩)
  | .removeHost =>
      dropAnswer (removeHttpProxyHost ⟨port, servicePrefix e.serviceName, e.host⟩)
  | .addService => do
      checkAndCreateAside port
      dropAnswer (addHttpProxyPrefix
        { port := port, prefixPath := servicePrefix e.serviceName, balanceType := "round-robin"
          proxyPass := [], static := false })
  | .removeService =>
      dropAnswer (removeHttpProxyPrefix ⟨port, servicePrefix e.serviceName⟩)
  | .removeHosts => do
      -- read from the proxy without a test that it is there
      let hosts ← onCtx (StateContext.onProxy port
        (HttpReverseProxy.lockedGetHosts (servicePrefix e.serviceName)))
      forEach hosts (removeUnlessVisited port e)

variable {v v' : Vermouth} {port : Int} {proxy : HttpReverseProxy} {service host : String}
  {hosts : List String}

theorem run_checkAndCreateAside (v : Vermouth) (port : Int) :
    EStateM.run (checkAndCreateAside port) v = .ok () v := rfl

theorem run_dropAnswer (call : Eff Vermouth (Except ApiError Unit)) (v : Vermouth) :
    EStateM.run (dropAnswer call) v =
      match EStateM.run call v with
      | .ok _ v' => .ok () v'
      | .error e v' => .error e v' := by
  rw [dropAnswer, EStateM.run_bind]
  cases EStateM.run call v <;> rfl

/-- The removal of a listed host is refused. -/
theorem run_removeHttpProxyHost_listed {prefixPath : String}
    (hproxy : v.ctx.httpReverseProxyList.lookup port = some proxy)
    (hlisted : host ∈ proxy.getHosts prefixPath) :
    EStateM.run (removeHttpProxyHost ⟨port, prefixPath, host⟩) v =
      .ok (.error .hostNotExists) v := by
  have hexists : proxy.hostExists prefixPath host = true := decide_eq_true hlisted
  refine run_withProxy_refused hproxy ?_
  dsimp only
  rw [hexists]
  rfl

/-- `REMOVE_HOSTS` on a port with a proxy changes nothing. -/
theorem run_removeHosts {e : Discovery.Event} (hopt : e.opt = .removeHosts)
    (hproxy : v.ctx.httpReverseProxyList.lookup port = some proxy)
    (hwriter : proxy.mu.writer = false) :
    EStateM.run (handleNamespaceEvent port e) v = .ok () v := by
  have hloop (listed : List String)
      (hlisted : ∀ host ∈ listed, host ∈ proxy.getHosts (servicePrefix e.serviceName)) :
      EStateM.run (forEach listed (removeUnlessVisited port e)) v = .ok () v := by
    induction listed with
    | nil => rfl
    | cons host listed ih =>
        have hround : EStateM.run (removeUnlessVisited port e host) v = .ok () v := by
          rw [removeUnlessVisited, run_ite, run_dropAnswer,
            run_removeHttpProxyHost_listed hproxy (hlisted host List.mem_cons_self)]
          exact ite_self _
        rw [run_forEach_cons, hround]
        exact ih fun other hother => hlisted other (List.mem_cons_of_mem _ hother)
  rw [handleNamespaceEvent, hopt]
  dsimp only
  rw [EStateM.run_bind, run_onCtx_onProxy_some hproxy,
    HttpReverseProxy.run_lockedGetHosts hwriter, embed_ok, putProxy_self hproxy]
  exact hloop _ fun _ hmem => hmem

/-- `REMOVE_HOSTS` that returns has changed nothing. -/
theorem run_removeHosts_ok {e : Discovery.Event} (hopt : e.opt = .removeHosts)
    (hrun : EStateM.run (handleNamespaceEvent port e) v = .ok () v') : v' = v := by
  cases hproxy : v.ctx.httpReverseProxyList.lookup port with
  | none =>
      rw [handleNamespaceEvent, hopt] at hrun
      dsimp only at hrun
      rw [EStateM.run_bind, run_onCtx_onProxy_none hproxy] at hrun
      cases hrun
  | some proxy =>
      cases hwriter : proxy.mu.writer with
      | false =>
          rw [run_removeHosts hopt hproxy hwriter] at hrun
          cases hrun
          rfl
      | true =>
          rw [handleNamespaceEvent, hopt] at hrun
          obtain ⟨listed, v₁, hread, -⟩ := run_bind_ok hrun
          rw [run_onCtx_onProxy_some hproxy, HttpReverseProxy.lockedGetHosts,
            run_withRLock_held hwriter] at hread
          cases hread

/-- `ADD_HOST` on a round-robin prefix that is there. -/
theorem run_addHost_event {e : Discovery.Event} (hopt : e.opt = .addHost)
    (hmode : v.mode = .stand) (hproxy : v.ctx.httpReverseProxyList.lookup port = some proxy)
    (h : Balances proxy (servicePrefix e.serviceName) hosts)
    (hrun : EStateM.run (handleNamespaceEvent port e) v = .ok () v') :
    ∃ proxy', v' = v.putProxy port proxy' ∧
      Balances proxy' (servicePrefix e.serviceName) (RoundRobin.addedHosts hosts e.host) := by
  rw [handleNamespaceEvent, hopt] at hrun
  dsimp only at hrun
  rw [EStateM.run_bind, run_checkAndCreateAside] at hrun
  dsimp only at hrun
  rw [run_dropAnswer, addHttpProxyHost] at hrun
  by_cases hlisted : e.host ∈ hosts
  · -- refused, and listed already: the same as adding it once
    rw [run_withProxy_refused hproxy (e := .hostAlreadyExists)] at hrun
    · cases hrun
      refine ⟨proxy, (putProxy_self hproxy).symm, ?_⟩
      rw [RoundRobin.addedHosts, if_pos hlisted]
      exact h
    · rw [h.hostExists, decide_eq_true hlisted]
      rfl
  · have hcheck : proxy.hostExists (servicePrefix e.serviceName) e.host = false := by
      rw [h.hostExists, decide_eq_false hlisted]
    rw [run_withProxy_stand hmode hproxy (by rw [hcheck]; rfl)] at hrun
    cases hcall : EStateM.run
        (HttpReverseProxy.addHost (servicePrefix e.serviceName) e.host) proxy with
    | error e proxy' =>
        rw [hcall] at hrun
        cases hrun
    | ok u proxy' =>
        rw [hcall] at hrun
        cases hrun
        exact ⟨proxy', rfl, run_addHost_balances h hcall⟩

/-- The same event is handled to its end while the locks are free. -/
theorem run_addHost_event_idle (e : Discovery.Event) (hopt : e.opt = .addHost)
    (hmode : v.mode = .stand) (hproxy : v.ctx.httpReverseProxyList.lookup port = some proxy)
    (h : Balances proxy (servicePrefix e.serviceName) hosts)
    (hidle : Idle proxy (servicePrefix e.serviceName)) :
    ∃ proxy', EStateM.run (handleNamespaceEvent port e) v = .ok () (v.putProxy port proxy') ∧
      Idle proxy' (servicePrefix e.serviceName) := by
  rw [handleNamespaceEvent, hopt]
  dsimp only
  rw [EStateM.run_bind, run_checkAndCreateAside]
  dsimp only
  rw [run_dropAnswer, addHttpProxyHost]
  by_cases hlisted : e.host ∈ hosts
  · refine ⟨proxy, ?_, hidle⟩
    rw [run_withProxy_refused hproxy (e := .hostAlreadyExists), putProxy_self hproxy]
    rw [h.hostExists, decide_eq_true hlisted]
    rfl
  · have hcheck : proxy.hostExists (servicePrefix e.serviceName) e.host = false := by
      rw [h.hostExists, decide_eq_false hlisted]
    obtain ⟨proxy', hcall, hidle'⟩ := run_addHost_idle hidle e.host
    refine ⟨proxy', ?_, hidle'⟩
    rw [run_withProxy_stand hmode hproxy (by rw [hcheck]; rfl), hcall]

/-! ## One round of a watcher -/

/-- What a watcher that has read these addresses sends. -/
def refresh (service : String) (addresses : List String) : List Discovery.Event :=
  { opt := .removeHosts, serviceName := service, children := addresses } ::
    addresses.map fun address => { opt := .addHost, serviceName := service, host := address }

/-- The hosts of the service are these addresses, each once. -/
def Converged (v : Vermouth) (port : Int) (service : String) (addresses : List String) : Prop :=
  ∃ proxy, v.ctx.httpReverseProxyList.lookup port = some proxy ∧
    (proxy.getHosts (servicePrefix service)).Nodup ∧
    ∀ host, host ∈ proxy.getHosts (servicePrefix service) ↔ host ∈ addresses

/-- Adding the addresses one after the other. -/
theorem run_addHosts {addresses : List String} (hmode : v.mode = .stand)
    (hproxy : v.ctx.httpReverseProxyList.lookup port = some proxy)
    (h : Balances proxy (servicePrefix service) hosts)
    (hrun : EStateM.run (forEach
      (addresses.map fun address =>
        { opt := .addHost, serviceName := service, host := address : Discovery.Event })
      (handleNamespaceEvent port)) v = .ok () v') :
    ∃ proxy', v'.ctx.httpReverseProxyList.lookup port = some proxy' ∧
      Balances proxy' (servicePrefix service) (addresses.foldl RoundRobin.addedHosts hosts) := by
  induction addresses generalizing v proxy hosts with
  | nil =>
      cases hrun
      exact ⟨proxy, hproxy, h⟩
  | cons address addresses ih =>
      rw [List.map_cons] at hrun
      obtain ⟨u, v₁, hround, hrest⟩ := run_forEach_cons_ok hrun
      obtain ⟨proxy₁, rfl, h₁⟩ := run_addHost_event rfl hmode hproxy h hround
      have hmode₁ : (v.putProxy port proxy₁).mode = .stand := hmode
      exact ih hmode₁ (lookup_putProxy v port proxy₁) h₁ hrest

/-- A round is processed to its end while the locks it asks for are free. -/
theorem completes_refresh {addresses : List String} (hmode : v.mode = .stand)
    (hproxy : v.ctx.httpReverseProxyList.lookup port = some proxy)
    (h : Balances proxy (servicePrefix service) hosts)
    (hidle : Idle proxy (servicePrefix service)) :
    Completes (EStateM.run
      (forEach (refresh service addresses) (handleNamespaceEvent port)) v) := by
  rw [refresh, run_forEach_cons, run_removeHosts rfl hproxy (by rw [hidle.1]; rfl)]
  dsimp only
  -- over the addresses; each event gives the locks back that it took
  induction addresses generalizing v proxy hosts with
  | nil => trivial
  | cons address addresses ih =>
      obtain ⟨proxy₁, hround, hidle₁⟩ := run_addHost_event_idle
        { opt := .addHost, serviceName := service, host := address } rfl hmode hproxy h hidle
      obtain ⟨proxy₂, hput, h₂⟩ := run_addHost_event rfl hmode hproxy h hround
      have hproxy₁ := lookup_putProxy v port proxy₁
      rw [hput, lookup_putProxy] at hproxy₁
      cases hproxy₁
      rw [List.map_cons, run_forEach_cons, hround]
      exact ih hmode (lookup_putProxy v port _) h₂ hidle₁

theorem mem_foldl_addedHosts {addresses : List String} :
    host ∈ addresses.foldl RoundRobin.addedHosts hosts ↔ host ∈ hosts ∨ host ∈ addresses := by
  induction addresses generalizing hosts with
  | nil => simp
  | cons address addresses ih =>
      rw [List.foldl_cons, ih, mem_addedHosts, List.mem_cons, or_assoc]

theorem nodup_foldl_addedHosts {addresses : List String} (h : hosts.Nodup) :
    (addresses.foldl RoundRobin.addedHosts hosts).Nodup := by
  induction addresses generalizing hosts with
  | nil => exact h
  | cons address addresses ih =>
      refine ih ?_
      rw [RoundRobin.addedHosts]
      split
      · exact h
      · next hnew => exact h.append (List.nodup_singleton _) (by simpa using hnew)

/-- A round of a watcher leaves exactly the addresses it has read if and only
if every host that was there is one of them. -/
theorem converges_iff {addresses : List String} (hmode : v.mode = .stand)
    (hproxy : v.ctx.httpReverseProxyList.lookup port = some proxy)
    (h : Balances proxy (servicePrefix service) hosts) (hnodup : hosts.Nodup)
    (hrun : EStateM.run (forEach (refresh service addresses) (handleNamespaceEvent port)) v =
      .ok () v') :
    Converged v' port service addresses ↔ ∀ host ∈ hosts, host ∈ addresses := by
  rw [refresh] at hrun
  obtain ⟨u, v₁, hremove, hrest⟩ := run_forEach_cons_ok hrun
  -- the removals change nothing, so only additions are left
  obtain rfl := run_removeHosts_ok rfl hremove
  obtain ⟨proxy', hproxy', h'⟩ := run_addHosts hmode hproxy h hrest
  rw [Converged]
  constructor
  · rintro ⟨found, hfound, -, hmem⟩ host hhost
    cases hproxy'.symm.trans hfound
    rw [h'.getHosts] at hmem
    exact (hmem host).mp (mem_foldl_addedHosts.mpr (Or.inl hhost))
  · intro hsub
    refine ⟨proxy', hproxy', ?_, fun host => ?_⟩
    · rw [h'.getHosts]
      exact nodup_foldl_addedHosts hnodup
    · rw [h'.getHosts, mem_foldl_addedHosts]
      exact or_iff_right_of_imp (hsub host)

/-- A proxy with the prefix of a service and one host. -/
def serviceRegistered : List LogEntry :=
  [.addHttpProxy ⟨8080, typeHashPrefixer⟩,
    .addHttpProxyPrefix ⟨8080, false, servicePrefix "users", "round-robin", ["10.0.0.1:80"]⟩]

/-- A round that reads one more host, and one that reads none. -/
theorem run_refresh_users : ∃ ctx proxy v',
    EStateM.run (forEach serviceRegistered StateContext.apply) (newStateContext fun _ => true) =
      .ok () ctx ∧
    ctx.httpReverseProxyList.lookup 8080 = some proxy ∧
    Balances proxy (servicePrefix "users") ["10.0.0.1:80"] ∧
    EStateM.run (forEach (refresh "users" ["10.0.0.1:80", "10.0.0.2:80"])
      (handleNamespaceEvent 8080)) ⟨.stand, ctx, []⟩ = .ok () v' ∧
    EStateM.run (forEach (refresh "users" []) (handleNamespaceEvent 8080)) ⟨.stand, ctx, []⟩ =
      .ok () ⟨.stand, ctx, []⟩ :=
  ⟨_, _, _, rfl, rfl, ⟨⟨_, _, rfl, rfl, rfl⟩, rfl⟩, rfl, rfl⟩

theorem converges_iff_users : ∃ ctx v',
    EStateM.run (forEach (refresh "users" ["10.0.0.1:80", "10.0.0.2:80"])
      (handleNamespaceEvent 8080)) ⟨.stand, ctx, []⟩ = .ok () v' ∧
    Converged v' 8080 "users" ["10.0.0.1:80", "10.0.0.2:80"] := by
  obtain ⟨ctx, proxy, v', -, hproxy, hbalances, hrun, -⟩ := run_refresh_users
  refine ⟨ctx, v', hrun, (converges_iff rfl hproxy hbalances (List.nodup_singleton _) hrun).mpr ?_⟩
  decide

/-- A host that is gone from the registry stays. -/
theorem dead_host_stays : ¬ ∀ (node : Node) (v v' : Vermouth) (port : Int)
    (service : String) (proxy : HttpReverseProxy) (hosts addresses : List String),
    Reachable node → v.mode = .stand → v.ctx = node.ctx →
    v.ctx.httpReverseProxyList.lookup port = some proxy →
    Balances proxy (servicePrefix service) hosts → hosts.Nodup →
    EStateM.run (forEach (refresh service addresses) (handleNamespaceEvent port)) v = .ok () v' →
    Converged v' port service addresses := by
  intro hclaim
  obtain ⟨ctx, proxy, -, happlied, hproxy, hbalances, -, hrun⟩ := run_refresh_users
  obtain ⟨found, hfound, -, hmem⟩ := hclaim ⟨ctx, []⟩ ⟨.stand, ctx, []⟩ _ 8080 "users" proxy _ []
    (reachable_of_run (run_of_applied happlied)) rfl rfl hproxy hbalances
    (List.nodup_singleton _) hrun
  cases hproxy.symm.trans hfound
  rw [hbalances.getHosts] at hmem
  exact List.not_mem_nil ((hmem "10.0.0.1:80").mp (List.mem_singleton_self _))

end Vermouth
end Cluster
end VermouthGateway
