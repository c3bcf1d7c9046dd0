import VermouthGateway.Proxy.RoutingModel
import VermouthGateway.Cluster.Replicas
import VermouthGateway.Cluster.Recovery
import VermouthGateway.Cluster.Shutdown

/-!
# What a log routes

`GatewayRouting` is what a node routes as it is meant: the ports with a proxy,
and the `Routing` of each.  A configuration means one, and an entry or the end
of a shutdown changes it; requests do not.

* `LogEntry.route`, `confRouting`: what entries and configurations mean.
* `Routed.step`: every step of a node does what it means.
* `run_refines_routing`: so a node routes what its configuration and the events
  it has seen mean, whatever it served in between.
* `routed_restore`: a snapshot carries the routing.
* `restored_follower_agrees`: so a node that restored a snapshot and a node that
  applied the whole log route alike.
-/

namespace VermouthGateway
namespace Cluster

open Go Proxy Balancing Runs
open HttpReverseProxy (Restored)

abbrev GatewayRouting := GoMap Int Routing

/-- The routing with another one on a port, where there is a proxy. -/
def GatewayRouting.onPort (G : GatewayRouting) (port : Int) (f : Routing → Routing) :
    GatewayRouting :=
  match G.lookup port with
  | none => G
  | some R => G.insert port (f R)

theorem GatewayRouting.onPort_of_lookup {G : GatewayRouting} {port : Int} {R : Routing}
    (h : G.lookup port = some R) (f : Routing → Routing) :
    G.onPort port f = G.insert port (f R) := by
  rw [onPort, h]

/-- A proxy for a port, which keeps the one it has. -/
def GatewayRouting.offer (G : GatewayRouting) (port : Int) (R : Routing) : GatewayRouting :=
  if port ∈ G then G else G.insert port R

/-- What an entry makes of the routing. -/
def LogEntry.route (G : GatewayRouting) (entry : LogEntry) : GatewayRouting :=
  match entry.call with
  | some (port, call) => G.onPort port call.route
  | none =>
      match entry with
      | .addHttpProxy body => G.offer body.port .empty
      | .rmvHttpProxy body => G.erase body.port
      -- a proxy that is closed is routed until its shutdown is over
      | _ => G

theorem LogEntry.route_of_call {G : GatewayRouting} {entry : LogEntry} {port : Int}
    {call : ProxyCall} {R : Routing} (hcall : entry.call = some (port, call))
    (hR : G.lookup port = some R) : entry.route G = G.insert port (call.route R) := by
  simp only [LogEntry.route, hcall]
  exact GatewayRouting.onPort_of_lookup hR call.route

/-- What an event that the nodes share makes of the routing. -/
def routeSeen (G : GatewayRouting) : LogEntry ⊕ Int → GatewayRouting
  | .inl entry => entry.route G
  | .inr port => G.erase port

/-- What one prefix of a configuration adds. -/
def addPath (R : Routing) (path : HttpProxyPathArgs) : Routing :=
  (RoutingCall.addPrefix path.pattern path.balanceMode path.hosts path.static).route R

/-- What the prefixes of a proxy in a configuration mean. -/
def argsRouting (args : HttpProxyArgs) : Routing := args.paths.foldl addPath .empty

/-- What a configuration means. -/
def confRouting (confs : List HttpProxyArgs) : GatewayRouting :=
  confs.foldl (fun G args => G.offer args.port (argsRouting args)) ∅

/-- Every proxy of the node has the routing of its port. -/
def Routed (ctx : StateContext) (G : GatewayRouting) : Prop :=
  ∀ port, Option.Rel Represents (ctx.httpReverseProxyList.lookup port) (G.lookup port)

namespace Routed

variable {ctx ctx' : StateContext} {G : GatewayRouting}

theorem of_list (h : Routed ctx G) (hlist : ctx'.httpReverseProxyList = ctx.httpReverseProxyList) :
    Routed ctx' G := by
  intro port
  rw [hlist]
  exact h port

theorem mem_iff (h : Routed ctx G) (port : Int) :
    port ∈ ctx.httpReverseProxyList ↔ port ∈ G := by
  have hport := h port
  rw [← Finmap.lookup_isSome, ← Finmap.lookup_isSome]
  generalize ctx.httpReverseProxyList.lookup port = l at hport ⊢
  generalize G.lookup port = r at hport ⊢
  cases hport <;> exact Iff.rfl

theorem lookup (h : Routed ctx G) {port : Int} {proxy : HttpReverseProxy}
    (hproxy : ctx.httpReverseProxyList.lookup port = some proxy) :
    ∃ R, G.lookup port = some R ∧ Represents proxy R := by
  have hport := h port
  rw [hproxy] at hport
  generalize G.lookup port = r at hport ⊢
  cases hport with
  | some hrep => exact ⟨_, rfl, hrep⟩

/-- The routing of a node is determined by its proxies. -/
theorem unique {G' : GatewayRouting} (h : Routed ctx G) (h' : Routed ctx G') : G = G' := by
  refine Finmap.ext_lookup fun port => ?_
  have hport := h port
  have hport' := h' port
  generalize ctx.httpReverseProxyList.lookup port = l at hport hport'
  generalize G.lookup port = R at hport ⊢
  generalize G'.lookup port = R' at hport' ⊢
  cases hport with
  | none =>
      cases hport'
      rfl
  | some hrep =>
      cases hport' with
      | some hrep' => exact congrArg some (hrep.unique hrep')

theorem insert (h : Routed ctx G) {proxy : HttpReverseProxy} {R : Routing}
    (hrep : Represents proxy R) (port : Int)
    (hlist : ctx'.httpReverseProxyList = ctx.httpReverseProxyList.insert port proxy) :
    Routed ctx' (G.insert port R) := by
  intro q
  rw [hlist, GoMap.lookup_insert_eq, GoMap.lookup_insert_eq]
  split
  · exact .some hrep
  · exact h q

theorem erase (h : Routed ctx G) (port : Int)
    (hlist : ctx'.httpReverseProxyList = ctx.httpReverseProxyList.erase port) :
    Routed ctx' (G.erase port) := by
  intro q
  rw [hlist, GoMap.lookup_erase_eq, GoMap.lookup_erase_eq]
  split
  · exact .none
  · exact h q

/-- A proxy that is offered for a port. -/
theorem offer (h : Routed ctx G) {proxy : HttpReverseProxy} {R : Routing}
    (hrep : Represents proxy R) (port : Int)
    (hlist : ctx'.httpReverseProxyList =
      if port ∈ ctx.httpReverseProxyList then ctx.httpReverseProxyList
      else ctx.httpReverseProxyList.insert port proxy) :
    Routed ctx' (G.offer port R) := by
  rw [GatewayRouting.offer]
  by_cases hport : port ∈ ctx.httpReverseProxyList
  · rw [if_pos hport] at hlist
    rw [if_pos ((h.mem_iff port).mp hport)]
    exact h.of_list hlist
  · rw [if_neg hport] at hlist
    rw [if_neg fun hmem => hport ((h.mem_iff port).mpr hmem)]
    exact h.insert hrep port hlist

/-- Writing a proxy of the same routing back. -/
theorem rewrite (h : Routed ctx G) {proxy : HttpReverseProxy} {R : Routing} {port : Int}
    (hR : G.lookup port = some R) (hrep : Represents proxy R)
    (hlist : ctx'.httpReverseProxyList = ctx.httpReverseProxyList.insert port proxy) :
    Routed ctx' G := by
  have hinsert := h.insert hrep port hlist
  rwa [GoMap.insert_lookup_self hR] at hinsert

theorem apply (h : Routed ctx G) {entry : LogEntry}
    (hrun : EStateM.run (StateContext.apply entry) ctx = .ok () ctx') :
    Routed ctx' (entry.route G) := by
  cases hcall : entry.call with
  | some target =>
      obtain ⟨port, call⟩ := target
      rw [StateContext.apply_of_call hcall] at hrun
      obtain ⟨proxy, proxy', hproxy, hbody, rfl⟩ := StateContext.run_onProxy_ok hrun
      obtain ⟨R, hR, hrep⟩ := h.lookup hproxy
      rw [LogEntry.route_of_call hcall hR]
      exact h.insert (call.run_represents hrep hbody) port rfl
  | none =>
      rcases StateContext.apply_of_no_call hcall with
        ⟨body, rfl⟩ | ⟨body, rfl⟩ | ⟨body, rfl, -, -, happly⟩
      · obtain ⟨proxy, hnew, rfl⟩ := StateContext.run_handleAddHttpProxy_ok hrun
        exact h.offer (represents_newHttpReverseProxy hnew) body.port rfl
      · obtain ⟨g, -, rfl⟩ := StateContext.run_handleRemoveHttpProxy_ok hrun
        exact h.erase body.port rfl
      · rw [happly] at hrun
        obtain ⟨g, -, rfl⟩ := StateContext.run_close_ok hrun
        have hroute : (LogEntry.chgState body).route G = G := by
          simp only [LogEntry.route, hcall]
        rw [hroute]
        exact h.of_list rfl

theorem serve (h : Routed ctx G) (port : Int) (peerAvailable : Bool)
    (allow : QpsRateLimiter → Bool) (r : Utils.Request) :
    Routed (ctx.serve port peerAvailable allow r) G := by
  rw [StateContext.serve]
  cases hproxy : ctx.httpReverseProxyList.lookup port with
  | none =>
      rw [StateContext.run_onProxy_none hproxy]
      exact h
  | some proxy =>
      obtain ⟨R, hR, hrep⟩ := h.lookup hproxy
      rw [StateContext.run_onProxy_some hproxy, memory_embed]
      exact h.rewrite hR (represents_serveHTTP hrep peerAvailable allow r) rfl

/-- Every step of a node does what it means. -/
theorem step (h : Routed ctx G) {event : Event} (hstep : Step ctx event ctx') :
    Routed ctx' ((event.seen.toList).foldl routeSeen G) := by
  cases hstep with
  | apply hrun => exact h.apply hrun
  | serve port peerAvailable allow r => exact h.serve port peerAvailable allow r
  | @finish port hpending => exact h.erase port rfl

/-- A run of a node does what the events it has seen mean. -/
theorem run (h : Routed ctx G) {events : List Event} (hrun : Run Step ctx events ctx') :
    Routed ctx' ((events.filterMap Event.seen).foldl routeSeen G) := by
  refine Run.refines (R := Routed) hrun ?_ ?_ h
  · intro event _ s s' G hunseen hrouted hstep
    have hnext := hrouted.step hstep
    rwa [hunseen] at hnext
  · intro event _ s s' G shared hseen hrouted hstep
    have hnext := hrouted.step hstep
    rwa [hseen] at hnext

end Routed

/-! ## Snapshots -/

section Snapshots

variable {source : StateContext} {G : GatewayRouting} {node node' : Node}
  {order : ContextOrder}

section OneProxy

variable {proxy start proxy' : HttpReverseProxy} {R : Routing} {answer : Bool}

theorem represents_restored {tree : Acl.RadixTree} (h : Represents proxy R)
    (hfields : SameFields proxy start) (hrestored : Restored start tree proxy') :
    Represents proxy' R := by
  obtain ⟨p, hp, -⟩ := h.mirrors
  obtain ⟨static, router, limiters, recorded, hframe⟩ := hrestored.frame
  refine h.of_sameRouting (hp.sameRouting hfields hrestored) ?_
  rw [hframe]
  exact hfields.type.trans h.type

/-- A proxy restored from the fields of another one has its routing. -/
theorem represents_restore {order : RestoreOrder} (h : Represents proxy R)
    (hfields : SameFields proxy start)
    (hrun : EStateM.run (HttpReverseProxy.restore order) start = .ok answer proxy') :
    Represents proxy' R := by
  rcases HttpReverseProxy.run_restore_ok hrun with ⟨hne, -⟩ | ⟨-, -, -, -, tree, -, hrestored⟩
  · exact absurd (hfields.type.trans h.type) hne
  · exact represents_restored h hfields hrestored

theorem represents_restoreProxy {readd : RangeOrder String Bool} {order : RestoreOrder}
    (h : Represents proxy R) (hfields : SameFields proxy start)
    (hrun : EStateM.run (restoreProxy readd order) start = .ok answer proxy') :
    Represents proxy' R := by
  obtain ⟨tree, -, hrestore⟩ := run_restoreProxy_ok hrun
  have hsame : SameFields proxy { start with acl := tree } :=
    ⟨hfields.type, hfields.paths, hfields.balancerType, hfields.staticMapping⟩
  exact represents_restore h hsame hrestore

end OneProxy

/-- A port of the snapshot has its routing. -/
theorem Routed.restored_port (h : Routed source G)
    (hrun : EStateM.run (Node.restore order source.marshal) node = .ok () node') {port : Int}
    (hport : port ∈ source.httpReverseProxyList) :
    Option.Rel Represents (node'.ctx.httpReverseProxyList.lookup port) (G.lookup port) := by
  obtain ⟨proxy, hproxy⟩ := Finmap.mem_iff.mp hport
  obtain ⟨R, hR, hrep⟩ := h.lookup hproxy
  have hmarshal := source.lookup_marshal port
  rw [hproxy] at hmarshal
  obtain ⟨answer, proxy', hround, hlookup⟩ := lookup_restore hrun hmarshal
  rw [hlookup, hR]
  exact .some (represents_restoreProxy hrep (sameFields_decode proxy) hround)

/-- A snapshot carries the routing to a node that has no other proxies. -/
theorem routed_restore (h : Routed source G)
    (hports : ∀ port ∈ node.ctx.httpReverseProxyList, port ∈ source.marshal)
    (hrun : EStateM.run (Node.restore order source.marshal) node = .ok () node') :
    Routed node'.ctx G := by
  intro port
  by_cases hport : port ∈ source.httpReverseProxyList
  · exact h.restored_port hrun hport
  · have hgone : port ∉ node'.ctx.httpReverseProxyList := by
      rw [mem_restore hrun, StateContext.mem_marshal]
      exact fun hmem => hport (hmem.elim id fun hold => (source.mem_marshal port).mp
        (hports port hold))
    have hnone := h port
    rw [Finmap.lookup_eq_none.mpr hport] at hnone
    rw [Finmap.lookup_eq_none.mpr hgone]
    exact hnone

/-- What a node has besides the snapshot goes through `Restore` as well, and routes as
before. -/
theorem Routed.kept_port {snapshot : ContextSnapshot} (h : Routed node.ctx G)
    (hrun : EStateM.run (Node.restore order snapshot) node = .ok () node') {port : Int}
    (hport : port ∉ snapshot) :
    Option.Rel Represents (node'.ctx.httpReverseProxyList.lookup port) (G.lookup port) := by
  cases hproxy : node.ctx.httpReverseProxyList.lookup port with
  | none =>
      have hgone : port ∉ node'.ctx.httpReverseProxyList := by
        rw [mem_restore hrun]
        exact fun hmem => hmem.elim hport (Finmap.lookup_eq_none.mp hproxy)
      have hold := h port
      rw [hproxy] at hold
      rw [Finmap.lookup_eq_none.mpr hgone]
      exact hold
  | some proxy =>
      obtain ⟨R, hR, hrep⟩ := h.lookup hproxy
      have hkept : (node.unMarshal snapshot).ctx.httpReverseProxyList.lookup port =
          some proxy := by
        rw [Node.lookup_unMarshal, Finmap.lookup_eq_none.mpr hport, hproxy]
        rfl
      obtain ⟨proxy₁, answer, proxy', hlookup, hround, hrestored, -⟩ :=
        (run_restore_ok hrun).round port
          ((order.ports.mem_keys _ _).mpr (Finmap.mem_iff.mpr ⟨_, hkept⟩))
      obtain rfl := Option.some.inj (hkept.symm.trans hlookup)
      rw [hrestored, hR]
      exact .some (represents_restoreProxy hrep ⟨rfl, rfl, rfl, rfl⟩ hround)

/-- After a restore the ports of the snapshot have its routing, and the others theirs. -/
theorem routed_restore_over {G₀ : GatewayRouting} (h : Routed source G)
    (hnode : Routed node.ctx G₀)
    (hrun : EStateM.run (Node.restore order source.marshal) node = .ok () node') :
    Routed node'.ctx (G ∪ G₀) := by
  intro port
  rw [GoMap.lookup_union_eq]
  by_cases hport : port ∈ source.httpReverseProxyList
  · obtain ⟨R, hR⟩ := Finmap.mem_iff.mp ((h.mem_iff port).mp hport)
    have hrestored := h.restored_port hrun hport
    rwa [hR] at hrestored ⊢
  · have hnone : G.lookup port = none :=
      Finmap.lookup_eq_none.mpr fun hmem => hport ((h.mem_iff port).mpr hmem)
    rw [hnone, Option.none_or]
    exact hnode.kept_port hrun (mt (source.mem_marshal port).mp hport)

/-- What a node takes part in with others. -/
def NodeEvent.seen : NodeEvent → Option (LogEntry ⊕ Int)
  | .on event => event.seen
  | _ => none

/-- A step of a node that restores nothing does what it means. -/
theorem Routed.nodeStep (h : Routed node.ctx G) {event : NodeEvent}
    (hlocal : event.snapshot = none) (hstep : NodeStep node event node') :
    Routed node'.ctx ((event.seen.toList).foldl routeSeen G) := by
  cases hstep with
  | on hstep => exact h.step hstep
  | started hmem hrun =>
      obtain ⟨proxy, proxy', hproxy, hstart, rfl⟩ := StateContext.run_onProxy_ok hrun
      obtain ⟨R, hR, hrep⟩ := h.lookup hproxy
      exact h.rewrite hR (ProxyCall.run_represents .start hrep hstart) rfl
  | restore hrun => cases hlocal
  | restoreFromSnap hrun => cases hlocal

theorem Routed.nodeRun (h : Routed node.ctx G) {events : List NodeEvent}
    (hlocal : ∀ event ∈ events, event.snapshot = none)
    (hrun : Run NodeStep node events node') :
    Routed node'.ctx ((events.filterMap NodeEvent.seen).foldl routeSeen G) := by
  refine Run.refines (R := fun node G => Routed node.ctx G) hrun ?_ ?_ h
  · intro event hevent s s' G hunseen hrouted hstep
    have hnext := hrouted.nodeStep (hlocal event hevent) hstep
    rwa [hunseen] at hnext
  · intro event hevent s s' G shared hseen hrouted hstep
    have hnext := hrouted.nodeStep (hlocal event hevent) hstep
    rwa [hseen] at hnext

/-- Nodes with one routing have the same tables. -/
theorem Routed.sameRouting {left right : StateContext} (h : Routed left G) (h' : Routed right G)
    (port : Int) : Option.Rel SameRouting (left.httpReverseProxyList.lookup port)
      (right.httpReverseProxyList.lookup port) := by
  have hport := h port
  have hport' := h' port
  generalize left.httpReverseProxyList.lookup port = l at hport ⊢
  generalize right.httpReverseProxyList.lookup port = r at hport' ⊢
  generalize G.lookup port = R at hport hport'
  cases hport with
  | none =>
      cases hport'
      exact .none
  | some hrep =>
      cases hport' with
      | some hrep' => exact .some (hrep.sameRouting hrep')

end Snapshots

/-! ## Configurations -/

/-- A prefix that a configuration repeats has the same algorithm again. -/
def ModesAgree (args : HttpProxyArgs) : Prop :=
  ∀ path ∈ args.paths, ∀ path' ∈ args.paths, path.pattern = path'.pattern →
    path.balanceMode = path'.balanceMode

/-- What is routed has the algorithms of the configuration. -/
def FollowsModes (args : HttpProxyArgs) (R : Routing) : Prop :=
  ∀ path ∈ args.paths, ∀ v, R.routes.lookup path.pattern = some v → v.mode = path.balanceMode

section Configurations

variable {args : HttpProxyArgs} {path : HttpProxyPathArgs} {R : Routing}
  {proxy proxy' : HttpReverseProxy}

theorem FollowsModes.addPath (h : FollowsModes args R) (hagree : ModesAgree args)
    (hpath : path ∈ args.paths) : FollowsModes args (addPath R path) := by
  rw [Cluster.addPath, RoutingCall.route]
  split
  · exact h
  · intro path' hpath' v hv
    dsimp only at hv
    rw [GoMap.lookup_insert_eq] at hv
    split at hv
    · next heq =>
        cases hv
        exact hagree path hpath path' hpath' heq.symm
    · exact h path' hpath' v hv

theorem mem_addPath (R : Routing) (path : HttpProxyPathArgs) :
    path.pattern ∈ (addPath R path).routes := by
  rw [addPath, RoutingCall.route]
  split
  · next hmem => exact hmem
  · exact Finmap.mem_insert.mpr (Or.inl rfl)

/-- A path of the configuration with the algorithm written after it. -/
theorem represents_addPath (h : Represents proxy R) (hfollows : FollowsModes args R)
    (hagree : ModesAgree args) (hpath : path ∈ args.paths)
    (hrun : EStateM.run (do
      HttpReverseProxy.addPrefix path.pattern path.balanceMode path.hosts path.static
      modify fun proxy : HttpReverseProxy =>
        { proxy with
          balancerType := proxy.balancerType.insert path.pattern path.balanceMode }) proxy =
      .ok () proxy') : Represents proxy' (addPath R path) := by
  obtain ⟨u, proxy₁, hadd, hwrite⟩ := run_bind_ok hrun
  have h₁ : Represents proxy₁ (addPath R path) :=
    RoutingCall.run_represents (.addPrefix path.pattern path.balanceMode path.hosts path.static)
      h hadd
  cases hwrite
  -- the algorithm is the one on record, so that nothing is written
  obtain ⟨v, hv⟩ := Finmap.mem_iff.mp (mem_addPath R path)
  obtain ⟨p, hp, hroutes⟩ := h₁.mirrors
  have hmode : proxy₁.balancerType.lookup path.pattern = some path.balanceMode := by
    rw [hp.modes, hroutes, hv, Option.map_some,
      hfollows.addPath hagree hpath path hpath v hv]
  dsimp only
  rw [GoMap.insert_lookup_self hmode]
  exact h₁

theorem represents_addPaths {paths : List HttpProxyPathArgs}
    (hpaths : ∀ path ∈ paths, path ∈ args.paths) (hagree : ModesAgree args)
    (hfollows : FollowsModes args R) (h : Represents proxy R)
    (hrun : EStateM.run (forEach paths fun path => do
      HttpReverseProxy.addPrefix path.pattern path.balanceMode path.hosts path.static
      modify fun proxy : HttpReverseProxy =>
        { proxy with
          balancerType := proxy.balancerType.insert path.pattern path.balanceMode }) proxy =
      .ok () proxy') : Represents proxy' (paths.foldl addPath R) := by
  induction paths generalizing proxy R with
  | nil =>
      cases hrun
      exact h
  | cons path paths ih =>
      have hpath := hpaths path List.mem_cons_self
      obtain ⟨u, proxy₁, hround, hrest⟩ := run_forEach_cons_ok hrun
      exact ih (fun path' hpath' => hpaths path' (List.mem_cons_of_mem path hpath'))
        (hfollows.addPath hagree hpath) (represents_addPath h hfollows hagree hpath hround) hrest

theorem represents_buildHttpReverseProxy {shutdown : Nat} (hagree : ModesAgree args)
    (h : buildHttpReverseProxy args shutdown = .ok proxy) :
    Represents proxy (argsRouting args) := by
  rw [buildHttpReverseProxy] at h
  cases hnew : newHttpReverseProxy args shutdown with
  | error e =>
      rw [hnew] at h
      cases h
  | ok fresh =>
      rw [hnew] at h
      dsimp only at h
      split at h
      · next hrun =>
          cases h
          refine represents_addPaths (fun _ hpath => hpath) hagree ?_
            (represents_newHttpReverseProxy hnew) hrun
          intro path _ v hv
          cases hv
      · cases h

end Configurations

section Boot

variable {confs : List HttpProxyArgs} {ctx ctx' : StateContext} {G : GatewayRouting}

theorem Routed.bootProxy {args : HttpProxyArgs} (h : Routed ctx G) (hagree : ModesAgree args)
    (hrun : EStateM.run (StateContext.bootProxy args) ctx = .ok () ctx') :
    Routed ctx' (G.offer args.port (argsRouting args)) := by
  obtain ⟨proxy, hbuild, rfl⟩ := StateContext.run_bootProxy_ok hrun
  have hport := (StateContext.buildHttpReverseProxy_server hbuild).1
  rw [← hport]
  exact h.offer (represents_buildHttpReverseProxy hagree hbuild) proxy.port rfl

theorem Routed.bootProxies (hagree : ∀ args ∈ confs, ModesAgree args) (h : Routed ctx G)
    (hrun : EStateM.run (forEach confs StateContext.bootProxy) ctx = .ok () ctx') :
    Routed ctx' (confs.foldl (fun G args => G.offer args.port (argsRouting args)) G) := by
  induction confs generalizing ctx G with
  | nil =>
      cases hrun
      exact h
  | cons args confs ih =>
      obtain ⟨u, ctx₁, hround, hrest⟩ := run_forEach_cons_ok hrun
      exact ih (fun args' hargs' => hagree args' (List.mem_cons_of_mem args hargs'))
        (h.bootProxy (hagree args List.mem_cons_self) hround) hrest

/-- `Run` adds goroutines to what the configuration has built. -/
theorem run_boot {start : StateContext} (order : RangeOrder Int HttpReverseProxy)
    (hconfs : EStateM.run (forEach confs StateContext.bootProxy) start = .ok () ctx) :
    EStateM.run (StateContext.boot confs order) start =
      .ok () { ctx with goroutines := ctx.goroutines ++
        (order.keys ctx.httpReverseProxyList).flatMap (Paired.startedFor ctx) } := by
  rw [StateContext.boot, EStateM.run_bind, hconfs]
  dsimp only
  rw [EStateM.run_bind, EStateM.run_get]
  exact Paired.run_runProxies ctx (order.keys ctx.httpReverseProxyList) ctx rfl

/-- A node starts with the routing of its configuration. -/
theorem routed_boot {order : RangeOrder Int HttpReverseProxy} {listens : Nat → Bool}
    (hagree : ∀ args ∈ confs, ModesAgree args)
    (hrun : EStateM.run (StateContext.boot confs order) (newStateContext listens) =
      .ok () ctx) : Routed ctx (confRouting confs) := by
  have hempty : Routed (newStateContext listens) ∅ := fun _ => .none
  obtain ⟨u, ctx₁, hconfs, -⟩ := run_bind_ok hrun
  cases hrun.symm.trans (run_boot order hconfs)
  exact (hempty.bootProxies hagree hconfs).of_list rfl

end Boot

section Runs

variable {confs : List HttpProxyArgs} {ctx ctx' : StateContext}

/-- A node routes what its configuration and the events it has seen mean,
whatever it served in between. -/
theorem run_refines_routing {order : RangeOrder Int HttpReverseProxy} {listens : Nat → Bool}
    {events : List Event} (hagree : ∀ args ∈ confs, ModesAgree args)
    (hboot : EStateM.run (StateContext.boot confs order) (newStateContext listens) = .ok () ctx)
    (hrun : Run Step ctx events ctx') :
    Routed ctx' ((events.filterMap Event.seen).foldl routeSeen (confRouting confs)) :=
  (routed_boot hagree hboot).run hrun

end Runs

/-- One proxy with one prefix. -/
def oneProxyConf : List HttpProxyArgs :=
  [⟨8080, typeHashPrefixer, [⟨"round-robin", "/api", false, ["10.0.0.1:80"]⟩]⟩]

theorem modesAgree_oneProxyConf : ∀ args ∈ oneProxyConf, ModesAgree args := by
  intro args hargs path hpath path' hpath' _
  obtain rfl := List.mem_singleton.mp hargs
  obtain rfl := List.mem_singleton.mp hpath
  obtain rfl := List.mem_singleton.mp hpath'
  rfl

/-- A host comes and another one goes, with a request in between. -/
theorem run_refines_routing_one_proxy : ∃ ctx ctx',
    EStateM.run (StateContext.boot oneProxyConf (.sorted _ _)) (newStateContext fun _ => true) =
      .ok () ctx ∧
    Run Step ctx [.apply (.addHttpProxyHost ⟨8080, "/api", "10.0.0.2:80"⟩),
      .serve 8080 true (fun _ => true) usersRequest,
      .apply (.rmvHttpProxyHost ⟨8080, "/api", "10.0.0.1:80"⟩)] ctx' ∧
    Routed ctx' (routeSeen (routeSeen (confRouting oneProxyConf)
      (.inl (.addHttpProxyHost ⟨8080, "/api", "10.0.0.2:80"⟩)))
      (.inl (.rmvHttpProxyHost ⟨8080, "/api", "10.0.0.1:80"⟩))) := by
  obtain ⟨ctx, ctx', hboot, hrun⟩ : ∃ ctx ctx',
      EStateM.run (StateContext.boot oneProxyConf (.sorted _ _))
        (newStateContext fun _ => true) = .ok () ctx ∧
      Run Step ctx [.apply (.addHttpProxyHost ⟨8080, "/api", "10.0.0.2:80"⟩),
        .serve 8080 true (fun _ => true) usersRequest,
        .apply (.rmvHttpProxyHost ⟨8080, "/api", "10.0.0.1:80"⟩)] ctx' :=
    ⟨_, _, run_boot _ rfl,
      .cons (.apply rfl) (.cons (.serve _ _ _ _ _) (.single (.apply rfl)))⟩
  exact ⟨ctx, ctx', hboot, hrun, run_refines_routing modesAgree_oneProxyConf hboot hrun⟩

/-- A node that restored a snapshot and goes on with the log routes like the
node the snapshot was taken of, whatever either serves. -/
theorem restored_follower_agrees {confs : List HttpProxyArgs}
    {order : RangeOrder Int HttpReverseProxy} {listens : Nat → Bool}
    {ctx source source' : StateContext} {node follower follower' : Node}
    {orders : ContextOrder} {before later : List Event} {own : List NodeEvent}
    (hagree : ∀ args ∈ confs, ModesAgree args)
    (hboot : EStateM.run (StateContext.boot confs order) (newStateContext listens) = .ok () ctx)
    (hbefore : Run Step ctx before source)
    (hports : ∀ port ∈ node.ctx.httpReverseProxyList, port ∈ source.marshal)
    (hrestore : EStateM.run (Node.restore orders source.marshal) node = .ok () follower)
    (hlater : Run Step source later source') (hown : Run NodeStep follower own follower')
    (hlocal : ∀ event ∈ own, event.snapshot = none)
    (hsees : own.filterMap NodeEvent.seen = later.filterMap Event.seen) (port : Int) :
    Option.Rel SameRouting (source'.httpReverseProxyList.lookup port)
      (follower'.ctx.httpReverseProxyList.lookup port) := by
  have hsource := (routed_boot hagree hboot).run hbefore
  have hfollower := (routed_restore hsource hports hrestore).nodeRun hlocal hown
  rw [hsees] at hfollower
  exact (hsource.run hlater).sameRouting hfollower port

/-- An entry for a new proxy can be applied anywhere. -/
theorem exists_apply_addHttpProxy (port : Int) (ctx : StateContext) : ∃ ctx',
    EStateM.run (StateContext.apply (.addHttpProxy ⟨port, typeHashPrefixer⟩)) ctx =
      .ok () ctx' := by
  have hcomplete : Completes (EStateM.run
      (StateContext.handleAddHttpProxy ⟨port, typeHashPrefixer⟩) ctx) :=
    StateContext.completes_handleAddHttpProxy_iff.mpr rfl
  obtain ⟨⟨⟩, ctx', hrun⟩ := completes_iff.mp hcomplete
  exact ⟨ctx', hrun⟩

/-- Proxies without a black list can be restored. -/
theorem exists_restore {source : StateContext} {G : GatewayRouting} (h : Routed source G)
    (hsound : source.Sound)
    (hempty : ∀ port proxy, source.httpReverseProxyList.lookup port = some proxy →
      proxy.acl.record = ∅) (order : ContextOrder) (listens : Nat → Bool) : ∃ node,
    EStateM.run (Node.restore order source.marshal) ⟨newStateContext listens, []⟩ =
      .ok () node := by
  refine run_restore_of_rounds (fun port s hs => ?_) fun port _ proxy hproxy => ?_
  · rw [StateContext.lookup_marshal] at hs
    obtain ⟨proxy, hproxy, rfl⟩ := Option.map_eq_some_iff.mp hs
    obtain ⟨R, -, hrep⟩ := h.lookup hproxy
    obtain ⟨p, hp, -⟩ := hrep.mirrors
    exact (completes_restoreProxy_encode_iff (hsound port proxy hproxy) _ _).mpr
      ⟨hempty port proxy hproxy, hp.prefixesSupported⟩
  · cases hproxy

/-- What the configuration with one proxy has built can be restored. -/
theorem oneProxyConf_restores : ∃ ctx node,
    EStateM.run (StateContext.boot oneProxyConf (.sorted _ _)) (newStateContext fun _ => true) =
      .ok () ctx ∧
    EStateM.run (Node.restore .sorted ctx.marshal) emptyNode = .ok () node := by
  obtain ⟨ctx, hboot, hrecord⟩ : ∃ ctx,
      EStateM.run (StateContext.boot oneProxyConf (.sorted _ _))
        (newStateContext fun _ => true) = .ok () ctx ∧
      ∀ port proxy, ctx.httpReverseProxyList.lookup port = some proxy →
        proxy.acl.record = ∅ := by
    refine ⟨_, run_boot _ rfl, fun port proxy hproxy => ?_⟩
    change ((∅ : GoMap Int HttpReverseProxy).insert 8080 _).lookup port = some proxy at hproxy
    rw [GoMap.lookup_insert_eq] at hproxy
    split at hproxy
    · cases hproxy
      rfl
    · cases hproxy
  obtain ⟨node, hrestore⟩ := exists_restore (routed_boot modesAgree_oneProxyConf hboot)
    (StateContext.boot_sound hboot) hrecord .sorted fun _ => true
  exact ⟨ctx, node, hboot, hrestore⟩

/-- A follower starts from the snapshot of a node and both get another proxy. -/
theorem restored_follower_agrees_one_proxy : ∃ ctx source' follower follower',
    EStateM.run (StateContext.boot oneProxyConf (.sorted _ _)) (newStateContext fun _ => true) =
      .ok () ctx ∧
    EStateM.run (Node.restore .sorted ctx.marshal) emptyNode = .ok () follower ∧
    Run Step ctx [.apply (.addHttpProxy ⟨9090, typeHashPrefixer⟩)] source' ∧
    Run NodeStep follower [.on (.apply (.addHttpProxy ⟨9090, typeHashPrefixer⟩))] follower' ∧
    Option.Rel SameRouting (source'.httpReverseProxyList.lookup 8080)
      (follower'.ctx.httpReverseProxyList.lookup 8080) := by
  obtain ⟨ctx, follower, hboot, hrestore⟩ := oneProxyConf_restores
  obtain ⟨source', hsource⟩ := exists_apply_addHttpProxy 9090 ctx
  obtain ⟨ctx', hfollower⟩ := exists_apply_addHttpProxy 9090 follower.ctx
  have hlater := Run.single (Step.apply hsource)
  have hown := Run.single (NodeStep.on (Step.apply hfollower))
  refine ⟨ctx, source', follower, _, hboot, hrestore, hlater, hown,
    restored_follower_agrees modesAgree_oneProxyConf hboot (.nil ctx) ?_ hrestore hlater hown ?_
      rfl 8080⟩
  · intro port hport
    exact absurd hport Finmap.notMem_empty
  · intro event hevent
    rw [List.mem_singleton.mp hevent]
    rfl

end Cluster
end VermouthGateway
