import VermouthGateway.Cluster.LateSnapshots
import VermouthGateway.Cluster.Liveness

/-!
# Nodes that have applied the log

Snapshots that are written late make a node apply entries twice.  Static flags
are flipped by an entry and come out wrong then, and hosts may come in another
order.  Ports, prefixes and algorithms do not depend on it, and neither do the
hosts of prefixes that are balanced by round robin.

* `caught_up_routes`: this for every node that has applied the whole log.
* `caught_up_forwards`: a request to it is forwarded as the log says.
* `static_flag_comes_out_wrong`: the same is not true of static flags.
-/

namespace VermouthGateway
namespace Cluster

open Go Proxy Balancing Runs Registers
open HttpReverseProxy (serveHTTP)

/-- The same ports, prefixes and algorithms. -/
structure Alike (G G' : GatewayRouting) : Prop where
  ports : ∀ port, port ∈ G ↔ port ∈ G'
  algorithms : ∀ port q, (G.view port q).map View.mode = (G'.view port q).map View.mode

/-- The same hosts behind the prefixes of both. -/
def SameHosts (G G' : GatewayRouting) : Prop :=
  ∀ port q v v', G.view port q = some v → G'.view port q = some v' →
    ∀ host, host ∈ v.hosts ↔ host ∈ v'.hosts

/-! ## Plain configurations and logs -/

/-- The call makes round-robin prefixes with distinct hosts only. -/
def PlainCall : RoutingCall → Prop
  | .addPrefix _ algo hosts _ => Plain ⟨algo, hosts⟩
  | .changeLb _ lb => lb = typeRoundRobin
  | _ => True

def PlainEntry (entry : LogEntry) : Prop :=
  ∀ p call, entry.call = some (p, .routing call) → PlainCall call

def PlainArgs (args : HttpProxyArgs) : Prop :=
  ∀ path ∈ args.paths, Plain ⟨path.balanceMode, path.hosts⟩

theorem admits_of_plain {call : RoutingCall} (h : PlainCall call) (host : String) :
    (hostAspect host).admits call := by
  cases call <;> exact h

theorem modesAgree_of_plain {args : HttpProxyArgs} (h : PlainArgs args) : ModesAgree args := by
  intro path hpath path' hpath' _
  exact (h path hpath).1.trans (h path' hpath').1.symm

theorem keeps_argsRouting {args : HttpProxyArgs} (h : PlainArgs args) (host : String) :
    (hostAspect host).Keeps (argsRouting args) := by
  have hfold : ∀ (paths : List HttpProxyPathArgs) (R : Routing),
      (∀ path ∈ paths, Plain ⟨path.balanceMode, path.hosts⟩) → (hostAspect host).Keeps R →
      (hostAspect host).Keeps (paths.foldl addPath R) := by
    intro paths
    induction paths with
    | nil => exact fun R _ hR => hR
    | cons path paths ih =>
        intro R hplain hR
        refine ih _ (fun path' hpath' => hplain path' (List.mem_cons_of_mem path hpath')) ?_
        have hadmits : (hostAspect host).admits (.addPrefix path.pattern path.balanceMode
            path.hosts path.static) := hplain path List.mem_cons_self
        exact (Aspect.route hR hadmits trivial "").1
  exact hfold args.paths .empty h (Aspect.keeps_empty _)

theorem keeps_confRouting {confs : List HttpProxyArgs} (h : ∀ args ∈ confs, PlainArgs args)
    (host : String) : aspectKeeps (hostAspect host) (confRouting confs) := by
  have hfold : ∀ (confs : List HttpProxyArgs) (G : GatewayRouting),
      (∀ args ∈ confs, PlainArgs args) → aspectKeeps (hostAspect host) G →
      aspectKeeps (hostAspect host)
        (confs.foldl (fun G args => G.offer args.port (argsRouting args)) G) := by
    intro confs
    induction confs with
    | nil => exact fun G _ hG => hG
    | cons args confs ih =>
        intro G hplain hG
        exact ih _ (fun args' hargs' => hplain args' (List.mem_cons_of_mem args hargs'))
          (aspectKeeps_offer hG (keeps_argsRouting (hplain args List.mem_cons_self) host)
            args.port)
  exact hfold confs ∅ h fun port R hR => by cases hR

/-! ## A late snapshot -/

/-- An entry that flips a static flag. -/
def flip : LogEntry := .chgStatic ⟨8080, "/api"⟩

theorem oneProxyConf_flips : ∃ ctx ctx₁ proxy proxy',
    EStateM.run (StateContext.boot oneProxyConf (.sorted _ _)) (newStateContext fun _ => true) =
      .ok () ctx ∧
    EStateM.run (StateContext.apply flip) ctx = .ok () ctx₁ ∧
    ctx₁.httpReverseProxyList.lookup 8080 = some proxy ∧
    EStateM.run (serveHTTP true (fun _ => true) usersRequest) proxy =
      .ok (.forwarded "10.0.0.1" 80 "/users") proxy' ∧
    ∀ port proxy, ctx₁.httpReverseProxyList.lookup port = some proxy →
      proxy.acl.record = ∅ := by
  refine ⟨_, _, _, _, run_boot _ rfl, rfl, rfl, rfl, fun port proxy hproxy => ?_⟩
  change (((∅ : GoMap Int HttpReverseProxy).insert 8080 _).insert 8080 _).lookup port =
    some proxy at hproxy
  rw [GoMap.lookup_insert_eq, GoMap.lookup_insert_eq] at hproxy
  split at hproxy
  · cases hproxy
    rfl
  · cases hproxy

theorem logFits_flip : LogFits (confRouting oneProxyConf) [flip] :=
  logFits_single (Or.inl ⟨8080, .routing (.changeStatic "/api"), _, rfl, rfl, trivial⟩)

theorem plainArgs_oneProxyConf : ∀ args ∈ oneProxyConf, PlainArgs args := by
  intro args hargs path hpath
  obtain rfl := List.mem_singleton.mp hargs
  obtain rfl := List.mem_singleton.mp hpath
  exact ⟨rfl, List.nodup_singleton _⟩

/-- One of two nodes is asked for a snapshot before it flips a flag and writes
it down afterwards; the other one starts from it and flips the flag back. -/
theorem exists_late_run : ∃ (c c' : RaftGroup Bool) (events : List (RaftEvent Bool))
    (proxy proxy' : HttpReverseProxy),
    Started oneProxyConf c ∧ Run RaftStep c events c' ∧ c'.log = [flip] ∧
    (∀ i, (c'.replicas i).applied = 1) ∧ installedSince false events = false ∧
    (c'.replicas false).node.ctx.httpReverseProxyList.lookup 8080 = some proxy ∧
    EStateM.run (serveHTTP true (fun _ => true) usersRequest) proxy =
      .ok (.forwarded "10.0.0.1" 80 "/users") proxy' ∧
    Routed (c'.replicas true).node.ctx (flip.route (flip.route (confRouting oneProxyConf))) := by
  obtain ⟨ctx, ctx₁, proxy, proxy', hboot, hflip, hproxy, hserve, hrecord⟩ := oneProxyConf_flips
  have hrouted : Routed ctx₁ (flip.route (confRouting oneProxyConf)) :=
    (routed_boot modesAgree_oneProxyConf hboot).apply hflip
  have hreachable : Reachable ⟨ctx₁, []⟩ :=
    (Reachable.boot hboot).step (show (NodeEvent.on (.apply flip)).snapshot = none from rfl)
      (.on (.apply hflip))
  -- the state the flag was flipped in can be restored
  obtain ⟨node, hrestore⟩ := exists_restore hrouted hreachable.sound hrecord .sorted fun _ => true
  have hnode : Routed node.ctx (flip.route (confRouting oneProxyConf)) :=
    routed_restore hrouted (fun port hport => absurd hport Finmap.notMem_empty) hrestore
  -- and the flag can be flipped again
  have hsound : node.ctx.Sound :=
    ((reachable_empty fun _ => true).restore hreachable (show (NodeEvent.restore .sorted
      ctx₁.marshal).snapshot = some ctx₁.marshal from rfl) (.restore hrestore)).sound
  obtain ⟨q, hq⟩ : ∃ q, node.ctx.httpReverseProxyList.lookup 8080 = some q :=
    Finmap.mem_iff.mp ((hnode.mem_iff 8080).mpr
      ((hrouted.mem_iff 8080).mp (Finmap.mem_iff.mpr ⟨proxy, hproxy⟩)))
  have hcall : flip.call = some (8080, .routing (.changeStatic "/api")) := rfl
  have hready : flip.Ready node.ctx := (LogEntry.ready_of_call hcall).mpr ⟨q, hq, trivial⟩
  obtain ⟨⟨⟩, ctx₂, hagain⟩ :=
    completes_iff.mp (StateContext.completes_of_ready hsound hready)
  refine ⟨⟨[], fun _ => ⟨⟨ctx, []⟩, 0, none, fun _ => none⟩, []⟩, _, _, proxy, proxy',
    ⟨rfl, rfl, fun _ => ⟨_, _, ctx, hboot, rfl⟩⟩,
    .cons (.commit _ flip) (.cons (.snapshot _ false) (.cons (.apply (i := false) rfl hflip)
      (.cons (.persist (i := false) rfl) (.cons (.restart (i := true) List.mem_cons_self hrestore)
        (.single (.apply (i := true) rfl hagain)))))), rfl, ?_, rfl, hproxy, hserve,
    hnode.apply hagain⟩
  intro i
  cases i <;> rfl

/-! ## Nodes at the end of the log -/

section CaughtUp

variable {ι : Type} [DecidableEq ι] {confs : List HttpProxyArgs} {c c' : RaftGroup ι}
  {events : List (RaftEvent ι)} {i : ι} {G : GatewayRouting}

theorem exists_routing (hagree : ∀ args ∈ confs, ModesAgree args) (hstart : Started confs c)
    (hrun : Run RaftStep c events c') (hfits : LogFits (confRouting confs) c'.log) (i : ι) :
    ∃ G, Routed (c'.replicas i).node.ctx G := by
  have hkeeps : (portWatch 0).keeps (confRouting confs) := trivial
  obtain ⟨G, hG, -⟩ :=
    ((tracked_run hagree hstart hkeeps hrun (fun _ _ => trivial) hfits).replicas i).holds
  exact ⟨G, hG⟩

theorem alike_caught_up (hagree : ∀ args ∈ confs, ModesAgree args) (hstart : Started confs c)
    (hrun : Run RaftStep c events c') (hfits : LogFits (confRouting confs) c'.log)
    (hcaught : (c'.replicas i).applied = c'.log.length)
    (hG : Routed (c'.replicas i).node.ctx G) :
    Alike G (logRouting (confRouting confs) c'.log) where
  ports port := by
    have hvalue : G.hasPort port = (logRouting (confRouting confs) c'.log).hasPort port :=
      watch_caught_up (w := portWatch port) hagree hstart trivial hrun (fun _ _ => trivial)
        hfits hcaught hG
    rw [← not_iff_not, ← Finmap.lookup_eq_none, ← Finmap.lookup_eq_none, ← hasPort_eq_none,
      ← hasPort_eq_none, hvalue]
  algorithms port q :=
    watch_caught_up (w := aspectWatch algorithmAspect port q) hagree hstart
      (fun _ _ _ _ _ _ => trivial) hrun
      (fun entry _ p call _ => by cases call <;> trivial) hfits hcaught hG

theorem sameHosts_caught_up (hplain : ∀ args ∈ confs, PlainArgs args)
    (hstart : Started confs c) (hrun : Run RaftStep c events c')
    (hfits : LogFits (confRouting confs) c'.log) (hentries : ∀ entry ∈ c'.log, PlainEntry entry)
    (hcaught : (c'.replicas i).applied = c'.log.length)
    (hG : Routed (c'.replicas i).node.ctx G) :
    SameHosts G (logRouting (confRouting confs) c'.log) := by
  intro port q v v' hv hv' host
  have hvalue : (G.view port q).map (hostAspect host).read =
      ((logRouting (confRouting confs) c'.log).view port q).map (hostAspect host).read :=
    watch_caught_up (w := aspectWatch (hostAspect host) port q)
      (fun args hargs => modesAgree_of_plain (hplain args hargs)) hstart
      (keeps_confRouting hplain host) hrun
      (fun entry hentry p call hcall => admits_of_plain (hentries entry hentry p call hcall) host)
      hfits hcaught hG
  rw [hv, hv', Option.map_some, Option.map_some] at hvalue
  exact decide_eq_decide.mp (Option.some.inj hvalue)

/-- In every run, a node that has applied the whole log has the ports, prefixes
and algorithms that the log means, and when all prefixes are round robin over
distinct hosts the hosts as well. -/
theorem caught_up_routes (hagree : ∀ args ∈ confs, ModesAgree args) (hstart : Started confs c)
    (hrun : Run RaftStep c events c') (hfits : LogFits (confRouting confs) c'.log)
    (hcaught : (c'.replicas i).applied = c'.log.length) :
    ∃ G, Routed (c'.replicas i).node.ctx G ∧ Alike G (logRouting (confRouting confs) c'.log) ∧
      ((∀ args ∈ confs, PlainArgs args) → (∀ entry ∈ c'.log, PlainEntry entry) →
        SameHosts G (logRouting (confRouting confs) c'.log)) := by
  obtain ⟨G, hG⟩ := exists_routing hagree hstart hrun hfits i
  exact ⟨G, hG, alike_caught_up hagree hstart hrun hfits hcaught hG,
    fun hplain hentries => sameHosts_caught_up hplain hstart hrun hfits hentries hcaught hG⟩

/-- Both nodes, the one that started from the late snapshot included. -/
theorem caught_up_routes_late_snapshot : ∃ (c : RaftGroup Bool) (G : GatewayRouting),
    c.log = [flip] ∧ Routed (c.replicas true).node.ctx G ∧
    Alike G (logRouting (confRouting oneProxyConf) [flip]) := by
  obtain ⟨c, c', events, proxy, proxy', hstart, hrun, hlog, happlied, -⟩ := exists_late_run
  obtain ⟨G, hG, halike, -⟩ := caught_up_routes (i := true) modesAgree_oneProxyConf hstart hrun
    (hlog ▸ logFits_flip) (by rw [happlied, hlog]; rfl)
  exact ⟨c', G, hlog, hG, hlog ▸ halike⟩

theorem view_of_lookup {R : Routing} {port : Int} (h : G.lookup port = some R) (q : String) :
    G.view port q = R.routes.lookup q := by
  rw [GatewayRouting.view, h, Option.bind_some]

/-- A request that such a node forwards goes where the log says, when the node has
installed no snapshot since it started: behind the longest prefix of the log, to a host
that the log lists for it. -/
theorem caught_up_forwards (hplain : ∀ args ∈ confs, PlainArgs args) (hstart : Started confs c)
    (hrun : Run RaftStep c events c') (hfits : LogFits (confRouting confs) c'.log)
    (hentries : ∀ entry ∈ c'.log, PlainEntry entry)
    (hcaught : (c'.replicas i).applied = c'.log.length)
    (hlive : installedSince i events = false) {port : Int} {proxy proxy' : HttpReverseProxy}
    (hserved : (c'.replicas i).served port = some proxy)
    {peerAvailable : Bool} {allow : QpsRateLimiter → Bool} {r : Utils.Request}
    (hslash : ∃ rest, r.path = "/" ++ rest) {host apiUrl : String} {hostPort : Int}
    (hserve : EStateM.run (serveHTTP peerAvailable allow r) proxy =
      .ok (.forwarded host hostPort apiUrl) proxy') :
    ∃ R, (logRouting (confRouting confs) c'.log).lookup port = some R ∧
      R.Forwards r.path host hostPort apiUrl := by
  have hagree : ∀ args ∈ confs, ModesAgree args :=
    fun args hargs => modesAgree_of_plain (hplain args hargs)
  have hproxy := (served_of_run hstart hrun hlive port).symm.trans hserved
  obtain ⟨G, hG⟩ := exists_routing hagree hstart hrun hfits i
  have halike := alike_caught_up hagree hstart hrun hfits hcaught hG
  have hhosts := sameHosts_caught_up hplain hstart hrun hfits hentries hcaught hG
  obtain ⟨R, hR, hrep⟩ := hG.lookup hproxy
  obtain ⟨R', hR'⟩ := Finmap.mem_iff.mp ((halike.ports port).mp (Finmap.mem_iff.mpr ⟨R, hR⟩))
  refine ⟨R', hR', (forwarded_by_routing hrep hslash hserve).of_alike (fun q => ?_) ?_⟩
  · rw [← view_of_lookup hR, ← view_of_lookup hR', halike.algorithms]
  · intro q v v' hv hv' addr haddr
    rw [← view_of_lookup hR] at hv
    rw [← view_of_lookup hR'] at hv'
    exact (hhosts port q v v' hv hv' addr).mp haddr

/-- The request to a user behind the prefix. -/
theorem caught_up_forwards_late_snapshot : ∃ R,
    (logRouting (confRouting oneProxyConf) [flip]).lookup 8080 = some R ∧
      R.Forwards "/api/users" "10.0.0.1" 80 "/users" := by
  obtain ⟨c, c', events, proxy, proxy', hstart, hrun, hlog, happlied, hlive, hproxy, hserve,
    -⟩ := exists_late_run
  have hentries : ∀ entry ∈ [flip], PlainEntry entry := by
    intro entry hentry p call hcall
    obtain rfl := List.mem_singleton.mp hentry
    cases hcall
    trivial
  have hforwards := caught_up_forwards (i := false) plainArgs_oneProxyConf hstart hrun
    (hlog ▸ logFits_flip) (hlog ▸ hentries) (by rw [happlied, hlog]; rfl) hlive
    ((served_of_run hstart hrun hlive 8080).trans hproxy) ⟨"api/users", rfl⟩ hserve
  rwa [hlog] at hforwards

/-- The static flag of that node is not the one of the log. -/
theorem static_flag_comes_out_wrong : ∃ (c c' : RaftGroup Bool) (events : List (RaftEvent Bool))
    (G : GatewayRouting), Started oneProxyConf c ∧ Run RaftStep c events c' ∧
    LogFits (confRouting oneProxyConf) c'.log ∧
    (c'.replicas true).applied = c'.log.length ∧ Routed (c'.replicas true).node.ctx G ∧
    (G.lookup 8080).map (fun R => R.static.lookup "/api") = some (some false) ∧
    ((logRouting (confRouting oneProxyConf) c'.log).lookup 8080).map
      (fun R => R.static.lookup "/api") = some (some true) := by
  obtain ⟨c, c', events, proxy, proxy', hstart, hrun, hlog, happlied, -, -, -, hrouted⟩ :=
    exists_late_run
  refine ⟨c, c', events, _, hstart, hrun, hlog ▸ logFits_flip, by rw [happlied, hlog]; rfl,
    hrouted, rfl, ?_⟩
  rw [hlog]
  rfl

end CaughtUp

end Cluster
end VermouthGateway
