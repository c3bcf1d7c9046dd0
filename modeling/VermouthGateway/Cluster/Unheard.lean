import VermouthGateway.Cluster.Routing

/-!
# Proxies that nobody shuts down

The removal of a proxy is a signal to its goroutine.  A proxy whose port was in use has
none, and a decoded one has no channel: whoever removes it waits for ever, and in
cluster mode that is the goroutine which applies the log.

* `Unheard`: the proxy of a port has no goroutine.
* `Unheard.nodeStep`: every step of a node leaves it so.
* `removable_iff`: so a proxy can be removed in some run exactly when it can be now.
* `restored_proxies_stay`: after a restore no proxy of the snapshot ever is.
-/

namespace VermouthGateway
namespace Cluster

open Go Proxy Balancing Runs

/-- No goroutine receives for the proxy of the port, and none is about to delete it. -/
structure Unheard (port : Int) (ctx : StateContext) : Prop where
  listed : ∃ proxy, ctx.httpReverseProxyList.lookup port = some proxy ∧
    ∀ c, proxy.shutdown = some c → ∀ q, .awaitShutdown q c ∉ ctx.goroutines
  settled : .shuttingDown port ∉ ctx.goroutines

/-- The entry removes or closes the proxy of the port. -/
def LogEntry.Removes (port : Int) : LogEntry → Prop
  | .rmvHttpProxy body => body.port = port
  | .chgState body => body.port = port ∧ body.state ≠ 1 ∧ body.state ≠ 2
  | _ => False

section Unheard

variable {port : Int} {ctx ctx' : StateContext}

namespace Unheard

theorem not_receiver (h : Unheard port ctx) (hpaired : Paired ctx) {g : Goroutine} :
    ¬ ctx.Receiver port g := by
  intro hg
  obtain ⟨proxy, c, hproxy, hc, rfl, hmem⟩ := Tracks.receiver_eq hpaired hg
  obtain ⟨_, hold, hnone⟩ := h.listed
  cases hold.symm.trans hproxy
  exact hnone c hc port hmem

/-- The proxy has kept its channel, and who waits now waited before or waits for a new
one. -/
theorem of_waiting (h : Unheard port ctx) (hpaired : Paired ctx)
    (hlisted : ∀ proxy, ctx.httpReverseProxyList.lookup port = some proxy →
      ∃ proxy', ctx'.httpReverseProxyList.lookup port = some proxy' ∧
        proxy'.shutdown = proxy.shutdown)
    (hawait : ∀ q c, .awaitShutdown q c ∈ ctx'.goroutines →
      .awaitShutdown q c ∈ ctx.goroutines ∨ c = ctx.nextChan)
    (hsettled : .shuttingDown port ∈ ctx'.goroutines →
      .shuttingDown port ∈ ctx.goroutines) : Unheard port ctx' := by
  obtain ⟨proxy, hproxy, hnone⟩ := h.listed
  obtain ⟨proxy', hproxy', hsame⟩ := hlisted proxy hproxy
  refine ⟨⟨proxy', hproxy', fun c hc q hmem => ?_⟩, fun hpending => h.settled (hsettled hpending)⟩
  rw [hsame] at hc
  rcases hawait q c hmem with hold | rfl
  · exact hnone c hc q hold
  · exact absurd (hpaired.madeListed port proxy _ hproxy hc) (lt_irrefl _)

/-- A proxy is written back to its port. -/
theorem insert (h : Unheard port ctx) (hpaired : Paired ctx) {q : Int}
    {proxy proxy' : HttpReverseProxy} (hproxy : ctx.httpReverseProxyList.lookup q = some proxy)
    (hsame : proxy'.shutdown = proxy.shutdown) :
    Unheard port { ctx with
      httpReverseProxyList := ctx.httpReverseProxyList.insert q proxy' } := by
  refine h.of_waiting hpaired (fun old hold => ?_) (fun _ _ hmem => .inl hmem) id
  by_cases hq : port = q
  · subst hq
    cases hold.symm.trans hproxy
    exact ⟨proxy', Finmap.lookup_insert _, hsame⟩
  · exact ⟨old, (Finmap.lookup_insert_of_ne _ hq).trans hold, rfl⟩

/-- The proxy of another port gets its signal. -/
theorem signalled (h : Unheard port ctx) (hpaired : Paired ctx) {q : Int} {g : Goroutine}
    (hg : ctx.Receiver q g) {list : GoMap Int HttpReverseProxy}
    (hlist : port ≠ q → list.lookup port = ctx.httpReverseProxyList.lookup port) :
    Unheard port { ctx with
      httpReverseProxyList := list
      goroutines := ctx.goroutines.erase g ++ [g.received] } := by
  have hne : port ≠ q := fun heq => h.not_receiver hpaired (heq ▸ hg)
  obtain ⟨proxy, c, -, -, rfl, -⟩ := Tracks.receiver_eq hpaired hg
  refine h.of_waiting hpaired (fun old hold => ⟨old, (hlist hne).trans hold, rfl⟩) ?_ ?_
  · intro q' d hmem
    rcases List.mem_append.mp hmem with hmem | hmem
    · exact .inl (List.mem_of_mem_erase hmem)
    · cases List.mem_singleton.mp hmem
  · intro hpending
    rcases List.mem_append.mp hpending with hmem | hmem
    · exact List.mem_of_mem_erase hmem
    · cases List.mem_singleton.mp hmem
      exact absurd rfl hne

theorem apply (h : Unheard port ctx) (hpaired : Paired ctx) {entry : LogEntry}
    (hrun : EStateM.run (StateContext.apply entry) ctx = .ok () ctx') : Unheard port ctx' := by
  cases hcall : entry.call with
  | some target =>
      obtain ⟨q, call⟩ := target
      rw [StateContext.apply_of_call hcall] at hrun
      obtain ⟨proxy, proxy', hproxy, hbody, rfl⟩ := StateContext.run_onProxy_ok hrun
      exact h.insert hpaired hproxy (call.run_sameServer hbody).shutdown
  | none =>
      rcases StateContext.apply_of_no_call hcall with
        ⟨body, rfl⟩ | ⟨body, rfl⟩ | ⟨body, rfl, -, -, happly⟩
      · -- the port keeps its proxy, and a new goroutine waits on the channel of the new one
        obtain ⟨proxy, -, rfl⟩ := StateContext.run_handleAddHttpProxy_ok hrun
        refine h.of_waiting hpaired (fun old hold => ⟨old, ?_, rfl⟩) (fun q c hmem => ?_)
          shuttingDown_withNewProxy.mp
        · rw [StateContext.withNewProxy]
          dsimp only
          split
          · exact hold
          next hfree =>
            have hne : port ≠ body.port := by
              rintro rfl
              exact hfree (Finmap.mem_iff.mpr ⟨old, hold⟩)
            exact (Finmap.lookup_insert_of_ne _ hne).trans hold
        · exact (awaitShutdown_withNewProxy hmem).imp id And.right
      · obtain ⟨g, hg, rfl⟩ := StateContext.run_handleRemoveHttpProxy_ok hrun
        exact h.signalled hpaired hg Finmap.lookup_erase_ne
      · rw [happly] at hrun
        obtain ⟨g, hg, rfl⟩ := StateContext.run_close_ok hrun
        exact h.signalled hpaired hg fun _ => rfl

theorem serve (h : Unheard port ctx) (hpaired : Paired ctx) (q : Int) (peerAvailable : Bool)
    (allow : QpsRateLimiter → Bool) (r : Utils.Request) :
    Unheard port (ctx.serve q peerAvailable allow r) := by
  rw [StateContext.serve]
  cases hproxy : ctx.httpReverseProxyList.lookup q with
  | none =>
      rw [StateContext.run_onProxy_none hproxy]
      exact h
  | some proxy =>
      rw [StateContext.run_onProxy_some hproxy, memory_embed]
      exact h.insert hpaired hproxy (frame_serveHTTP proxy peerAvailable allow r).1.shutdown

theorem step (h : Unheard port ctx) (hpaired : Paired ctx) {event : Event}
    (hstep : Step ctx event ctx') : Unheard port ctx' := by
  cases hstep with
  | apply hrun => exact h.apply hpaired hrun
  | serve q peerAvailable allow r => exact h.serve hpaired q peerAvailable allow r
  | @finish q hpending =>
      have hne : port ≠ q := fun heq => h.settled (heq ▸ hpending)
      refine h.of_waiting hpaired (fun old hold => ?_)
        (fun _ _ hmem => .inl (List.mem_of_mem_erase hmem)) List.mem_of_mem_erase
      exact ⟨old, (Finmap.lookup_erase_ne hne).trans hold, rfl⟩

end Unheard

/-! ## Restores -/

section Restores

variable {snapshot : ContextSnapshot} {order : ContextOrder} {starts : Bool}
  {body : Int → Eff HttpReverseProxy Bool} {node node' : Node}

/-- What the rounds of a restore leave on a port. -/
theorem channel_restored
    (hbody : ∀ port proxy answer proxy',
      EStateM.run (body port) proxy = .ok answer proxy' → proxy'.shutdown = proxy.shutdown)
    (hdone : RoundsDone starts body
      (order.ports.keys (node.unMarshal snapshot).ctx.httpReverseProxyList)
      (node.unMarshal snapshot) node')
    {proxy : HttpReverseProxy}
    (hproxy : (node.unMarshal snapshot).ctx.httpReverseProxyList.lookup port = some proxy) :
    ∃ proxy', node'.ctx.httpReverseProxyList.lookup port = some proxy' ∧
      proxy'.shutdown = proxy.shutdown := by
  obtain ⟨proxy₁, answer, proxy', hlookup, hround, hrestored, -⟩ :=
    hdone.round port ((order.ports.mem_keys _ _).mpr (Finmap.mem_iff.mpr ⟨proxy, hproxy⟩))
  cases hproxy.symm.trans hlookup
  exact ⟨proxy', hrestored, hbody port _ answer proxy' hround⟩

/-- A port of the snapshot is unheard, and one that was so before is so still. -/
theorem unheard_of_roundsDone
    (hbody : ∀ port proxy answer proxy',
      EStateM.run (body port) proxy = .ok answer proxy' → proxy'.shutdown = proxy.shutdown)
    (hdone : RoundsDone starts body
      (order.ports.keys (node.unMarshal snapshot).ctx.httpReverseProxyList)
      (node.unMarshal snapshot) node')
    (hport : port ∈ snapshot ∧ .shuttingDown port ∉ node.ctx.goroutines ∨
      Unheard port node.ctx) : Unheard port node'.ctx := by
  have hgoroutines : node'.ctx.goroutines = node.ctx.goroutines := by
    rw [hdone.frame]
    rfl
  have hsettled : .shuttingDown port ∉ node'.ctx.goroutines := by
    rw [hgoroutines]
    exact hport.elim And.right Unheard.settled
  cases hs : snapshot.lookup port with
  | some saved =>
      -- a decoded proxy has a nil channel
      obtain ⟨proxy', hproxy', hsame⟩ := channel_restored hbody hdone
        ((Node.lookup_unMarshal snapshot node port).trans (by rw [hs]; rfl))
      refine ⟨⟨proxy', hproxy', fun c hc => ?_⟩, hsettled⟩
      rw [hsame] at hc
      cases hc
  | none =>
      have hunheard : Unheard port node.ctx := hport.resolve_left fun hmem =>
        Finmap.lookup_eq_none.mp hs hmem.1
      obtain ⟨proxy, hproxy, hnone⟩ := hunheard.listed
      obtain ⟨proxy', hproxy', hsame⟩ := channel_restored hbody hdone
        ((Node.lookup_unMarshal snapshot node port).trans (by rw [hs]; exact hproxy))
      refine ⟨⟨proxy', hproxy', fun c hc q => ?_⟩, hsettled⟩
      rw [hgoroutines]
      exact hnone c (hsame.symm.trans hc) q

/-- Both restores keep the channels of the proxies they restore. -/
theorem unheard_of_restore {event : NodeEvent} (htaken : event.snapshot = some snapshot)
    (hstep : NodeStep node event node')
    (hport : port ∈ snapshot ∧ .shuttingDown port ∉ node.ctx.goroutines ∨
      Unheard port node.ctx) : Unheard port node'.ctx := by
  cases hstep with
  | on hstep => cases htaken
  | started hmem hrun => cases htaken
  | restore hrun =>
      cases htaken
      refine unheard_of_roundsDone ?_ (run_restore_ok hrun) hport
      intro port proxy answer proxy' hround
      obtain ⟨tree, -, hrestore⟩ := run_restoreProxy_ok hround
      have hkept := Paired.shutdown_restore hrestore
      exact hkept
  | restoreFromSnap hrun =>
      cases htaken
      exact unheard_of_roundsDone (fun _ _ _ _ hround => Paired.shutdown_restore hround)
        (run_restoreFromSnap_ok hrun) hport

theorem Unheard.nodeStep {event : NodeEvent} (h : Unheard port node.ctx)
    (hpaired : Paired node.ctx) (hstep : NodeStep node event node') :
    Unheard port node'.ctx := by
  cases htaken : event.snapshot with
  | some snapshot => exact unheard_of_restore htaken hstep (.inr h)
  | none =>
      cases hstep with
      | on hstep => exact h.step hpaired hstep
      | started hmem hrun =>
          obtain ⟨proxy, proxy', hproxy, hstart, rfl⟩ := StateContext.run_onProxy_ok hrun
          exact h.insert hpaired hproxy (ProxyCall.run_sameServer .start hstart).shutdown
      | restore hrun => cases htaken
      | restoreFromSnap hrun => cases htaken

theorem Unheard.nodeRun {events : List NodeEvent} (h : Unheard port node.ctx)
    (hpaired : Paired node.ctx) (hrun : Run NodeStep node events node') :
    Paired node'.ctx ∧ Unheard port node'.ctx :=
  hrun.invariant (P := fun node => Paired node.ctx ∧ Unheard port node.ctx)
    (fun _ _ _ h hstep => ⟨h.1.nodeStep hstep, h.2.nodeStep h.1 hstep⟩) ⟨hpaired, h⟩

end Restores

/-! ## Removals -/

theorem Unheard.run_close (h : Unheard port ctx) :
    EStateM.run (StateContext.close port) ctx = .error .blocked ctx := by
  obtain ⟨proxy, hproxy, hnone⟩ := h.listed
  have hfind : (proxy.shutdown.bind fun c => ctx.goroutines.find? (Goroutine.receives c)) =
      none := by
    cases hc : proxy.shutdown with
    | none => rfl
    | some c =>
        rw [Option.bind_some, List.find?_eq_none]
        intro g hg hreceives
        cases g with
        | awaitShutdown q d =>
            obtain rfl : d = c := of_decide_eq_true hreceives
            exact hnone d hc q hg
        | shuttingDown q => exact Bool.false_ne_true hreceives
  rw [StateContext.close, EStateM.run_bind, StateContext.run_onProxy_get hproxy]
  dsimp only
  rw [StateContext.send, EStateM.run_bind, EStateM.run_get]
  dsimp only
  rw [hfind]
  rfl

/-- Whoever applies the removal waits for ever. -/
theorem Unheard.run_removal (h : Unheard port ctx) {entry : LogEntry}
    (hremoves : entry.Removes port) :
    EStateM.run (StateContext.apply entry) ctx = .error .blocked ctx := by
  cases entry with
  | rmvHttpProxy body =>
      obtain rfl : body.port = port := hremoves
      show EStateM.run (StateContext.handleRemoveHttpProxy body) ctx = _
      rw [StateContext.handleRemoveHttpProxy, EStateM.run_bind, h.run_close]
  | chgState body =>
      obtain ⟨rfl, hstart, hstop⟩ := hremoves
      show EStateM.run (StateContext.handleChangeState body) ctx = _
      rw [StateContext.handleChangeState, StateContext.changeState, if_neg hstart, if_neg hstop,
        h.run_close]
  | _ => cases hremoves

/-- A proxy that nobody receives for. -/
theorem unheard_of_no_receiver {proxy : HttpReverseProxy}
    (hproxy : ctx.httpReverseProxyList.lookup port = some proxy)
    (hidle : .shuttingDown port ∉ ctx.goroutines) (hnone : ¬ ∃ g, ctx.Receiver port g) :
    Unheard port ctx := by
  refine ⟨⟨proxy, hproxy, fun c hc q hmem => hnone ?_⟩, hidle⟩
  have hfind : (ctx.goroutines.find? (Goroutine.receives c)).isSome :=
    List.find?_isSome.mpr ⟨_, hmem, decide_eq_true rfl⟩
  obtain ⟨g, hg⟩ := Option.isSome_iff_exists.mp hfind
  exact ⟨g, proxy, c, hproxy, hc, hg⟩

/-- A proxy that is not being shut down can be removed or closed in some run of the node
exactly when its goroutine is there now. -/
theorem removable_iff {node : Node} (hreach : Reachable node)
    (hport : port ∈ node.ctx.httpReverseProxyList)
    (hidle : .shuttingDown port ∉ node.ctx.goroutines) :
    (∃ events node' entry ctx', Run NodeStep node events node' ∧ entry.Removes port ∧
      EStateM.run (StateContext.apply entry) node'.ctx = .ok () ctx') ↔
      ∃ g, node.ctx.Receiver port g := by
  constructor
  · rintro ⟨events, node', entry, ctx', hrun, hremoves, happly⟩
    by_contra hnone
    obtain ⟨proxy, hproxy⟩ := Finmap.mem_iff.mp hport
    obtain ⟨-, hunheard⟩ :=
      (unheard_of_no_receiver hproxy hidle hnone).nodeRun hreach.paired hrun
    rw [hunheard.run_removal hremoves] at happly
    cases happly
  · intro hreceiver
    obtain ⟨⟨⟩, ctx', happly⟩ := completes_iff.mp
      (StateContext.completes_handleRemoveHttpProxy_iff.mpr hreceiver)
    exact ⟨[], node, .rmvHttpProxy ⟨port⟩, ctx', .nil node, rfl, happly⟩

/-- The proxy of a configuration whose port was free, and the one whose port was not. -/
theorem removable_iff_one_proxy : ∃ heard unheard : Node,
    (∃ events node' entry ctx', Run NodeStep heard events node' ∧
      LogEntry.Removes 8080 entry ∧
      EStateM.run (StateContext.apply entry) node'.ctx = .ok () ctx') ∧
    8080 ∈ unheard.ctx.httpReverseProxyList ∧
    ¬ ∃ events node' entry ctx', Run NodeStep unheard events node' ∧
      LogEntry.Removes 8080 entry ∧
      EStateM.run (StateContext.apply entry) node'.ctx = .ok () ctx' := by
  obtain ⟨ctx, hboot, hchannel, hwaits⟩ : ∃ ctx,
      EStateM.run (StateContext.boot oneProxyConf (.sorted _ _)) (newStateContext fun _ => true) =
        .ok () ctx ∧
      (ctx.httpReverseProxyList.lookup 8080).map HttpReverseProxy.shutdown = some (some 0) ∧
      ctx.goroutines = [.awaitShutdown 8080 0] :=
    ⟨_, run_boot _ rfl, by decide +kernel, by decide +kernel⟩
  obtain ⟨proxy, hproxy, hshutdown⟩ := Option.map_eq_some_iff.mp hchannel
  have hport : 8080 ∈ ctx.httpReverseProxyList := Finmap.mem_iff.mpr ⟨proxy, hproxy⟩
  have hidle : Goroutine.shuttingDown 8080 ∉ ctx.goroutines := by
    rw [hwaits]
    decide
  have hreceiver : ctx.Receiver 8080 (.awaitShutdown 8080 0) :=
    ⟨proxy, 0, hproxy, hshutdown, by rw [hwaits]; rfl⟩
  obtain ⟨ctx', hboot', hport', hgoroutines⟩ : ∃ ctx,
      EStateM.run (StateContext.boot oneProxyConf (.sorted _ _))
        (newStateContext fun _ => false) = .ok () ctx ∧
      8080 ∈ ctx.httpReverseProxyList ∧ ctx.goroutines = [] :=
    ⟨_, run_boot _ rfl, by decide +kernel, by decide +kernel⟩
  have hidle' : Goroutine.shuttingDown 8080 ∉ ctx'.goroutines := by
    rw [hgoroutines]
    exact List.not_mem_nil
  refine ⟨⟨ctx, []⟩, ⟨ctx', []⟩, (removable_iff (.boot hboot) hport hidle).mpr ⟨_, hreceiver⟩,
    hport', fun hremovable => ?_⟩
  obtain ⟨g, proxy, c, -, -, hfind⟩ := (removable_iff (.boot hboot') hport' hidle').mp hremovable
  rw [hgoroutines] at hfind
  cases hfind

/-- After a restore the proxies of the snapshot are there in every run, and whoever removes
or closes one of them waits for ever: in cluster mode the node applies nothing more. -/
theorem restored_proxies_stay {node₀ node₁ node : Node} {event : NodeEvent}
    {events : List NodeEvent} {snapshot : ContextSnapshot} (hreach : Reachable node₀)
    (htaken : event.snapshot = some snapshot) (hport : port ∈ snapshot)
    (hidle : .shuttingDown port ∉ node₀.ctx.goroutines) (hrestore : NodeStep node₀ event node₁)
    (hrun : Run NodeStep node₁ events node) :
    port ∈ node.ctx.httpReverseProxyList ∧ ∀ entry : LogEntry, entry.Removes port →
      EStateM.run (StateContext.apply entry) node.ctx = .error .blocked node.ctx := by
  have hrestored := unheard_of_restore htaken hrestore (.inl ⟨hport, hidle⟩)
  obtain ⟨-, hunheard⟩ := hrestored.nodeRun (hreach.paired.nodeStep hrestore) hrun
  obtain ⟨proxy, hproxy, -⟩ := hunheard.listed
  exact ⟨Finmap.mem_iff.mpr ⟨proxy, hproxy⟩, fun entry => hunheard.run_removal⟩

/-- A new process restores the snapshot of one proxy. -/
theorem restored_proxies_stay_one_proxy : ∃ (snapshot : ContextSnapshot) (node : Node),
    NodeStep emptyNode (.restore .sorted snapshot) node ∧
    EStateM.run (StateContext.apply (.rmvHttpProxy ⟨8080⟩)) node.ctx =
      .error .blocked node.ctx := by
  obtain ⟨ctx, node, hboot, hrestore⟩ := oneProxyConf_restores
  have hport : 8080 ∈ ctx.marshal := by
    have hmem : 8080 ∈ ctx.httpReverseProxyList :=
      ((routed_boot modesAgree_oneProxyConf hboot).mem_iff 8080).mpr
        (Finmap.mem_insert.mpr (.inl rfl))
    exact (ctx.mem_marshal 8080).mpr hmem
  have hstep : NodeStep emptyNode (.restore .sorted ctx.marshal) node := .restore hrestore
  have hstays := restored_proxies_stay (reachable_empty _) rfl hport List.not_mem_nil hstep
    (.nil node)
  exact ⟨ctx.marshal, node, hstep, hstays.2 _ rfl⟩

end Unheard

end Cluster
end VermouthGateway
