import VermouthGateway.Cluster.Reachable

/-!
# Shutdowns and the set of proxies

A close entry only signals the goroutine of its proxy; the goroutine deletes
the port from the map when its shutdown is over, at a time of its own on each
node.  `livePorts` is the set of ports a log leaves, without any of that.

* `Paired`: every channel has one goroutine at most, that of the proxy it was
  made for; it holds in every reachable state.
* `Tracks`: the map of a node holds the live ports and those that are being
  shut down, which are not live.
* `Tracks.step`: every step keeps it, as long as no proxy is added on a port
  that is being shut down.
* `ports_agree`: two nodes whose shutdowns are over then have the same ports.
* `late_deletion`: a proxy added on such a port is deleted on one node only.
-/

namespace VermouthGateway
namespace Cluster

open Go Proxy Balancing Runs

/-! ## Channels and goroutines -/

/-- Goroutines and channels are paired: a channel was made before it is used,
one goroutine at most receives on it, and it does so for the port whose proxy
has it. -/
structure Paired (ctx : StateContext) : Prop where
  once : ∀ port c, ctx.goroutines.count (.awaitShutdown port c) ≤ 1
  made : ∀ port c, .awaitShutdown port c ∈ ctx.goroutines → c < ctx.nextChan
  madeListed : ∀ port proxy c, ctx.httpReverseProxyList.lookup port = some proxy →
    proxy.shutdown = some c → c < ctx.nextChan
  single : ∀ port port' c, .awaitShutdown port c ∈ ctx.goroutines →
    .awaitShutdown port' c ∈ ctx.goroutines → port = port'
  owned : ∀ port proxy c port', ctx.httpReverseProxyList.lookup port = some proxy →
    proxy.shutdown = some c → .awaitShutdown port' c ∈ ctx.goroutines → port' = port

/-- Whoever has a channel in the later context had it on the same port. -/
def Inherits (ctx ctx' : StateContext) : Prop :=
  ∀ port proxy c, ctx'.httpReverseProxyList.lookup port = some proxy →
    proxy.shutdown = some c →
    ∃ old, ctx.httpReverseProxyList.lookup port = some old ∧ old.shutdown = some c

namespace Paired

variable {ctx ctx' : StateContext}

/-- Fewer goroutines wait, and no channel has moved. -/
theorem of_le (h : Paired ctx) (hchan : ctx'.nextChan = ctx.nextChan)
    (hcount : ∀ port c, ctx'.goroutines.count (.awaitShutdown port c) ≤
      ctx.goroutines.count (.awaitShutdown port c))
    (hlisted : Inherits ctx ctx') : Paired ctx' := by
  have hmem : ∀ port c, .awaitShutdown port c ∈ ctx'.goroutines →
      .awaitShutdown port c ∈ ctx.goroutines := by
    intro port c hawait
    exact List.count_pos_iff.mp (lt_of_lt_of_le (List.count_pos_iff.mpr hawait) (hcount port c))
  refine ⟨fun port c => (hcount port c).trans (h.once port c), ?_, ?_, ?_, ?_⟩
  · intro port c hawait
    rw [hchan]
    exact h.made port c (hmem port c hawait)
  · intro port proxy c hproxy hc
    obtain ⟨old, hold, hc⟩ := hlisted port proxy c hproxy hc
    rw [hchan]
    exact h.madeListed port old c hold hc
  · intro port port' c hawait hawait'
    exact h.single port port' c (hmem port c hawait) (hmem port' c hawait')
  · intro port proxy c port' hproxy hc hawait
    obtain ⟨old, hold, hc⟩ := hlisted port proxy c hproxy hc
    exact h.owned port old c port' hold hc (hmem port' c hawait)

end Paired

section Inheriting

variable {ctx : StateContext} {port : Int} {gs : List Goroutine}

theorem inherits_insert {proxy proxy' : HttpReverseProxy}
    (hproxy : ctx.httpReverseProxyList.lookup port = some proxy)
    (hsame : proxy'.shutdown = proxy.shutdown) :
    Inherits ctx { ctx with
      httpReverseProxyList := ctx.httpReverseProxyList.insert port proxy' } := by
  intro q other c hq hc
  dsimp only at hq
  rw [GoMap.lookup_insert_eq] at hq
  split at hq
  · next heq =>
      cases hq
      exact ⟨proxy, by rw [heq, hproxy], by rw [← hsame, hc]⟩
  · exact ⟨other, hq, hc⟩

theorem inherits_erase :
    Inherits ctx { ctx with
      httpReverseProxyList := ctx.httpReverseProxyList.erase port, goroutines := gs } := by
  intro q other c hq hc
  exact ⟨other, (GoMap.lookup_erase_eq_some_iff.mp hq).2, hc⟩

/-- A goroutine that has received no longer waits. -/
theorem count_received_le {g : Goroutine} (q : Int) (c : Nat) :
    (ctx.goroutines.erase g ++ [g.received]).count (.awaitShutdown q c) ≤
      ctx.goroutines.count (.awaitShutdown q c) := by
  have hreceived : [g.received].count (.awaitShutdown q c) = 0 := by
    cases g <;> simp [Goroutine.received]
  rw [List.count_append, hreceived]
  exact (List.erase_sublist.count_le _)

end Inheriting

section NewProxy

variable {ctx : StateContext} {port : Int} {proxy : HttpReverseProxy}

theorem mem_goroutines_withNewProxy {g : Goroutine}
    (hg : g ∈ (ctx.withNewProxy port proxy).goroutines) :
    g ∈ ctx.goroutines ∨ g = .awaitShutdown port ctx.nextChan := by
  rw [StateContext.withNewProxy] at hg
  dsimp only at hg
  rcases List.mem_append.mp hg with hg | hg
  · exact Or.inl hg
  · split at hg
    · exact Or.inr (List.mem_singleton.mp hg)
    · cases hg

theorem shuttingDown_withNewProxy {q : Int} :
    .shuttingDown q ∈ (ctx.withNewProxy port proxy).goroutines ↔
      .shuttingDown q ∈ ctx.goroutines := by
  constructor
  · intro hg
    rcases mem_goroutines_withNewProxy hg with hg | hg
    · exact hg
    · cases hg
  · exact List.mem_append_left _

theorem awaitShutdown_withNewProxy {q : Int} {c : Nat}
    (hg : .awaitShutdown q c ∈ (ctx.withNewProxy port proxy).goroutines) :
    .awaitShutdown q c ∈ ctx.goroutines ∨ (q = port ∧ c = ctx.nextChan) := by
  rcases mem_goroutines_withNewProxy hg with hg | hg
  · exact Or.inl hg
  · cases hg
    exact Or.inr ⟨rfl, rfl⟩

theorem lookup_withNewProxy {q : Int} {other : HttpReverseProxy}
    (hq : (ctx.withNewProxy port proxy).httpReverseProxyList.lookup q = some other) :
    ctx.httpReverseProxyList.lookup q = some other ∨
      (q = port ∧ other = proxy ∧ port ∉ ctx.httpReverseProxyList) := by
  rw [StateContext.withNewProxy] at hq
  dsimp only at hq
  split at hq
  · exact Or.inl hq
  · next hport =>
      rw [GoMap.lookup_insert_eq] at hq
      split at hq
      · next heq =>
          cases hq
          exact Or.inr ⟨heq, rfl, hport⟩
      · exact Or.inl hq

theorem mem_withNewProxy (q : Int) :
    q ∈ (ctx.withNewProxy port proxy).httpReverseProxyList ↔
      q = port ∨ q ∈ ctx.httpReverseProxyList := by
  rw [StateContext.withNewProxy]
  dsimp only
  split
  · next hport =>
      constructor
      · exact Or.inr
      · rintro (rfl | hq)
        · exact hport
        · exact hq
  · exact Finmap.mem_insert

/-- The channel of a new proxy is new to everyone. -/
theorem Paired.withNewProxy (h : Paired ctx) (hchan : proxy.shutdown = some ctx.nextChan) :
    Paired (ctx.withNewProxy port proxy) where
  once q c := by
    rw [StateContext.withNewProxy]
    dsimp only
    rw [List.count_append]
    have hold := h.once q c
    split
    · -- the channel is new, so no goroutine waits for it yet
      by_cases heq : Goroutine.awaitShutdown port ctx.nextChan = .awaitShutdown q c
      · cases heq
        have hnone : ctx.goroutines.count (.awaitShutdown port ctx.nextChan) = 0 :=
          List.count_eq_zero.mpr fun hmem => absurd (h.made _ _ hmem) (lt_irrefl _)
        rw [hnone, List.count_singleton_self]
      · rw [List.count_singleton, if_neg (by simpa using heq)]
        exact hold
    · exact hold
  made q c hawait := by
    show c < ctx.nextChan + 1
    rcases awaitShutdown_withNewProxy hawait with hawait | ⟨-, rfl⟩
    · exact Nat.lt_succ_of_lt (h.made q c hawait)
    · exact Nat.lt_succ_self _
  madeListed q other c hq hc := by
    show c < ctx.nextChan + 1
    rcases lookup_withNewProxy hq with hq | ⟨-, rfl, -⟩
    · exact Nat.lt_succ_of_lt (h.madeListed q other c hq hc)
    · rw [hchan] at hc
      cases hc
      exact Nat.lt_succ_self _
  single q q' c hawait hawait' := by
    rcases awaitShutdown_withNewProxy hawait with hold | ⟨rfl, rfl⟩
    · rcases awaitShutdown_withNewProxy hawait' with hold' | ⟨rfl, rfl⟩
      · exact h.single q q' c hold hold'
      · exact absurd (h.made _ _ hold) (lt_irrefl _)
    · rcases awaitShutdown_withNewProxy hawait' with hold' | ⟨rfl, -⟩
      · exact absurd (h.made _ _ hold') (lt_irrefl _)
      · rfl
  owned q other c q' hq hc hawait := by
    rcases lookup_withNewProxy hq with hq | ⟨rfl, rfl, -⟩
    · rcases awaitShutdown_withNewProxy hawait with hold | ⟨-, rfl⟩
      · exact h.owned q other c q' hq hc hold
      · exact absurd (h.madeListed q other _ hq hc) (lt_irrefl _)
    · rw [hchan] at hc
      cases hc
      rcases awaitShutdown_withNewProxy hawait with hold | ⟨rfl, -⟩
      · exact absurd (h.made _ _ hold) (lt_irrefl _)
      · rfl

end NewProxy

namespace Paired

variable {ctx ctx' : StateContext} {event : Event}

theorem apply (h : Paired ctx) {entry : LogEntry}
    (hrun : EStateM.run (StateContext.apply entry) ctx = .ok () ctx') : Paired ctx' := by
  cases hcall : entry.call with
  | some target =>
      obtain ⟨port, call⟩ := target
      rw [StateContext.apply_of_call hcall] at hrun
      obtain ⟨proxy, proxy', hproxy, hbody, rfl⟩ := StateContext.run_onProxy_ok hrun
      exact h.of_le rfl (fun _ _ => le_rfl)
        (inherits_insert hproxy (call.run_sameServer hbody).shutdown)
  | none =>
      rcases StateContext.apply_of_no_call hcall with
        ⟨body, rfl⟩ | ⟨body, rfl⟩ | ⟨body, rfl, -, -, happly⟩
      · obtain ⟨proxy, hnew, rfl⟩ := StateContext.run_handleAddHttpProxy_ok hrun
        exact h.withNewProxy (StateContext.newHttpReverseProxy_ok hnew).2.2
      · obtain ⟨g, -, rfl⟩ := StateContext.run_handleRemoveHttpProxy_ok hrun
        exact h.of_le rfl count_received_le inherits_erase
      · rw [happly] at hrun
        obtain ⟨g, -, rfl⟩ := StateContext.run_close_ok hrun
        exact h.of_le rfl count_received_le fun q other c hq hc => ⟨other, hq, hc⟩

theorem serve (h : Paired ctx) (port : Int) (peerAvailable : Bool)
    (allow : QpsRateLimiter → Bool) (r : Utils.Request) :
    Paired (ctx.serve port peerAvailable allow r) := by
  rw [StateContext.serve]
  cases hproxy : ctx.httpReverseProxyList.lookup port with
  | none =>
      rw [StateContext.run_onProxy_none hproxy]
      exact h
  | some proxy =>
      rw [StateContext.run_onProxy_some hproxy, memory_embed]
      exact h.of_le rfl (fun _ _ => le_rfl)
        (inherits_insert hproxy (frame_serveHTTP proxy peerAvailable allow r).1.shutdown)

theorem finish (h : Paired ctx) (port : Int) :
    Paired (StateContext.finishShutdown port ctx) :=
  h.of_le rfl (fun _ _ => List.erase_sublist.count_le _) inherits_erase

theorem step (h : Paired ctx) (hstep : Step ctx event ctx') : Paired ctx' := by
  cases hstep with
  | apply hrun => exact h.apply hrun
  | serve port peerAvailable allow r => exact h.serve port peerAvailable allow r
  | @finish port hpending => exact h.finish port

/-! ## Restores -/

/-- A restored proxy keeps the channel it had; a decoded one has none. -/
theorem shutdown_restore {proxy proxy' : HttpReverseProxy} {order : RestoreOrder}
    {answer : Bool} (hrun : EStateM.run (HttpReverseProxy.restore order) proxy =
      .ok answer proxy') : proxy'.shutdown = proxy.shutdown := by
  rcases HttpReverseProxy.run_restore_ok hrun with ⟨-, -, rfl⟩ | ⟨-, -, -, -, tree, -, hrestored⟩
  · rfl
  · obtain ⟨static, router, limiters, recorded, rfl⟩ := hrestored.frame
    rfl

theorem of_roundsDone {snapshot : ContextSnapshot} {order : ContextOrder} {starts : Bool}
    {body : Int → Eff HttpReverseProxy Bool} {node node' : Node} (h : Paired node.ctx)
    (hbody : ∀ port proxy answer proxy',
      EStateM.run (body port) proxy = .ok answer proxy' → proxy'.shutdown = proxy.shutdown)
    (hdone : RoundsDone starts body
      (order.ports.keys (node.unMarshal snapshot).ctx.httpReverseProxyList)
      (node.unMarshal snapshot) node') : Paired node'.ctx := by
  have hgoroutines : node'.ctx.goroutines = node.ctx.goroutines := by
    rw [hdone.frame]
    rfl
  refine h.of_le (by rw [hdone.frame]; rfl) (fun _ _ => by rw [hgoroutines]) ?_
  intro port proxy' c hproxy' hc
  have hport := (hdone.mem_iff port).mp (Finmap.mem_iff.mpr ⟨proxy', hproxy'⟩)
  obtain ⟨proxy, answer, restored, hlookup, hround, hrestored, -⟩ :=
    hdone.round port ((order.ports.mem_keys _ _).mpr hport)
  rw [hproxy'] at hrestored
  cases hrestored
  have hkept := hbody port proxy answer proxy' hround
  rw [hc] at hkept
  rw [Node.lookup_unMarshal] at hlookup
  -- a decoded proxy has a nil channel, a kept one the channel it had
  cases hs : snapshot.lookup port with
  | some s =>
      rw [hs] at hlookup
      cases hlookup
      cases hkept
  | none =>
      rw [hs, Option.map_none, Option.none_or] at hlookup
      exact ⟨proxy, hlookup, hkept.symm⟩

theorem nodeStep {node node' : Node} {event : NodeEvent} (h : Paired node.ctx)
    (hstep : NodeStep node event node') : Paired node'.ctx := by
  cases hstep with
  | on hstep => exact h.step hstep
  | @started port ctx hmem hrun =>
      obtain ⟨proxy, proxy', hproxy, hstart, rfl⟩ := StateContext.run_onProxy_ok hrun
      exact h.of_le rfl (fun _ _ => le_rfl)
        (inherits_insert hproxy (ProxyCall.run_sameServer .start hstart).shutdown)
  | restore hrun =>
      refine h.of_roundsDone ?_ (run_restore_ok hrun)
      intro port proxy answer proxy' hround
      obtain ⟨tree, -, hrestore⟩ := run_restoreProxy_ok hround
      have hkept := shutdown_restore hrestore
      exact hkept
  | restoreFromSnap hrun =>
      exact h.of_roundsDone (fun _ _ _ _ hround => shutdown_restore hround)
        (run_restoreFromSnap_ok hrun)

/-! ## The start -/

/-- The proxies of a configuration, before `Run`: each is on its own port and
has a channel of its own. -/
structure Built (ctx : StateContext) : Prop where
  idle : ctx.goroutines = []
  listed : ∀ port proxy, ctx.httpReverseProxyList.lookup port = some proxy →
    proxy.port = port ∧ ∃ c, proxy.shutdown = some c ∧ c < ctx.nextChan
  apart : ∀ port port' proxy proxy' c, ctx.httpReverseProxyList.lookup port = some proxy →
    ctx.httpReverseProxyList.lookup port' = some proxy' → proxy.shutdown = some c →
    proxy'.shutdown = some c → port = port'

theorem Built.bootProxy (h : Built ctx) {args : HttpProxyArgs}
    (hrun : EStateM.run (StateContext.bootProxy args) ctx = .ok () ctx') : Built ctx' := by
  obtain ⟨proxy, hbuild, rfl⟩ := StateContext.run_bootProxy_ok hrun
  obtain ⟨-, hchan⟩ := StateContext.buildHttpReverseProxy_server hbuild
  have hlookup : ∀ q other, (if proxy.port ∈ ctx.httpReverseProxyList
        then ctx.httpReverseProxyList
        else ctx.httpReverseProxyList.insert proxy.port proxy).lookup q = some other →
      ctx.httpReverseProxyList.lookup q = some other ∨ (q = proxy.port ∧ other = proxy) := by
    intro q other hq
    split at hq
    · exact Or.inl hq
    · rw [GoMap.lookup_insert_eq] at hq
      split at hq
      · next heq => exact Or.inr ⟨heq, (Option.some.inj hq).symm⟩
      · exact Or.inl hq
  -- the new channel is above all channels in the list
  have hnew : ∀ q other c, ctx.httpReverseProxyList.lookup q = some other →
      other.shutdown = some c → c ≠ ctx.nextChan := by
    intro q other c hq hc heq
    obtain ⟨-, d, hd, hlt⟩ := h.listed q other hq
    rw [hc] at hd
    cases hd
    exact absurd heq (ne_of_lt hlt)
  refine ⟨h.idle, ?_, ?_⟩
  · intro q other hq
    rcases hlookup q other hq with hq | ⟨rfl, rfl⟩
    · obtain ⟨hport, c, hc, hlt⟩ := h.listed q other hq
      exact ⟨hport, c, hc, Nat.lt_succ_of_lt hlt⟩
    · exact ⟨rfl, ctx.nextChan, hchan, Nat.lt_succ_self _⟩
  · intro q q' other other' c hq hq' hc hc'
    rcases hlookup q other hq with hold | ⟨hport, hother⟩
    · rcases hlookup q' other' hq' with hold' | ⟨-, hother'⟩
      · exact h.apart q q' other other' c hold hold' hc hc'
      · rw [hother', hchan] at hc'
        exact absurd (Option.some.inj hc').symm (hnew q other c hold hc)
    · rcases hlookup q' other' hq' with hold' | ⟨hport', -⟩
      · rw [hother, hchan] at hc
        exact absurd (Option.some.inj hc).symm (hnew q' other' c hold' hc')
      · rw [hport, hport']

/-- The goroutine `Run` starts for a port. -/
def startedFor (ctx : StateContext) (port : Int) : List Goroutine :=
  match ctx.httpReverseProxyList.lookup port with
  | none => []
  | some proxy =>
      match proxy.shutdown with
      | none => []
      | some c => if ctx.listens c then [.awaitShutdown proxy.port c] else []

theorem run_runProxies (start : StateContext) (ports : List Int) (ctx : StateContext)
    (hlistens : ctx.listens = start.listens) :
    EStateM.run (forEach ports fun port =>
      match start.httpReverseProxyList.lookup port with
      | none => pure ()
      | some proxy => StateContext.runProxy proxy) ctx =
      .ok () { ctx with goroutines := ctx.goroutines ++ ports.flatMap (startedFor start) } := by
  -- over the ports; the proxies are read from the start, only goroutines are added
  induction ports generalizing ctx with
  | nil =>
      rw [List.flatMap_nil, List.append_nil]
      rfl
  | cons port ports ih =>
      have hround : EStateM.run (match start.httpReverseProxyList.lookup port with
          | none => pure ()
          | some proxy => StateContext.runProxy proxy) ctx =
          .ok () { ctx with goroutines := ctx.goroutines ++ startedFor start port } := by
        rw [startedFor]
        cases start.httpReverseProxyList.lookup port with
        | none =>
            dsimp only
            rw [List.append_nil]
            rfl
        | some proxy =>
            dsimp only
            rw [StateContext.runProxy, EStateM.run_bind, EStateM.run_get]
            dsimp only
            cases proxy.shutdown with
            | none =>
                dsimp only
                rw [List.append_nil]
                rfl
            | some c =>
                dsimp only
                rw [← hlistens, run_ite]
                split
                · rfl
                · rw [List.append_nil]
                  rfl
      rw [run_forEach_cons, hround, List.flatMap_cons, ← List.append_assoc]
      exact ih { ctx with goroutines := ctx.goroutines ++ startedFor start port } hlistens

theorem mem_startedFor {port q : Int} {c : Nat} (h : Built ctx)
    (hmem : .awaitShutdown q c ∈ startedFor ctx port) :
    q = port ∧ ∃ proxy, ctx.httpReverseProxyList.lookup port = some proxy ∧
      proxy.shutdown = some c := by
  rw [startedFor] at hmem
  cases hproxy : ctx.httpReverseProxyList.lookup port with
  | none =>
      rw [hproxy] at hmem
      cases hmem
  | some proxy =>
      rw [hproxy] at hmem
      dsimp only at hmem
      cases hc : proxy.shutdown with
      | none =>
          rw [hc] at hmem
          cases hmem
      | some d =>
          rw [hc] at hmem
          dsimp only at hmem
          split at hmem
          · cases List.mem_singleton.mp hmem
            exact ⟨(h.listed port proxy hproxy).1, proxy, rfl, hc⟩
          · cases hmem

theorem nodup_startedFor (ctx : StateContext) (port : Int) : (startedFor ctx port).Nodup := by
  rw [startedFor]
  split
  · exact List.nodup_nil
  · split
    · exact List.nodup_nil
    · split <;> simp

theorem awaits_of_startedFor {port : Int} {g : Goroutine} (hmem : g ∈ startedFor ctx port) :
    ∃ q c, g = .awaitShutdown q c := by
  rw [startedFor] at hmem
  split at hmem
  · cases hmem
  · split at hmem
    · cases hmem
    · split at hmem
      · exact ⟨_, _, List.mem_singleton.mp hmem⟩
      · cases hmem

/-- After `Run` every goroutine waits for the proxy of its port. -/
theorem of_built (h : Built ctx) {ports : List Int} (hports : ports.Nodup) :
    Paired { ctx with goroutines := ctx.goroutines ++ ports.flatMap (startedFor ctx) } := by
  rw [h.idle, List.nil_append]
  -- every goroutine was started for a proxy that is in the list
  have howner : ∀ q c, .awaitShutdown q c ∈ ports.flatMap (startedFor ctx) →
      ∃ proxy, ctx.httpReverseProxyList.lookup q = some proxy ∧ proxy.shutdown = some c := by
    intro q c hmem
    obtain ⟨port, -, hmem⟩ := List.mem_flatMap.mp hmem
    obtain ⟨rfl, howner⟩ := mem_startedFor h hmem
    exact howner
  have hnodup : (ports.flatMap (startedFor ctx)).Nodup := by
    refine List.nodup_flatMap.mpr ⟨fun port _ => nodup_startedFor ctx port, ?_⟩
    refine hports.imp fun {port port'} hne g hmem hmem' => ?_
    obtain ⟨q, c, rfl⟩ := awaits_of_startedFor hmem
    exact hne ((mem_startedFor h hmem).1.symm.trans (mem_startedFor h hmem').1)
  refine ⟨fun q c => List.nodup_iff_count_le_one.mp hnodup _, ?_, ?_, ?_, ?_⟩
  · intro q c hmem
    obtain ⟨proxy, hproxy, hc⟩ := howner q c hmem
    obtain ⟨-, d, hd, hlt⟩ := h.listed q proxy hproxy
    rw [hc] at hd
    cases hd
    exact hlt
  · intro q proxy c hproxy hc
    obtain ⟨-, d, hd, hlt⟩ := h.listed q proxy hproxy
    rw [hc] at hd
    cases hd
    exact hlt
  · intro q q' c hmem hmem'
    obtain ⟨proxy, hproxy, hc⟩ := howner q c hmem
    obtain ⟨proxy', hproxy', hc'⟩ := howner q' c hmem'
    exact h.apart q q' proxy proxy' c hproxy hproxy' hc hc'
  · intro q proxy c q' hproxy hc hmem
    obtain ⟨proxy', hproxy', hc'⟩ := howner q' c hmem
    exact h.apart q' q proxy' proxy c hproxy' hproxy hc' hc

theorem boot {confs : List HttpProxyArgs} {order : RangeOrder Int HttpReverseProxy}
    {listens : Nat → Bool}
    (hrun : EStateM.run (StateContext.boot confs order) (newStateContext listens) =
      .ok () ctx) : Paired ctx := by
  rw [StateContext.boot] at hrun
  obtain ⟨u, ctx₁, hconfs, hrun⟩ := run_bind_ok hrun
  have hstart : Built (newStateContext listens) := by
    refine ⟨rfl, fun port proxy hproxy => ?_, fun port port' proxy proxy' c hproxy => ?_⟩ <;>
      cases hproxy
  have hbuilt : Built ctx₁ := run_forEach_ok hconfs hstart
    fun args _ _ _ _ hbuilt hround => hbuilt.bootProxy hround
  obtain ⟨ctx₂, ctx₃, hget, hrun⟩ := run_bind_ok hrun
  cases hget
  cases hrun.symm.trans (run_runProxies ctx₁ (order.keys ctx₁.httpReverseProxyList) ctx₁ rfl)
  exact of_built hbuilt (order.nodup _)

end Paired

theorem Reachable.paired {node : Node} (h : Reachable node) : Paired node.ctx := by
  induction h with
  | boot hrun => exact Paired.boot hrun
  | step h hlocal hstep ih => exact ih.nodeStep hstep
  | restore h hsource htaken hstep ih ihsource => exact ih.nodeStep hstep

/-! ## Live ports -/

/-- The ports an entry leaves. -/
def LogEntry.livePorts (live : Set Int) : LogEntry → Set Int
  | .addHttpProxy body => insert body.port live
  | .chgState body => if body.state = 1 ∨ body.state = 2 then live else live \ {body.port}
  | _ => live

/-- The ports a log leaves. -/
def livePorts (live : Set Int) (log : List LogEntry) : Set Int :=
  log.foldl LogEntry.livePorts live

/-- The entry of an event that applies one. -/
def Event.entry : Event → Option LogEntry
  | .apply entry => some entry
  | _ => none

/-- The event adds no proxy on a port that is being shut down, and is not the
removal of a proxy, which no method of the interface asks for. -/
def Event.Settled (ctx : StateContext) : Event → Prop
  | .apply (.addHttpProxy body) => .shuttingDown body.port ∉ ctx.goroutines
  | .apply (.rmvHttpProxy _) => False
  | _ => True

def SettledStep (ctx : StateContext) (event : Event) (ctx' : StateContext) : Prop :=
  Step ctx event ctx' ∧ event.Settled ctx

/-- An entry that calls a method of a proxy leaves the ports as they are. -/
theorem LogEntry.livePorts_of_call {entry : LogEntry} {target : Int × ProxyCall}
    (h : entry.call = some target) (live : Set Int) : entry.livePorts live = live := by
  cases entry with
  | addHttpProxy body => cases h
  | chgState body =>
      rw [LogEntry.call] at h
      rw [LogEntry.livePorts]
      split
      · rfl
      · next hstate =>
          rw [if_neg (not_or.mp hstate).1, if_neg (not_or.mp hstate).2] at h
          cases h
  | _ => rfl

/-- The map of a node against the live ports. -/
structure Tracks (ctx : StateContext) (live : Set Int) : Prop extends Paired ctx where
  pendingOnce : ∀ port, ctx.goroutines.count (.shuttingDown port) ≤ 1
  ports : ∀ port, port ∈ ctx.httpReverseProxyList ↔
    port ∈ live ∨ .shuttingDown port ∈ ctx.goroutines
  settled : ∀ port ∈ live, .shuttingDown port ∉ ctx.goroutines
  spent : ∀ port proxy c port', .shuttingDown port ∈ ctx.goroutines →
    ctx.httpReverseProxyList.lookup port = some proxy → proxy.shutdown = some c →
    .awaitShutdown port' c ∉ ctx.goroutines

namespace Tracks

variable {ctx ctx' : StateContext} {live : Set Int} {port : Int} {event : Event}

/-- At the start nothing is being shut down. -/
theorem of_paired (h : Paired ctx) (hidle : ∀ port, .shuttingDown port ∉ ctx.goroutines) :
    Tracks ctx {port | port ∈ ctx.httpReverseProxyList} where
  toPaired := h
  pendingOnce port := by
    rw [List.count_eq_zero.mpr (hidle port)]
    exact Nat.zero_le 1
  ports port := by simp [hidle port]
  settled port _ := hidle port
  spent port _ _ _ hpending := absurd hpending (hidle port)

/-- Work on a proxy that keeps its channel. -/
theorem insert_sameServer (h : Tracks ctx live) {proxy proxy' : HttpReverseProxy}
    (hproxy : ctx.httpReverseProxyList.lookup port = some proxy)
    (hsame : SameServer proxy proxy') :
    Tracks { ctx with
      httpReverseProxyList := ctx.httpReverseProxyList.insert port proxy' } live where
  toPaired := h.toPaired.of_le rfl (fun _ _ => le_rfl) (inherits_insert hproxy hsame.shutdown)
  pendingOnce := h.pendingOnce
  ports q := by
    rw [← h.ports q, Finmap.mem_insert]
    constructor
    · rintro (rfl | hq)
      · exact Finmap.mem_iff.mpr ⟨proxy, hproxy⟩
      · exact hq
    · exact Or.inr
  settled := h.settled
  spent q other c q' hpending hq hc := by
    obtain ⟨old, hold, hc⟩ := inherits_insert hproxy hsame.shutdown q other c hq hc
    exact h.spent q old c q' hpending hold hc

theorem withNewProxy (h : Tracks ctx live) {proxy : HttpReverseProxy}
    (hchan : proxy.shutdown = some ctx.nextChan)
    (hfree : .shuttingDown port ∉ ctx.goroutines) :
    Tracks (ctx.withNewProxy port proxy) (insert port live) where
  toPaired := h.toPaired.withNewProxy hchan
  pendingOnce q := by
    rw [StateContext.withNewProxy]
    dsimp only
    rw [List.count_append]
    have hnone : (if ctx.listens ctx.nextChan
        then [Goroutine.awaitShutdown port ctx.nextChan] else []).count (.shuttingDown q) = 0 := by
      split <;> simp
    rw [hnone]
    exact h.pendingOnce q
  ports q := by
    rw [mem_withNewProxy, h.ports q, Set.mem_insert_iff, shuttingDown_withNewProxy, or_assoc]
  -- the port is live again, which is why no shutdown of it may be pending
  settled q hq := by
    rw [shuttingDown_withNewProxy]
    rcases hq with rfl | hq
    · exact hfree
    · exact h.settled q hq
  spent q other c q' hpending hq hc hawait := by
    rw [shuttingDown_withNewProxy] at hpending
    rcases lookup_withNewProxy hq with hq | ⟨rfl, -, -⟩
    · rcases awaitShutdown_withNewProxy hawait with hold | ⟨-, rfl⟩
      · exact h.spent q other c q' hpending hq hc hold
      · -- an old proxy on the new channel: there is none
        exact absurd (h.madeListed q other _ hq hc) (lt_irrefl _)
    · exact hfree hpending

/-- The goroutine that receives the signal of a proxy is its own. -/
theorem receiver_eq (h : Paired ctx) {g : Goroutine} (hg : ctx.Receiver port g) :
    ∃ proxy c, ctx.httpReverseProxyList.lookup port = some proxy ∧ proxy.shutdown = some c ∧
      g = .awaitShutdown port c ∧ g ∈ ctx.goroutines := by
  obtain ⟨proxy, c, hproxy, hc, hfind⟩ := hg
  have hmem := List.mem_of_find?_eq_some hfind
  have hreceives := List.find?_some hfind
  cases g with
  | awaitShutdown port' c' =>
      obtain rfl : c' = c := by simpa [Goroutine.receives] using hreceives
      obtain rfl := h.owned port proxy c' port' hproxy hc hmem
      exact ⟨proxy, c', hproxy, hc, rfl, hmem⟩
  | shuttingDown port' => cases hreceives

/-- A signalled port is no longer live. -/
theorem close (h : Tracks ctx live) {g : Goroutine} (hg : ctx.Receiver port g) :
    Tracks { ctx with goroutines := ctx.goroutines.erase g ++ [g.received] }
      (live \ {port}) := by
  obtain ⟨proxy, c, hproxy, hc, rfl, hmem⟩ := receiver_eq h.toPaired hg
  have hfree : .shuttingDown port ∉ ctx.goroutines := fun hpending =>
    h.spent port proxy c port hpending hproxy hc hmem
  have hlive : port ∈ live := by
    rcases (h.ports port).mp (Finmap.mem_iff.mpr ⟨proxy, hproxy⟩) with hlive | hpending
    · exact hlive
    · exact absurd hpending hfree
  -- the goroutines after the signal
  have hshutting : ∀ q, .shuttingDown q ∈
      ctx.goroutines.erase (.awaitShutdown port c) ++ [.shuttingDown port] ↔
        .shuttingDown q ∈ ctx.goroutines ∨ q = port := by
    intro q
    rw [List.mem_append, List.mem_singleton, List.mem_erase_of_ne (by simp)]
    simp
  have hawait : ∀ q d, .awaitShutdown q d ∈
      ctx.goroutines.erase (.awaitShutdown port c) ++ [.shuttingDown port] →
        .awaitShutdown q d ∈ ctx.goroutines ∧ ¬ (q = port ∧ d = c) := by
    intro q d hq
    rw [List.mem_append] at hq
    rcases hq with hq | hq
    · refine ⟨List.mem_of_mem_erase hq, ?_⟩
      rintro ⟨rfl, rfl⟩
      have hpos := List.count_pos_iff.mpr hq
      rw [List.count_erase_self] at hpos
      -- the goroutine was there once and has been taken out
      have honce := h.once q d
      omega
    · cases List.mem_singleton.mp hq
  refine ⟨h.toPaired.of_le rfl count_received_le fun q other d hq hd => ⟨other, hq, hd⟩,
    ?_, ?_, ?_, ?_⟩
  · intro q
    show (ctx.goroutines.erase _ ++ [Goroutine.shuttingDown port]).count _ ≤ 1
    rw [List.count_append, List.count_erase_of_ne (by simp)]
    by_cases hq : q = port
    · subst hq
      rw [List.count_eq_zero.mpr hfree, List.count_singleton_self]
    · rw [List.count_singleton, if_neg (by simpa using fun heq : port = q => hq heq.symm)]
      exact h.pendingOnce q
  · intro q
    show _ ↔ _ ∨ .shuttingDown q ∈ _ ++ [Goroutine.shuttingDown port]
    rw [hshutting, h.ports q]
    by_cases hq : q = port
    · subst hq
      simp [hlive]
    · simp [hq]
  · intro q hq
    show .shuttingDown q ∉ _ ++ [Goroutine.shuttingDown port]
    rw [hshutting]
    rintro (hpending | rfl)
    · exact h.settled q hq.1 hpending
    · exact hq.2 rfl
  · intro q other d q' hpending hq hd hq'
    obtain ⟨hold, hne⟩ := hawait q' d hq'
    rcases (hshutting q).mp hpending with hpending | rfl
    · exact h.spent q other d q' hpending hq hd hold
    · -- the port itself: its goroutine is gone, and no other waits on the same channel
      rw [hproxy] at hq
      cases hq
      rw [hc] at hd
      cases hd
      exact hne ⟨h.single _ _ _ hold hmem, rfl⟩

/-- The end of a shutdown takes its port, which is not live, from the map. -/
theorem finish (h : Tracks ctx live) (hpending : .shuttingDown port ∈ ctx.goroutines) :
    Tracks (StateContext.finishShutdown port ctx) live := by
  have hlookup : ∀ q other, (ctx.httpReverseProxyList.erase port).lookup q = some other →
      ctx.httpReverseProxyList.lookup q = some other :=
    fun q other hq => (GoMap.lookup_erase_eq_some_iff.mp hq).2
  have hshutting : ∀ q, .shuttingDown q ∈ ctx.goroutines.erase (.shuttingDown port) ↔
      .shuttingDown q ∈ ctx.goroutines ∧ q ≠ port := by
    intro q
    by_cases hq : q = port
    · subst hq
      have hcount : (ctx.goroutines.erase (.shuttingDown q)).count (.shuttingDown q) = 0 := by
        have honce := h.pendingOnce q
        rw [List.count_erase_self]
        omega
      simpa using List.count_eq_zero.mp hcount
    · rw [List.mem_erase_of_ne (by simpa using hq)]
      simp [hq]
  refine ⟨h.toPaired.finish port, ?_, ?_, ?_, ?_⟩
  · intro q
    exact (List.erase_sublist.count_le _).trans (h.pendingOnce q)
  · intro q
    show q ∈ ctx.httpReverseProxyList.erase port ↔ _ ∨ _ ∈ ctx.goroutines.erase _
    rw [hshutting, Finmap.mem_erase, h.ports q]
    by_cases hq : q = port
    · subst hq
      simpa using fun hlive => h.settled q hlive hpending
    · simp [hq]
  · intro q hq
    show _ ∉ ctx.goroutines.erase _
    rw [hshutting]
    exact fun hshut => h.settled q hq hshut.1
  · intro q other c q' hshut hq hc hq'
    exact h.spent q other c q' ((hshutting q).mp hshut).1 (hlookup q other hq) hc
      (List.mem_of_mem_erase hq')

/-! ## Steps and runs -/

theorem apply (h : Tracks ctx live) {entry : LogEntry}
    (hsettled : Event.Settled ctx (.apply entry))
    (hrun : EStateM.run (StateContext.apply entry) ctx = .ok () ctx') :
    Tracks ctx' (entry.livePorts live) := by
  cases hcall : entry.call with
  | some target =>
      obtain ⟨port, call⟩ := target
      rw [StateContext.apply_of_call hcall] at hrun
      obtain ⟨proxy, proxy', hproxy, hbody, rfl⟩ := StateContext.run_onProxy_ok hrun
      rw [LogEntry.livePorts_of_call hcall]
      exact h.insert_sameServer hproxy (call.run_sameServer hbody)
  | none =>
      rcases StateContext.apply_of_no_call hcall with
        ⟨body, rfl⟩ | ⟨body, rfl⟩ | ⟨body, rfl, hstart, hstop, happly⟩
      · obtain ⟨proxy, hnew, rfl⟩ := StateContext.run_handleAddHttpProxy_ok hrun
        exact h.withNewProxy (StateContext.newHttpReverseProxy_ok hnew).2.2 hsettled
      · exact absurd hsettled id
      · rw [happly] at hrun
        obtain ⟨g, hg, rfl⟩ := StateContext.run_close_ok hrun
        rw [LogEntry.livePorts, if_neg (not_or.mpr ⟨hstart, hstop⟩)]
        exact h.close hg

theorem serve (h : Tracks ctx live) (port : Int) (peerAvailable : Bool)
    (allow : QpsRateLimiter → Bool) (r : Utils.Request) :
    Tracks (ctx.serve port peerAvailable allow r) live := by
  rw [StateContext.serve]
  cases hproxy : ctx.httpReverseProxyList.lookup port with
  | none =>
      rw [StateContext.run_onProxy_none hproxy]
      exact h
  | some proxy =>
      rw [StateContext.run_onProxy_some hproxy, memory_embed]
      exact h.insert_sameServer hproxy (frame_serveHTTP proxy peerAvailable allow r).1

/-- One settled step tracks the ports its entry leaves. -/
theorem step (h : Tracks ctx live) (hstep : SettledStep ctx event ctx') :
    Tracks ctx' (livePorts live event.entry.toList) := by
  obtain ⟨hstep, hsettled⟩ := hstep
  cases hstep with
  | apply hrun => exact h.apply hsettled hrun
  | serve port peerAvailable allow r => exact h.serve port peerAvailable allow r
  | finish hpending => exact h.finish hpending

/-- A settled run tracks the ports its log leaves. -/
theorem run {events : List Event} (h : Tracks ctx live)
    (hrun : Run SettledStep ctx events ctx') :
    Tracks ctx' (livePorts live (events.filterMap Event.entry)) := by
  induction hrun generalizing live with
  | nil s => exact h
  | @cons s s' s'' event events hstep hrest ih =>
      have hlater := ih (h.step hstep)
      cases hentry : event.entry with
      | none =>
          rw [hentry] at hlater
          rw [List.filterMap_cons_none hentry]
          exact hlater
      | some entry =>
          rw [hentry] at hlater
          rw [List.filterMap_cons_some hentry]
          exact hlater

/-- Once no shutdown is pending the map holds the live ports. -/
theorem mem_iff (h : Tracks ctx live) (hidle : ∀ port, .shuttingDown port ∉ ctx.goroutines)
    (port : Int) : port ∈ ctx.httpReverseProxyList ↔ port ∈ live := by
  rw [h.ports port]
  exact or_iff_left (hidle port)

end Tracks

/-- Two nodes that started with the same ports and have applied the same log
have the same ports when their shutdowns are over, if no proxy was added on a
port that was being shut down. -/
theorem ports_agree {left right : Node} {left' right' : StateContext}
    {events events' : List Event} (hleft : Reachable left) (hright : Reachable right)
    (hports : ∀ port, port ∈ left.ctx.httpReverseProxyList ↔
      port ∈ right.ctx.httpReverseProxyList)
    (hidle : ∀ port, .shuttingDown port ∉ left.ctx.goroutines)
    (hidle' : ∀ port, .shuttingDown port ∉ right.ctx.goroutines)
    (hrun : Run SettledStep left.ctx events left')
    (hrun' : Run SettledStep right.ctx events' right')
    (hlog : events.filterMap Event.entry = events'.filterMap Event.entry)
    (hover : ∀ port, .shuttingDown port ∉ left'.goroutines)
    (hover' : ∀ port, .shuttingDown port ∉ right'.goroutines) (port : Int) :
    port ∈ left'.httpReverseProxyList ↔ port ∈ right'.httpReverseProxyList := by
  have htracks := (Tracks.of_paired hleft.paired hidle).run hrun
  have htracks' := (Tracks.of_paired hright.paired hidle').run hrun'
  have hstart : {port | port ∈ left.ctx.httpReverseProxyList} =
      {port | port ∈ right.ctx.httpReverseProxyList} := Set.ext hports
  rw [htracks.mem_iff hover, htracks'.mem_iff hover', hlog, hstart]

/-! ## Two placements of a deletion -/

/-- The proxy on port 8080 is closed and deleted, then one is added. -/
def deletedEarly (port : Int) : List Event :=
  [.apply (.addHttpProxy ⟨8080, typeHashPrefixer⟩), .apply (.chgState ⟨8080, 3⟩), .finish 8080,
    .apply (.addHttpProxy ⟨port, typeHashPrefixer⟩)]

/-- The same log with the deletion after its last entry. -/
def deletedLate (port : Int) : List Event :=
  [.apply (.addHttpProxy ⟨8080, typeHashPrefixer⟩), .apply (.chgState ⟨8080, 3⟩),
    .apply (.addHttpProxy ⟨port, typeHashPrefixer⟩), .finish 8080]

/-- With the last proxy on another port both placements leave that port. -/
theorem ports_agree_other_port : ∃ left' right',
    Run SettledStep (newStateContext fun _ => true) (deletedEarly 9090) left' ∧
    Run SettledStep (newStateContext fun _ => true) (deletedLate 9090) right' ∧
    ∀ port, port ∈ left'.httpReverseProxyList ↔ port ∈ right'.httpReverseProxyList := by
  have hadd : ∀ {ctx : StateContext} {body : AddHttpProxyBody},
      .shuttingDown body.port ∉ ctx.goroutines →
        Event.Settled ctx (.apply (.addHttpProxy body)) := fun h => h
  have hleft : ∃ left', Run SettledStep (newStateContext fun _ => true) (deletedEarly 9090) left' ∧
      left'.goroutines = [.awaitShutdown 9090 1] :=
    ⟨_, .cons ⟨.apply rfl, hadd (by decide)⟩ (.cons ⟨.apply rfl, trivial⟩
      (.cons ⟨.finish (by decide), trivial⟩ (.cons ⟨.apply rfl, hadd (by decide)⟩ (.nil _)))), rfl⟩
  have hright : ∃ right', Run SettledStep (newStateContext fun _ => true)
      (deletedLate 9090) right' ∧ right'.goroutines = [.awaitShutdown 9090 1] :=
    ⟨_, .cons ⟨.apply rfl, hadd (by decide)⟩ (.cons ⟨.apply rfl, trivial⟩
      (.cons ⟨.apply rfl, hadd (by decide)⟩ (.cons ⟨.finish (by decide), trivial⟩ (.nil _)))), rfl⟩
  obtain ⟨left', hrun, hgs⟩ := hleft
  obtain ⟨right', hrun', hgs'⟩ := hright
  have hempty := reachable_empty fun _ => true
  have hidle : ∀ port, Goroutine.shuttingDown port ∉ (newStateContext fun _ => true).goroutines :=
    fun port => List.not_mem_nil
  exact ⟨left', right', hrun, hrun', ports_agree hempty hempty (fun _ => Iff.rfl) hidle hidle
    hrun hrun' rfl (fun port => by rw [hgs]; simp) (fun port => by rw [hgs']; simp)⟩

/-- With the last proxy on the port that is being shut down, the late deletion
deletes it too. -/
theorem late_deletion : ¬ ∀ (left right : Node) (left' right' : StateContext)
    (events events' : List Event), Reachable left → Reachable right →
    (∀ port, port ∈ left.ctx.httpReverseProxyList ↔ port ∈ right.ctx.httpReverseProxyList) →
    (∀ port, .shuttingDown port ∉ left.ctx.goroutines) →
    (∀ port, .shuttingDown port ∉ right.ctx.goroutines) →
    Run Step left.ctx events left' → Run Step right.ctx events' right' →
    events.filterMap Event.entry = events'.filterMap Event.entry →
    (∀ port, .shuttingDown port ∉ left'.goroutines) →
    (∀ port, .shuttingDown port ∉ right'.goroutines) →
    ∀ port, port ∈ left'.httpReverseProxyList ↔ port ∈ right'.httpReverseProxyList := by
  intro hclaim
  have hleft : ∃ left', Run Step (newStateContext fun _ => true) (deletedEarly 8080) left' ∧
      left'.goroutines = [.awaitShutdown 8080 1] ∧ 8080 ∈ left'.httpReverseProxyList :=
    ⟨_, .cons (.apply rfl) (.cons (.apply rfl) (.cons (.finish (by decide))
      (.cons (.apply rfl) (.nil _)))), rfl, by decide +kernel⟩
  have hright : ∃ right', Run Step (newStateContext fun _ => true) (deletedLate 8080) right' ∧
      right'.goroutines = [.awaitShutdown 8080 1] ∧ 8080 ∉ right'.httpReverseProxyList :=
    ⟨_, .cons (.apply rfl) (.cons (.apply rfl) (.cons (.apply rfl)
      (.cons (.finish (by decide)) (.nil _)))), rfl, by decide +kernel⟩
  obtain ⟨left', hrun, hgs, hmem⟩ := hleft
  obtain ⟨right', hrun', hgs', hgone⟩ := hright
  have hempty := reachable_empty fun _ => true
  have hagree := hclaim _ _ left' right' _ _ hempty hempty (fun _ => Iff.rfl)
    (fun port => List.not_mem_nil) (fun port => List.not_mem_nil) hrun hrun' rfl
    (fun port => by rw [hgs]; simp) (fun port => by rw [hgs']; simp)
  exact hgone ((hagree 8080).mp hmem)

end Cluster
end VermouthGateway
