import VermouthGateway.Cluster.Handlers

/-!
# Snapshots of the replicated state

`Marshal` writes the exported fields of every proxy; `UnMarshal` decodes them
into the context it is called on, which adds and replaces ports and keeps the
others.  Two functions restore a node from a snapshot:

* `restore` is `StateContext.Restore`, which raft calls.  For every proxy of
  the map it adds the recorded entries to the tree that was decoded, restores
  the proxy, and starts a goroutine that calls `Start` on it.
* `restoreFromSnap` is the one of stand mode, which only restores the proxies.

`run_restoreProxies_ok` says what such a loop leaves on every port, and
`restore_forgets_iff` when nothing of the state before is left.
-/

namespace VermouthGateway
namespace Cluster

open Go Proxy Balancing Acl
open HttpReverseProxy (Restored)

/-- The exported field of a context. -/
abbrev ContextSnapshot := GoMap Int ProxySnapshot

/-- The orders in which a restore ranges over the proxies and, for each of
them, over its tables. -/
structure ContextOrder where
  ports : RangeOrder Int HttpReverseProxy
  readd : Int → RangeOrder String Bool
  rest : Int → RestoreOrder

/-- Every map in increasing key order. -/
def ContextOrder.sorted : ContextOrder :=
  ⟨.sorted _ _, fun _ => .sorted _ _, fun _ => .sorted⟩

/-- A context with the goroutines of a restore: the ports of the proxies whose
`Start` has yet to run. -/
structure Node where
  ctx : StateContext
  starting : List Int

/-- `Marshal`. -/
def StateContext.marshal (ctx : StateContext) : ContextSnapshot :=
  GoMap.mapValues HttpReverseProxy.encode ctx.httpReverseProxyList

theorem StateContext.lookup_marshal (ctx : StateContext) (port : Int) :
    ctx.marshal.lookup port = (ctx.httpReverseProxyList.lookup port).map HttpReverseProxy.encode :=
  GoMap.lookup_mapValues _ _ _

theorem StateContext.mem_marshal (ctx : StateContext) (port : Int) :
    port ∈ ctx.marshal ↔ port ∈ ctx.httpReverseProxyList := by
  rw [← Finmap.lookup_isSome, lookup_marshal, Option.isSome_map, Finmap.lookup_isSome]

/-- `UnMarshal`. -/
def StateContext.unMarshal (snapshot : ContextSnapshot) (ctx : StateContext) : StateContext :=
  { ctx with
    httpReverseProxyList :=
      GoMap.mapValues ProxySnapshot.decode snapshot ∪ ctx.httpReverseProxyList }

/-- One round of `StateContext.Restore` on its proxy. -/
def restoreProxy (readd : RangeOrder String Bool) (order : RestoreOrder) :
    Eff HttpReverseProxy Bool := do
  let proxy ← get
  -- on the tree that was decoded, whose root is nil
  forEach (readd.keys proxy.acl.record) fun k => HttpReverseProxy.onAcl (RadixTree.add k k)
  HttpReverseProxy.restore order

namespace Node

/-- Work on the context. -/
def onCtx {α : Type} (body : Eff StateContext α) : Eff Node α :=
  focus (fun node => some node.ctx) (fun ctx node => { node with ctx := ctx }) body

/-- Decoding replaces proxies; a `Start` of a replaced one changes nothing. -/
def unMarshal (snapshot : ContextSnapshot) (node : Node) : Node where
  ctx := node.ctx.unMarshal snapshot
  starting := node.starting.filter (· ∉ snapshot)

/-- One round of a restore; `go hp.Start()` follows when it says so. -/
def restoreRound (starts : Bool) (body : Eff HttpReverseProxy Bool) (port : Int) :
    Eff Node Unit := do
  let restored ← onCtx (StateContext.onProxy port body)
  -- an error of the proxy's `Restore` is logged, and only skips its `Start`
  if starts && restored then
    modify fun node => { node with starting := node.starting ++ [port] }
  else pure ()

/-- `StateContext.Restore`. -/
def restore (order : ContextOrder) (snapshot : ContextSnapshot) : Eff Node Unit := do
  modify (unMarshal snapshot)
  let node ← get
  forEach (order.ports.keys node.ctx.httpReverseProxyList) fun port =>
    restoreRound true (restoreProxy (order.readd port) (order.rest port)) port

/-- `restoreFromSnap`. -/
def restoreFromSnap (order : ContextOrder) (snapshot : ContextSnapshot) : Eff Node Unit := do
  modify (unMarshal snapshot)
  let node ← get
  forEach (order.ports.keys node.ctx.httpReverseProxyList) fun port =>
    restoreRound false (HttpReverseProxy.restore (order.rest port)) port

end Node

/-! ## The loop over the proxies -/

section Loop

variable {starts : Bool} {body : Int → Eff HttpReverseProxy Bool} {node node' : Node}

/-- What the rounds for `ports` leave: each of these proxies has gone through
its round, and nothing else has changed. -/
structure RoundsDone (starts : Bool) (body : Int → Eff HttpReverseProxy Bool)
    (ports : List Int) (node node' : Node) : Prop where
  frame : node'.ctx =
    { node.ctx with httpReverseProxyList := node'.ctx.httpReverseProxyList }
  round : ∀ port ∈ ports, ∃ proxy answer proxy',
    node.ctx.httpReverseProxyList.lookup port = some proxy ∧
      EStateM.run (body port) proxy = .ok answer proxy' ∧
      node'.ctx.httpReverseProxyList.lookup port = some proxy' ∧
      (port ∈ node'.starting ↔ port ∈ node.starting ∨ (starts ∧ answer = true))
  other : ∀ port ∉ ports,
    node'.ctx.httpReverseProxyList.lookup port = node.ctx.httpReverseProxyList.lookup port ∧
      (port ∈ node'.starting ↔ port ∈ node.starting)

theorem run_restoreRound_ok {port : Int} {body : Eff HttpReverseProxy Bool}
    (hrun : EStateM.run (Node.restoreRound starts body port) node = .ok () node') :
    ∃ proxy answer proxy', node.ctx.httpReverseProxyList.lookup port = some proxy ∧
      EStateM.run body proxy = .ok answer proxy' ∧
      node' =
        { ctx := { node.ctx with
            httpReverseProxyList := node.ctx.httpReverseProxyList.insert port proxy' }
          starting := if starts && answer then node.starting ++ [port] else node.starting } := by
  rw [Node.restoreRound] at hrun
  obtain ⟨answer, node₁, hround, hstart⟩ := run_bind_ok hrun
  obtain ⟨ctx, ctx₁, hctx, hproxy, rfl⟩ := run_focus_ok hround
  cases hctx
  obtain ⟨proxy, proxy', hlookup, hbody, rfl⟩ := StateContext.run_onProxy_ok hproxy
  refine ⟨proxy, answer, proxy', hlookup, hbody, ?_⟩
  rw [run_ite] at hstart
  split at hstart
  · next hyes =>
      cases hstart
      rw [if_pos hyes]
  · next hno =>
      cases hstart
      rw [if_neg hno]

theorem run_restoreProxies_ok {ports : List Int} (hnodup : ports.Nodup)
    (hrun : EStateM.run (forEach ports fun port =>
      Node.restoreRound starts (body port) port) node = .ok () node') :
    RoundsDone starts body ports node node' := by
  -- over the ports of the round; a port occurs once, so each proxy has one round
  induction ports generalizing node with
  | nil =>
      cases hrun
      exact ⟨rfl, by simp, fun _ _ => ⟨rfl, Iff.rfl⟩⟩
  | cons port ports ih =>
      obtain ⟨hport, hnodup⟩ := List.nodup_cons.mp hnodup
      obtain ⟨u, node₁, hround, hrest⟩ := run_forEach_cons_ok hrun
      obtain ⟨proxy, answer, proxy', hlookup, hbody, rfl⟩ := run_restoreRound_ok hround
      have hlater := ih hnodup hrest
      -- the rounds to come leave this port as its round left it
      have hhere := hlater.other port hport
      dsimp only at hhere
      refine ⟨hlater.frame, ?_, ?_⟩
      · intro q hq
        rcases List.mem_cons.mp hq with rfl | hq
        · refine ⟨proxy, answer, proxy', hlookup, hbody, ?_, ?_⟩
          · rw [hhere.1, Finmap.lookup_insert]
          · rw [hhere.2]
            cases starts <;> cases answer <;> simp
        · have hne : q ≠ port := fun heq => hport (heq ▸ hq)
          obtain ⟨other, answer', other', hother, hrest⟩ := hlater.round q hq
          dsimp only at hother hrest
          rw [GoMap.lookup_insert_eq, if_neg hne] at hother
          refine ⟨other, answer', other', hother, hrest.1, hrest.2.1, ?_⟩
          rw [hrest.2.2]
          split <;> simp [hne]
      · intro q hq
        obtain ⟨hne, hq⟩ := not_or.mp (mt List.mem_cons.mpr hq)
        obtain ⟨hsame, hstarting⟩ := hlater.other q hq
        dsimp only at hsame hstarting
        rw [GoMap.lookup_insert_eq, if_neg hne] at hsame
        refine ⟨hsame, hstarting.trans ?_⟩
        split <;> simp [hne]

variable (starts body) in
/-- The loop returns when every round does. -/
theorem completes_restoreProxies {ports : List Int} (hnodup : ports.Nodup)
    (hrounds : ∀ port ∈ ports, ∃ proxy,
      node.ctx.httpReverseProxyList.lookup port = some proxy ∧
        Completes (EStateM.run (body port) proxy)) :
    Completes (EStateM.run (forEach ports fun port =>
      Node.restoreRound starts (body port) port) node) := by
  induction ports generalizing node with
  | nil => trivial
  | cons port ports ih =>
      obtain ⟨hport, hnodup⟩ := List.nodup_cons.mp hnodup
      obtain ⟨proxy, hlookup, hbody⟩ := hrounds port List.mem_cons_self
      obtain ⟨answer, proxy', hbody⟩ := completes_iff.mp hbody
      have hround : EStateM.run (Node.onCtx (StateContext.onProxy port (body port))) node =
          .ok answer { node with ctx := { node.ctx with
            httpReverseProxyList := node.ctx.httpReverseProxyList.insert port proxy' } } := by
        rw [Node.onCtx, run_focus_some (s := node) (t := node.ctx) rfl,
          StateContext.run_onProxy_some hlookup, hbody]
        rfl
      obtain ⟨node₁, hrun, hlist⟩ : ∃ node₁,
          EStateM.run (Node.restoreRound starts (body port) port) node = .ok () node₁ ∧
          node₁.ctx.httpReverseProxyList =
            node.ctx.httpReverseProxyList.insert port proxy' := by
        rw [Node.restoreRound, EStateM.run_bind, hround]
        dsimp only
        rw [run_ite]
        split <;> exact ⟨_, rfl, rfl⟩
      rw [run_forEach_cons, hrun]
      refine ih hnodup fun q hq => ?_
      -- this round has not touched the proxies of the later ones
      have hne : q ≠ port := fun heq => hport (heq ▸ hq)
      obtain ⟨other, hother, hcomplete⟩ := hrounds q (List.mem_cons_of_mem port hq)
      refine ⟨other, ?_, hcomplete⟩
      rw [hlist, GoMap.lookup_insert_eq, if_neg hne, hother]

end Loop

/-! ## One proxy -/

section OneProxy

variable {readd : RangeOrder String Bool} {order : RestoreOrder} {answer : Bool}
  {proxy proxy' : HttpReverseProxy} {snapshot : ProxySnapshot}

theorem run_restoreProxy (readd : RangeOrder String Bool) (order : RestoreOrder)
    (proxy : HttpReverseProxy) :
    EStateM.run (restoreProxy readd order) proxy =
      match EStateM.run (addAll (readd.keys proxy.acl.record)) proxy.acl with
      | .error e tree => .error e { proxy with acl := tree }
      | .ok _ tree => EStateM.run (HttpReverseProxy.restore order) { proxy with acl := tree } := by
  rw [restoreProxy, EStateM.run_bind, EStateM.run_get]
  dsimp only
  rw [EStateM.run_bind, HttpReverseProxy.run_forEach_onAcl, ← addAll]
  cases EStateM.run (addAll (readd.keys proxy.acl.record)) proxy.acl <;> rfl

theorem run_restoreProxy_ok
    (hrun : EStateM.run (restoreProxy readd order) proxy = .ok answer proxy') :
    ∃ tree, EStateM.run (addAll (readd.keys proxy.acl.record)) proxy.acl = .ok () tree ∧
      EStateM.run (HttpReverseProxy.restore order) { proxy with acl := tree } =
        .ok answer proxy' := by
  rw [run_restoreProxy] at hrun
  cases hadd : EStateM.run (addAll (readd.keys proxy.acl.record)) proxy.acl with
  | error e tree =>
      rw [hadd] at hrun
      cases hrun
  | ok u tree =>
      rw [hadd] at hrun
      exact ⟨tree, rfl, hrun⟩

/-- The texts of a record range over its keys, whatever the order. -/
theorem refused_of_keys {record : GoMap String Bool} (readd : RangeOrder String Bool)
    (h : ∀ text ∈ readd.keys record, network text = .ok none) (text : String)
    (htext : text ∈ record) : network text = .ok none :=
  h text ((readd.mem_keys record text).mpr htext)

theorem rebuildAcl_refused {ips : List String} (h : ∀ ip ∈ ips, network ip = .ok none) :
    HttpReverseProxy.rebuildAcl ips = .ok newRadixTree :=
  rebuildAcl_of_run (run_addAll_refused h)

/-- The tree of a decoded proxy has no root, so a round on it returns only when
nothing that denotes a network is recorded; the rebuilt tree is then new. -/
theorem run_restoreProxy_decode_ok
    (hrun : EStateM.run (restoreProxy readd order) snapshot.decode = .ok answer proxy') :
    (∀ text ∈ snapshot.record, network text = .ok none) ∧
      ((snapshot.prefixerType ≠ typeHashPrefixer ∧ answer = false ∧
          proxy' = snapshot.decode) ∨
        (snapshot.prefixerType = typeHashPrefixer ∧ answer = true ∧
          snapshot.decode.PrefixesSupported ∧ snapshot.decode.SpeedsNonzero ∧
          Restored snapshot.decode newRadixTree proxy')) := by
  obtain ⟨tree, hadd, hrestore⟩ := run_restoreProxy_ok hrun
  obtain ⟨hkeys, rfl⟩ := refused_of_run_addAll (show snapshot.decode.acl.root = none from rfl) hadd
  have hrefused := refused_of_keys readd hkeys
  refine ⟨hrefused, ?_⟩
  rcases HttpReverseProxy.run_restore_ok hrestore with
    ⟨htype, hanswer, hsame⟩ | ⟨htype, hanswer, hsupported, hspeeds, tree, hacl, hrestored⟩
  · exact Or.inl ⟨htype, hanswer, hsame⟩
  · have hnew : HttpReverseProxy.rebuildAcl (order.record.keys snapshot.record) =
        .ok newRadixTree :=
      rebuildAcl_refused fun text htext => hrefused text ((order.record.mem_keys _ text).mp htext)
    obtain rfl : tree = newRadixTree := Except.ok.inj (hacl.symm.trans hnew)
    exact Or.inr ⟨htype, hanswer, hsupported, hspeeds, hrestored⟩

/-- A round on a decoded proxy returns when nothing that denotes a network is
recorded and the tables can be rebuilt. -/
theorem completes_restoreProxy_decode_iff (readd : RangeOrder String Bool)
    (order : RestoreOrder) (snapshot : ProxySnapshot) :
    Completes (EStateM.run (restoreProxy readd order) snapshot.decode) ↔
      (∀ text ∈ snapshot.record, network text = .ok none) ∧
        (snapshot.prefixerType ≠ typeHashPrefixer ∨
          (snapshot.decode.PrefixesSupported ∧ snapshot.decode.SpeedsNonzero)) := by
  constructor
  · intro hcomplete
    obtain ⟨answer, proxy', hrun⟩ := completes_iff.mp hcomplete
    obtain ⟨hrefused, ⟨hne, -⟩ | ⟨-, -, hsupported, hspeeds, -⟩⟩ :=
      run_restoreProxy_decode_ok hrun
    · exact ⟨hrefused, Or.inl hne⟩
    · exact ⟨hrefused, Or.inr ⟨hsupported, hspeeds⟩⟩
  · rintro ⟨hrefused, htables⟩
    have hkeys : ∀ text ∈ readd.keys snapshot.decode.acl.record, network text = .ok none :=
      fun text htext => hrefused text ((readd.mem_keys snapshot.record text).mp htext)
    rw [run_restoreProxy, run_addAll_refused (t := snapshot.decode.acl) hkeys]
    refine (HttpReverseProxy.completes_restore_iff order rfl).mpr (htables.imp_right ?_)
    rintro ⟨hsupported, hspeeds⟩
    exact ⟨hsupported, hspeeds, newRadixTree, rebuildAcl_refused fun text htext =>
      hrefused text ((order.record.mem_keys _ text).mp htext)⟩

/-- A round returns on a proxy that routing calls alone have changed. -/
theorem completes_restoreProxy_of_mirrored (readd : RangeOrder String Bool)
    (order : RestoreOrder) (h : Mirrored proxy) :
    Completes (EStateM.run (restoreProxy readd order) proxy) := by
  obtain ⟨p, hp⟩ := h.mirrors
  have hspeeds : proxy.SpeedsNonzero := by
    intro k infos hk
    rw [h.infos] at hk
    cases hk
  rw [run_restoreProxy, h.record, RangeOrder.keys_empty]
  exact (HttpReverseProxy.completes_restore_iff order h.free).mpr (Or.inr
    ⟨hp.prefixesSupported, hspeeds, newRadixTree,
      HttpReverseProxy.rebuildAcl_empty h.record order⟩)

/-- What is restored over one tree is determined, down to the tables. -/
theorem tablesOf_restored {tree : RadixTree} {left right : HttpReverseProxy}
    (hleft : Restored proxy tree left) (hright : Restored proxy tree right) :
    tablesOf left = tablesOf right := by
  have hstatic : left.staticMapping = right.staticMapping :=
    Finmap.ext_lookup fun q => (hleft.static q).trans (hright.static q).symm
  have hinfos : left.rateLimiterType = right.rateLimiterType :=
    Finmap.ext_lookup fun q => (hleft.recorded q).trans (hright.recorded q).symm
  obtain ⟨_, _, _, _, hframe⟩ := hleft.frame
  obtain ⟨_, _, _, _, hframe'⟩ := hright.frame
  rw [tablesOf, tablesOf, hstatic, hinfos, hframe, hframe']

/-- Two rounds on one decoded proxy leave the same tables. -/
theorem tablesOf_restoreProxy_decode {readd' : RangeOrder String Bool} {order' : RestoreOrder}
    {answer' : Bool} {left right : HttpReverseProxy}
    (hleft : EStateM.run (restoreProxy readd order) snapshot.decode = .ok answer left)
    (hright : EStateM.run (restoreProxy readd' order') snapshot.decode = .ok answer' right) :
    tablesOf left = tablesOf right := by
  obtain ⟨-, ⟨hne, -, rfl⟩ | ⟨htype, -, -, -, hrestored⟩⟩ := run_restoreProxy_decode_ok hleft
  · obtain ⟨-, ⟨-, -, rfl⟩ | ⟨htype, -⟩⟩ := run_restoreProxy_decode_ok hright
    · rfl
    · exact absurd htype hne
  · obtain ⟨-, ⟨hne, -⟩ | ⟨-, -, -, -, hrestored'⟩⟩ := run_restoreProxy_decode_ok hright
    · exact absurd htype hne
    · exact tablesOf_restored hrestored hrestored'

end OneProxy

/-! ## A whole restore -/

section Restore

variable {ctx : StateContext} {snapshot : ContextSnapshot} {order : ContextOrder}
  {node node' : Node} {port : Int}

theorem lookup_unMarshal (snapshot : ContextSnapshot) (ctx : StateContext) (port : Int) :
    (ctx.unMarshal snapshot).httpReverseProxyList.lookup port =
      ((snapshot.lookup port).map ProxySnapshot.decode).or
        (ctx.httpReverseProxyList.lookup port) := by
  rw [StateContext.unMarshal]
  dsimp only
  rw [GoMap.lookup_union_eq, GoMap.lookup_mapValues]

theorem Node.lookup_unMarshal (snapshot : ContextSnapshot) (node : Node) (port : Int) :
    (node.unMarshal snapshot).ctx.httpReverseProxyList.lookup port =
      ((snapshot.lookup port).map ProxySnapshot.decode).or
        (node.ctx.httpReverseProxyList.lookup port) :=
  Cluster.lookup_unMarshal snapshot node.ctx port

theorem mem_unMarshal :
    port ∈ (ctx.unMarshal snapshot).httpReverseProxyList ↔
      port ∈ snapshot ∨ port ∈ ctx.httpReverseProxyList := by
  rw [← Finmap.lookup_isSome, lookup_unMarshal, ← Finmap.lookup_isSome, ← Finmap.lookup_isSome]
  cases snapshot.lookup port <;> simp

/-- A restore goes through the proxies of the merged map. -/
theorem run_restore_ok (hrun : EStateM.run (Node.restore order snapshot) node = .ok () node') :
    RoundsDone true (fun port => restoreProxy (order.readd port) (order.rest port))
      (order.ports.keys (node.unMarshal snapshot).ctx.httpReverseProxyList)
      (node.unMarshal snapshot) node' := by
  rw [Node.restore, EStateM.run_bind, run_modify] at hrun
  dsimp only at hrun
  rw [EStateM.run_bind, EStateM.run_get] at hrun
  exact run_restoreProxies_ok (order.ports.nodup _) hrun

theorem run_restoreFromSnap_ok
    (hrun : EStateM.run (Node.restoreFromSnap order snapshot) node = .ok () node') :
    RoundsDone false (fun port => HttpReverseProxy.restore (order.rest port))
      (order.ports.keys (node.unMarshal snapshot).ctx.httpReverseProxyList)
      (node.unMarshal snapshot) node' := by
  rw [Node.restoreFromSnap, EStateM.run_bind, run_modify] at hrun
  dsimp only at hrun
  rw [EStateM.run_bind, EStateM.run_get] at hrun
  exact run_restoreProxies_ok (order.ports.nodup _) hrun

/-- The rounds over all proxies neither add nor remove one. -/
theorem RoundsDone.mem_iff {starts : Bool} {body : Int → Eff HttpReverseProxy Bool}
    (h : RoundsDone starts body (order.ports.keys node.ctx.httpReverseProxyList) node node')
    (port : Int) : port ∈ node'.ctx.httpReverseProxyList ↔
      port ∈ node.ctx.httpReverseProxyList := by
  by_cases hport : port ∈ node.ctx.httpReverseProxyList
  · obtain ⟨-, -, proxy', -, -, hlookup, -⟩ := h.round port ((order.ports.mem_keys _ _).mpr hport)
    exact ⟨fun _ => hport, fun _ => Finmap.mem_iff.mpr ⟨proxy', hlookup⟩⟩
  · have hother := (h.other port fun hmem => hport ((order.ports.mem_keys _ _).mp hmem)).1
    rw [← Finmap.lookup_isSome, hother, Finmap.lookup_isSome]

/-- A restore returns when every round does. -/
theorem completes_restore_iff (order : ContextOrder) (snapshot : ContextSnapshot) (node : Node) :
    Completes (EStateM.run (Node.restore order snapshot) node) ↔
      ∀ port proxy,
        (node.unMarshal snapshot).ctx.httpReverseProxyList.lookup port = some proxy →
          Completes (EStateM.run (restoreProxy (order.readd port) (order.rest port)) proxy) := by
  constructor
  · intro hcomplete port proxy hproxy
    obtain ⟨u, node', hrun⟩ := completes_iff.mp hcomplete
    obtain ⟨proxy₀, answer, proxy', hlookup, hround, -⟩ := (run_restore_ok hrun).round port
      ((order.ports.mem_keys _ _).mpr (Finmap.mem_iff.mpr ⟨proxy, hproxy⟩))
    rw [hproxy] at hlookup
    cases hlookup
    rw [hround]
    trivial
  · intro hrounds
    rw [Node.restore, EStateM.run_bind, run_modify]
    dsimp only
    rw [EStateM.run_bind, EStateM.run_get]
    refine completes_restoreProxies true
      (fun port => restoreProxy (order.readd port) (order.rest port)) (order.ports.nodup _) ?_
    intro port hport
    obtain ⟨proxy, hproxy⟩ := Finmap.mem_iff.mp ((order.ports.mem_keys _ _).mp hport)
    exact ⟨proxy, hproxy, hrounds port proxy hproxy⟩

/-- A restore returns when the rounds return on the proxies of the snapshot and
on those the snapshot lacks. -/
theorem run_restore_of_rounds
    (hdecoded : ∀ port s, snapshot.lookup port = some s → Completes
      (EStateM.run (restoreProxy (order.readd port) (order.rest port)) s.decode))
    (hkept : ∀ port ∉ snapshot, ∀ proxy, node.ctx.httpReverseProxyList.lookup port = some proxy →
      Completes (EStateM.run (restoreProxy (order.readd port) (order.rest port)) proxy)) :
    ∃ node', EStateM.run (Node.restore order snapshot) node = .ok () node' := by
  have hcomplete : Completes (EStateM.run (Node.restore order snapshot) node) := by
    refine (completes_restore_iff order snapshot node).mpr fun port proxy hproxy => ?_
    rw [Node.lookup_unMarshal] at hproxy
    cases hs : snapshot.lookup port with
    | none =>
        rw [hs, Option.map_none, Option.none_or] at hproxy
        exact hkept port (Finmap.lookup_eq_none.mp hs) proxy hproxy
    | some s =>
        rw [hs] at hproxy
        cases hproxy
        exact hdecoded port s hs
  obtain ⟨u, node', hrun⟩ := completes_iff.mp hcomplete
  exact ⟨node', hrun⟩

theorem mem_restore (hrun : EStateM.run (Node.restore order snapshot) node = .ok () node')
    (port : Int) : port ∈ node'.ctx.httpReverseProxyList ↔
      port ∈ snapshot ∨ port ∈ node.ctx.httpReverseProxyList :=
  ((run_restore_ok hrun).mem_iff port).trans mem_unMarshal

/-- A port of the snapshot holds its decoded proxy, gone through its round. -/
theorem lookup_restore (hrun : EStateM.run (Node.restore order snapshot) node = .ok () node')
    {s : ProxySnapshot} (hs : snapshot.lookup port = some s) :
    ∃ answer proxy', EStateM.run (restoreProxy (order.readd port) (order.rest port)) s.decode =
        .ok answer proxy' ∧ node'.ctx.httpReverseProxyList.lookup port = some proxy' := by
  have hport : port ∈ (node.unMarshal snapshot).ctx.httpReverseProxyList :=
    mem_unMarshal.mpr (Or.inl (Finmap.mem_iff.mpr ⟨s, hs⟩))
  obtain ⟨proxy, answer, proxy', hlookup, hround, hproxy', -⟩ :=
    (run_restore_ok hrun).round port ((order.ports.mem_keys _ _).mpr hport)
  rw [Node.lookup_unMarshal, hs] at hlookup
  cases hlookup
  exact ⟨answer, proxy', hround, hproxy'⟩

end Restore

/-- After restoring one snapshot two nodes have the same proxies and none that
the snapshot lacks, exactly when neither had one that it lacks. -/
theorem restore_forgets_iff {snapshot : ContextSnapshot} {order₁ order₂ : ContextOrder}
    {node₁ node₂ node₁' node₂' : Node}
    (hrun₁ : EStateM.run (Node.restore order₁ snapshot) node₁ = .ok () node₁')
    (hrun₂ : EStateM.run (Node.restore order₂ snapshot) node₂ = .ok () node₂') :
    (node₁'.ctx.SameTables node₂'.ctx ∧
      ∀ port ∉ snapshot, port ∉ node₁'.ctx.httpReverseProxyList ∧
        port ∉ node₂'.ctx.httpReverseProxyList) ↔
      ∀ port, port ∈ node₁.ctx.httpReverseProxyList ∨ port ∈ node₂.ctx.httpReverseProxyList →
        port ∈ snapshot := by
  constructor
  · rintro ⟨-, hgone⟩ port hport
    by_contra habsent
    obtain ⟨hgone₁, hgone₂⟩ := hgone port habsent
    rcases hport with hport | hport
    · exact hgone₁ ((mem_restore hrun₁ port).mpr (Or.inr hport))
    · exact hgone₂ ((mem_restore hrun₂ port).mpr (Or.inr hport))
  · intro hall
    have hgone : ∀ port ∉ snapshot, port ∉ node₁'.ctx.httpReverseProxyList ∧
        port ∉ node₂'.ctx.httpReverseProxyList := by
      intro port habsent
      rw [mem_restore hrun₁, mem_restore hrun₂]
      exact ⟨fun h => habsent (h.elim id fun h => hall port (Or.inl h)),
        fun h => habsent (h.elim id fun h => hall port (Or.inr h))⟩
    refine ⟨fun port => ?_, hgone⟩
    cases hs : snapshot.lookup port with
    | none =>
        obtain ⟨hgone₁, hgone₂⟩ := hgone port (Finmap.lookup_eq_none.mp hs)
        rw [Finmap.lookup_eq_none.mpr hgone₁, Finmap.lookup_eq_none.mpr hgone₂]
    | some s =>
        obtain ⟨answer₁, proxy₁, hround₁, hlookup₁⟩ := lookup_restore hrun₁ hs
        obtain ⟨answer₂, proxy₂, hround₂, hlookup₂⟩ := lookup_restore hrun₂ hs
        rw [hlookup₁, hlookup₂]
        exact congrArg some (tablesOf_restoreProxy_decode hround₁ hround₂)

/-- A node with a new proxy on a port. -/
def nodeWith (port : Int) (proxy : HttpReverseProxy) : Node :=
  ⟨(newStateContext fun _ => true).withNewProxy port proxy, []⟩

/-- A node with nothing on it. -/
def emptyNode : Node := ⟨newStateContext fun _ => true, []⟩

theorem lookup_nodeWith (port : Int) (proxy : HttpReverseProxy) (q : Int) :
    (nodeWith port proxy).ctx.httpReverseProxyList.lookup q =
      if q = port then some proxy else none :=
  GoMap.lookup_insert_eq ∅ port q proxy

/-- The proxy on a port has a prefix that the snapshot of a new proxy on it
lacks. -/
theorem restore_forgets_same_port : ∃ proxy old node₁' node₂',
    newHttpReverseProxy ⟨8080, typeHashPrefixer, []⟩ 0 = .ok proxy ∧
    buildHttpReverseProxy ⟨8080, typeHashPrefixer,
      [⟨"round-robin", "/old", true, ["10.0.0.1:80"]⟩]⟩ 0 = .ok old ∧ "/old" ∈ old.paths ∧
    EStateM.run (Node.restore .sorted (nodeWith 8080 proxy).ctx.marshal)
      (nodeWith 8080 old) = .ok () node₁' ∧
    EStateM.run (Node.restore .sorted (nodeWith 8080 proxy).ctx.marshal) emptyNode =
      .ok () node₂' ∧
    node₁'.ctx.SameTables node₂'.ctx := by
  obtain ⟨proxy, hnew⟩ : ∃ proxy,
      newHttpReverseProxy ⟨8080, typeHashPrefixer, []⟩ 0 = .ok proxy := ⟨_, rfl⟩
  obtain ⟨old, hbuilt, hold⟩ : ∃ old, buildHttpReverseProxy ⟨8080, typeHashPrefixer,
      [⟨"round-robin", "/old", true, ["10.0.0.1:80"]⟩]⟩ 0 = .ok old ∧ "/old" ∈ old.paths :=
    ⟨_, rfl, Finmap.mem_insert.mpr (Or.inl rfl)⟩
  obtain ⟨p, hp⟩ := (mirrored_newHttpReverseProxy hnew).mirrors
  have hmarshal : ∀ q, (nodeWith 8080 proxy).ctx.marshal.lookup q =
      if q = 8080 then some proxy.encode else none := by
    intro q
    rw [StateContext.lookup_marshal, lookup_nodeWith]
    split <;> rfl
  have hround : ∀ readd order, Completes (EStateM.run (restoreProxy readd order)
      proxy.encode.decode) := by
    intro readd order
    refine (completes_restoreProxy_decode_iff readd order proxy.encode).mpr ⟨?_, Or.inr ⟨?_, ?_⟩⟩
    · intro text htext
      cases hnew
      exact absurd htext Finmap.notMem_empty
    · exact hp.prefixesSupported
    · exact (sound_newHttpReverseProxy hnew).speeds
  have hruns : ∀ node, (∀ q ∈ node.ctx.httpReverseProxyList, q = 8080) → ∃ node',
      EStateM.run (Node.restore .sorted (nodeWith 8080 proxy).ctx.marshal) node =
        .ok () node' := by
    intro node hports
    refine run_restore_of_rounds (fun q s hs => ?_) fun q habsent other hother => ?_
    · rw [hmarshal] at hs
      split at hs
      · cases hs
        exact hround _ _
      · cases hs
    · refine absurd (Finmap.mem_iff.mpr ⟨proxy.encode, ?_⟩) habsent
      rw [hmarshal, if_pos (hports q (Finmap.mem_iff.mpr ⟨other, hother⟩))]
  have hone : ∀ proxy, ∀ q ∈ (nodeWith 8080 proxy).ctx.httpReverseProxyList, q = 8080 := by
    intro proxy q hq
    rw [← Finmap.lookup_isSome, lookup_nodeWith] at hq
    by_contra hne
    rw [if_neg hne] at hq
    cases hq
  have hnone : ∀ q ∈ emptyNode.ctx.httpReverseProxyList, q = 8080 :=
    fun q hq => absurd hq Finmap.notMem_empty
  obtain ⟨node₁', hrun₁⟩ := hruns (nodeWith 8080 old) (hone old)
  obtain ⟨node₂', hrun₂⟩ := hruns emptyNode hnone
  refine ⟨proxy, old, node₁', node₂', hnew, hbuilt, hold, hrun₁, hrun₂,
    ((restore_forgets_iff hrun₁ hrun₂).mpr fun q hq => ?_).1⟩
  rw [← Finmap.lookup_isSome, hmarshal, if_pos (hq.elim (hone old q) (hnone q))]
  rfl

/-- A proxy that the snapshot lacks survives its restore. -/
theorem stale_proxy_survives : ¬ ∀ (snapshot : ContextSnapshot) (order₁ order₂ : ContextOrder)
    (node₁ node₂ node₁' node₂' : Node),
    EStateM.run (Node.restore order₁ snapshot) node₁ = .ok () node₁' →
    EStateM.run (Node.restore order₂ snapshot) node₂ = .ok () node₂' →
    node₁'.ctx.SameTables node₂'.ctx ∧
      ∀ port ∉ snapshot, port ∉ node₁'.ctx.httpReverseProxyList ∧
        port ∉ node₂'.ctx.httpReverseProxyList := by
  intro hclaim
  obtain ⟨proxy, hnew⟩ : ∃ proxy,
      newHttpReverseProxy ⟨9090, typeHashPrefixer, []⟩ 0 = .ok proxy := ⟨_, rfl⟩
  have hcomplete : ∀ node, (∀ q other, node.ctx.httpReverseProxyList.lookup q = some other →
      other = proxy) → ∃ node', EStateM.run (Node.restore .sorted ∅) node = .ok () node' := by
    intro node hproxies
    refine run_restore_of_rounds (fun q s hs => ?_) fun q _ other hother => ?_
    · cases hs
    · rw [hproxies q other hother]
      exact completes_restoreProxy_of_mirrored _ _ (mirrored_newHttpReverseProxy hnew)
  obtain ⟨node₁', hrun₁⟩ := hcomplete (nodeWith 9090 proxy) (by
    intro q other hother
    rw [lookup_nodeWith] at hother
    split at hother
    · exact (Option.some.inj hother).symm
    · cases hother)
  obtain ⟨node₂', hrun₂⟩ := hcomplete emptyNode (by
    intro q other hother
    cases hother)
  -- the empty snapshot replaces nothing, so port 9090 is still in the map
  have hgone := ((hclaim _ _ _ _ _ _ _ hrun₁ hrun₂).2 9090 Finmap.notMem_empty).1
  refine hgone ((mem_restore hrun₁ 9090).mpr (Or.inr (Finmap.mem_iff.mpr ⟨proxy, ?_⟩)))
  rw [lookup_nodeWith, if_pos rfl]

end Cluster
end VermouthGateway
