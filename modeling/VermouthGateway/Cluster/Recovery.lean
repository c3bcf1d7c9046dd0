import VermouthGateway.Acl.Verdict
import VermouthGateway.Cluster.Reachable

/-!
# Recovering from a snapshot

A node that starts again restores the last snapshot into an empty context.
`Restore` reaches the recorded black list before anything has made a root for
its tree, and the prefixes with whatever algorithm is on record.

* `recovers_iff`: a reachable state is recovered exactly when nothing is black
  listed and every prefix has a supported algorithm on record.
* `black_list_not_recovered`: one black-listed network is enough to lose it.
-/

namespace VermouthGateway
namespace Cluster

open Go Proxy Balancing Acl
open HttpReverseProxy (Restored)

/-- The routing tables of the other proxy, and the verdicts its record asks
for. -/
structure RecoveredFrom (proxy proxy' : HttpReverseProxy) : Prop where
  paths : proxy'.paths = proxy.paths
  balancerType : proxy'.balancerType = proxy.balancerType
  staticMapping : proxy'.staticMapping = proxy.staticMapping
  verdicts : ∀ text key, Writes text key → ∃ verdict,
    proxy'.acl.accessControl text = .ok verdict ∧
      (verdict = true ↔ ∃ entry ∈ proxy.acl.record, Contains entry key)

/-- Restoring the snapshot of a context into an empty one returns, and recovers
every proxy. -/
def Recovers (ctx : StateContext) (order : ContextOrder) (listens : Nat → Bool) : Prop :=
  ∃ node', EStateM.run (Node.restore order ctx.marshal) ⟨newStateContext listens, []⟩ =
      .ok () node' ∧
    ∀ port proxy, ctx.httpReverseProxyList.lookup port = some proxy → ∃ proxy',
      node'.ctx.httpReverseProxyList.lookup port = some proxy' ∧ RecoveredFrom proxy proxy'

/-- Nothing is recorded that a restore cannot rebuild. -/
def Recoverable (proxy : HttpReverseProxy) : Prop :=
  proxy.acl.record = ∅ ∧ proxy.PrefixesSupported

section Proxies

variable {proxy proxy' : HttpReverseProxy}

/-- Every entry on record denotes a network, so only an empty record is refused
as a whole. -/
theorem refused_iff_empty (h : Proxy.Sound proxy) :
    (∀ text ∈ proxy.acl.record, network text = .ok none) ↔ proxy.acl.record = ∅ := by
  constructor
  · intro hrefused
    apply Finmap.ext_lookup
    intro text
    rw [Finmap.lookup_empty, Finmap.lookup_eq_none]
    intro htext
    obtain ⟨net, hnet⟩ := h.record text htext
    rw [hrefused text htext] at hnet
    cases hnet
  · intro hempty text htext
    rw [hempty] at htext
    exact absurd htext Finmap.notMem_empty

/-- A round on the decoded fields of a sound proxy returns when it is
recoverable. -/
theorem completes_restoreProxy_encode_iff (h : Proxy.Sound proxy)
    (readd : RangeOrder String Bool) (order : RestoreOrder) :
    Completes (EStateM.run (restoreProxy readd order) proxy.encode.decode) ↔
      Recoverable proxy := by
  rw [completes_restoreProxy_decode_iff, Recoverable, ← refused_iff_empty h]
  constructor
  · rintro ⟨hrefused, hne | ⟨hsupported, -⟩⟩
    · exact absurd h.type hne
    · exact ⟨hrefused, hsupported⟩
  · rintro ⟨hrefused, hsupported⟩
    exact ⟨hrefused, Or.inr ⟨hsupported, h.speeds⟩⟩

/-- What a round that returned makes of them. -/
theorem recoveredFrom_restoreProxy (h : Proxy.Sound proxy) (hempty : proxy.acl.record = ∅)
    {readd : RangeOrder String Bool} {order : RestoreOrder} {answer : Bool}
    (hrun : EStateM.run (restoreProxy readd order) proxy.encode.decode = .ok answer proxy') :
    RecoveredFrom proxy proxy' := by
  obtain ⟨-, ⟨hne, -⟩ | ⟨-, -, -, -, hrestored⟩⟩ := run_restoreProxy_decode_ok hrun
  · exact absurd h.type hne
  obtain ⟨p, hp⟩ := h.copies
  have hstatic : proxy'.staticMapping = proxy.staticMapping := by
    refine Finmap.ext_lookup fun q => ?_
    rw [hrestored.static]
    show (if q ∈ proxy.paths then some (proxy.staticMapping.get q false)
      else proxy.staticMapping.lookup q) = _
    split
    · next hq =>
        obtain ⟨hosts, hhosts⟩ := Finmap.mem_iff.mp hq
        rw [hp.paths] at hhosts
        obtain ⟨v, hv, -⟩ := Option.map_eq_some_iff.mp hhosts
        obtain ⟨flag, hflag⟩ := Finmap.mem_iff.mp
          (hp.static q (Finmap.mem_iff.mpr ⟨v, hv⟩))
        rw [GoMap.get_of_lookup hflag, hflag]
    · rfl
  obtain ⟨static, router, limiters, recorded, hframe⟩ := hrestored.frame
  have hacl : proxy'.acl = newRadixTree := by rw [hframe]
  refine ⟨by rw [hframe]; rfl, by rw [hframe]; rfl, hstatic, fun text key htext => ?_⟩
  rw [hacl, hempty]
  exact enforces_newRadixTree text key htext

end Proxies

/-- A reachable state is recovered from its snapshot exactly when every proxy
is recoverable, whatever the orders. -/
theorem recovers_iff {node : Node} (h : Reachable node) (order : ContextOrder)
    (listens : Nat → Bool) :
    Recovers node.ctx order listens ↔
      ∀ port proxy, node.ctx.httpReverseProxyList.lookup port = some proxy →
        Recoverable proxy := by
  have hmarshal : ∀ {port proxy}, node.ctx.httpReverseProxyList.lookup port = some proxy →
      node.ctx.marshal.lookup port = some proxy.encode := by
    intro port proxy hproxy
    rw [StateContext.lookup_marshal, hproxy]
    rfl
  constructor
  · rintro ⟨node', hrun, -⟩ port proxy hproxy
    obtain ⟨answer, proxy', hround, -⟩ := lookup_restore hrun (hmarshal hproxy)
    refine (completes_restoreProxy_encode_iff (h.sound port proxy hproxy)
      (order.readd port) (order.rest port)).mp ?_
    rw [hround]
    trivial
  · intro hall
    obtain ⟨node', hrun⟩ : ∃ node', EStateM.run (Node.restore order node.ctx.marshal)
        ⟨newStateContext listens, []⟩ = .ok () node' := by
      refine run_restore_of_rounds (fun port s hs => ?_) fun port _ proxy hproxy => ?_
      · rw [StateContext.lookup_marshal] at hs
        obtain ⟨proxy, hproxy, rfl⟩ := Option.map_eq_some_iff.mp hs
        exact (completes_restoreProxy_encode_iff (h.sound port proxy hproxy) _ _).mpr
          (hall port proxy hproxy)
      · -- the context was empty, so nothing else is found in it
        cases hproxy
    -- with an empty record every tree is rebuilt as the empty one
    refine ⟨node', hrun, fun port proxy hproxy => ?_⟩
    obtain ⟨answer, proxy', hround, hlookup⟩ := lookup_restore hrun (hmarshal hproxy)
    exact ⟨proxy', hlookup, recoveredFrom_restoreProxy (h.sound port proxy hproxy)
      (hall port proxy hproxy).1 hround⟩

/-- A proxy and a static prefix with two hosts. -/
def staticPrefix : List LogEntry :=
  [.addHttpProxy ⟨8080, typeHashPrefixer⟩,
    .addHttpProxyPrefix ⟨8080, true, "/api", "round-robin", ["10.0.0.1:80", "10.0.0.2:80"]⟩]

theorem staticPrefix_recoverable : ∃ ctx,
    Runs.Run Step (newStateContext fun _ => true) (staticPrefix.map .apply) ctx ∧
      (∃ proxy, ctx.httpReverseProxyList.lookup 8080 = some proxy ∧
        proxy.paths.lookup "/api" = some ["10.0.0.1:80", "10.0.0.2:80"] ∧
        proxy.staticMapping.lookup "/api" = some true) ∧
      ∀ port proxy, ctx.httpReverseProxyList.lookup port = some proxy → Recoverable proxy := by
  refine ⟨_, run_of_applied rfl, ⟨_, rfl, rfl, rfl⟩, fun port proxy hproxy => ?_⟩
  change (((∅ : GoMap Int HttpReverseProxy).insert 8080 _).insert 8080 _).lookup port =
    some proxy at hproxy
  rw [GoMap.lookup_insert_eq, GoMap.lookup_insert_eq] at hproxy
  split at hproxy
  · cases hproxy
    refine ⟨rfl, fun k hk => ?_⟩
    have hapi : k = "/api" := by
      refine ((Finmap.mem_insert (s := (∅ : GoMap String (List String)))).mp hk).resolve_right ?_
      exact Finmap.notMem_empty
    subst hapi
    exact Or.inl rfl
  · cases hproxy

/-- They are recovered. -/
theorem recovers_static_prefix : ∃ ctx,
    Runs.Run Step (newStateContext fun _ => true) (staticPrefix.map .apply) ctx ∧
      (∃ proxy, ctx.httpReverseProxyList.lookup 8080 = some proxy ∧
        proxy.paths.lookup "/api" = some ["10.0.0.1:80", "10.0.0.2:80"] ∧
        proxy.staticMapping.lookup "/api" = some true) ∧
      Recovers ctx .sorted fun _ => true := by
  obtain ⟨ctx, hrun, hproxy, hrecoverable⟩ := staticPrefix_recoverable
  exact ⟨ctx, hrun, hproxy, (recovers_iff (reachable_of_run hrun) .sorted _).mpr hrecoverable⟩

/-- A proxy on port 8080 with one black-listed network. -/
def blackListed : List LogEntry :=
  [.addHttpProxy ⟨8080, typeHashPrefixer⟩, .addHttpBlackList ⟨8080, ["10.0.0.0/8"]⟩]

/-- What is recorded of the black list on a port. -/
def recordedNetworks (ctx : StateContext) (port : Int) : Option (GoMap String Bool) :=
  (ctx.httpReverseProxyList.lookup port).map fun proxy => proxy.acl.record

theorem blackListed_recorded : ∃ ctx,
    Runs.Run Step (newStateContext fun _ => true) (blackListed.map .apply) ctx ∧
      (recordedNetworks ctx 8080).any (fun record => "10.0.0.0/8" ∈ record) = true := by
  have hrecorded : (match EStateM.run (forEach blackListed StateContext.apply)
      (newStateContext fun _ => true) with
    | .ok _ ctx => (recordedNetworks ctx 8080).any fun record => "10.0.0.0/8" ∈ record
    | .error _ _ => false) = true := by
    decide +kernel
  generalize hrun : EStateM.run (forEach blackListed StateContext.apply)
    (newStateContext fun _ => true) = result at hrecorded
  cases result with
  | error e ctx => cases hrecorded
  | ok u ctx => exact ⟨ctx, run_of_applied hrun, hrecorded⟩

/-- A black-listed network is dereferenced away in the restore: the tree it
should be added to has no root. -/
theorem black_list_not_recovered : ¬ ∀ (node : Node) (order : ContextOrder)
    (listens : Nat → Bool), Reachable node → Recovers node.ctx order listens := by
  intro hclaim
  obtain ⟨ctx, hrun, hrecorded⟩ := blackListed_recorded
  have hreachable := reachable_of_run hrun
  obtain ⟨node', hrestore, -⟩ := hclaim ⟨ctx, []⟩ .sorted (fun _ => true) hreachable
  cases hproxy : ctx.httpReverseProxyList.lookup 8080 with
  | none =>
      rw [recordedNetworks, hproxy] at hrecorded
      cases hrecorded
  | some proxy =>
      rw [recordedNetworks, hproxy] at hrecorded
      have hsound := hreachable.sound 8080 proxy hproxy
      have htaken : ctx.marshal.lookup 8080 = some proxy.encode := by
        rw [StateContext.lookup_marshal, hproxy]
        rfl
      obtain ⟨answer, proxy', hround, -⟩ := lookup_restore hrestore htaken
      have hempty := ((completes_restoreProxy_encode_iff hsound _ _).mp
        (by rw [hround]; trivial)).1
      rw [Option.map_some, hempty] at hrecorded
      exact absurd hrecorded (by decide)

end Cluster
end VermouthGateway
