import VermouthGateway.Cluster.CaughtUp
import VermouthGateway.Cluster.Clients

/-!
# Hosts across the group

A registration is an entry of the log, and so is the removal of a host.  The nodes
apply them at their own pace, and a snapshot may hold entries that its index does
not count.

* `listed_caught_up_iff`: a node that has applied the whole log lists what the log
  lists.
* `registered_everywhere_iff`: when later entries do not touch the address, a
  registration is listed on every such node, unless another one has taken the prefix
  after the test.
* `removed_everywhere`: a removed host that no later entry adds is listed on none.
-/

namespace VermouthGateway
namespace Proxy

open Go Balancing Registers

/-- A call that does not add the address to the prefix. -/
def RoutingCall.Avoids (prefixPath addr : String) : RoutingCall → Prop
  | .addPrefix q _ hosts _ => q = prefixPath → addr ∉ hosts
  | .addHost q host => q = prefixPath → host ≠ addr
  | _ => True

/-- Such a call does not say that the address serves. -/
theorem RoutingCall.Avoids.not_puts {call : RoutingCall} {prefixPath addr : String}
    (h : call.Avoids prefixPath addr) : ¬ ((hostAspect addr).op prefixPath call).Puts true := by
  cases call with
  | addPrefix q algo hosts isStatic =>
      rw [Aspect.op]
      split
      next heq =>
        have hread : (hostAspect addr).read ⟨algo, hosts⟩ = false :=
          decide_eq_false (h heq.symm)
        rw [hread]
        exact Bool.false_ne_true
      · exact id
  | addHost q host =>
      rw [Aspect.op]
      split
      next heq =>
        have hadded : (hostAspect addr).added host = none := if_neg (h heq.symm)
        rw [hadded]
        exact id
      · exact id
  | removeHost q host =>
      rw [Aspect.op]
      split
      · by_cases hhost : host = addr
        · have hremoved : (hostAspect addr).removed host = some false := if_pos hhost
          rw [hremoved]
          exact Bool.false_ne_true
        · have hremoved : (hostAspect addr).removed host = none := if_neg hhost
          rw [hremoved]
          exact id
      · exact id
  | removePrefix q =>
      rw [Aspect.op]
      split <;> exact id
  | changeLb q lb =>
      rw [Aspect.op]
      split <;> exact id
  | changeStatic q => exact id

end Proxy

namespace Cluster

open Go Proxy Balancing Runs Registers

/-! ## Parts of a log -/

section Logs

variable {β : Type} {w : Watch β} {G : GatewayRouting} {entry : LogEntry}
  {log more : List LogEntry}

theorem LogFits.drop (h : LogFits G (log ++ more)) : LogFits (logRouting G log) more := by
  intro n entry hentry
  have hfits := h (log.length + n) entry (by
    rw [List.getElem?_append_right (Nat.le_add_right _ _), Nat.add_sub_cancel_left, hentry])
  rw [List.take_length_add_append, logRouting, List.foldl_append] at hfits
  exact hfits

theorem LogFits.head (h : LogFits G (entry :: log)) : entry.Fits G := h 0 entry rfl

/-- What no entry puts into the register is not in it in the end. -/
theorem watch_value_ne (hkeeps : w.keeps G) (hadmits : ∀ entry ∈ log, w.admits entry)
    (hfits : LogFits G log) {b : β} (hno : ∀ entry ∈ log, ¬ (w.op entry).Puts b)
    (hvalue : w.value G ≠ some b) : w.value (logRouting G log) ≠ some b := by
  induction log generalizing G with
  | nil => exact hvalue
  | cons entry log ih =>
      obtain ⟨hallowed, hadmits⟩ := List.forall_mem_cons.mp hadmits
      obtain ⟨hfirst, hno⟩ := List.forall_mem_cons.mp hno
      obtain ⟨hnext, hread⟩ := w.route hkeeps hallowed hfits.head
      have hrest : LogFits (entry.route G) log :=
        LogFits.drop (show LogFits G ([entry] ++ log) from hfits)
      exact ih hnext hadmits hrest hno (hread ▸ RegisterOp.run_ne_some hfirst hvalue)

end Logs

/-! ## The address of a host -/

section Hosts

variable {G : GatewayRouting} {log : List LogEntry} {port : Int} {prefixPath addr : String}

/-- Whether the address is listed. -/
abbrev listWatch (port : Int) (prefixPath addr : String) : Watch Bool :=
  aspectWatch (hostAspect addr) port prefixPath

theorem lists_iff_value :
    G.Lists port prefixPath addr ↔ (listWatch port prefixPath addr).value G = some true := by
  constructor
  · rintro ⟨v, hv, hmem⟩
    show (G.view port prefixPath).map _ = _
    rw [hv, Option.map_some]
    exact congrArg some (decide_eq_true hmem)
  · intro hvalue
    obtain ⟨v, hv, hread⟩ := Option.map_eq_some_iff.mp hvalue
    exact ⟨v, hv, of_decide_eq_true hread⟩

/-- An entry that does not add the address to the prefix of the port. -/
def LogEntry.Avoids (port : Int) (prefixPath addr : String) (entry : LogEntry) : Prop :=
  ∀ call, entry.call = some (port, .routing call) → call.Avoids prefixPath addr

theorem LogEntry.Avoids.not_puts {entry : LogEntry} (h : entry.Avoids port prefixPath addr) :
    ¬ ((listWatch port prefixPath addr).op entry).Puts true := by
  show ¬ (aspectOp (hostAspect addr) port prefixPath entry).Puts true
  rw [aspectOp]
  split
  next p call hcall =>
    split
    next heq =>
      subst heq
      exact (h call hcall).not_puts
    · exact id
  · exact id

/-- A listed address stays listed under entries that leave it. -/
theorem GatewayRouting.Lists.routeAll (h : G.Lists port prefixPath addr)
    (hleaves : ∀ entry ∈ log, entry.Leaves port prefixPath addr) :
    (logRouting G log).Lists port prefixPath addr := by
  induction log generalizing G with
  | nil => exact h
  | cons entry log ih =>
      obtain ⟨hfirst, hrest⟩ := List.forall_mem_cons.mp hleaves
      exact ih (h.route hfirst) hrest

end Hosts

section Group

variable {ι : Type} [DecidableEq ι] {confs : List HttpProxyArgs} {c c' : RaftGroup ι}
  {events : List (RaftEvent ι)} {i : ι} {port : Int} {prefixPath addr : String}
  {before later : List LogEntry} {entry : LogEntry}

theorem listed_caught_up_iff (hplain : ∀ args ∈ confs, PlainArgs args) (hstart : Started confs c)
    (hrun : Run RaftStep c events c') (hfits : LogFits (confRouting confs) c'.log)
    (hentries : ∀ entry ∈ c'.log, PlainEntry entry)
    (hcaught : (c'.replicas i).applied = c'.log.length) :
    (c'.replicas i).node.ctx.Listed port prefixPath addr ↔
      (logRouting (confRouting confs) c'.log).Lists port prefixPath addr := by
  have hagree : ∀ args ∈ confs, ModesAgree args :=
    fun args hargs => modesAgree_of_plain (hplain args hargs)
  obtain ⟨G, hG⟩ := exists_routing hagree hstart hrun hfits i
  have hvalue := watch_caught_up (w := listWatch port prefixPath addr) hagree hstart
    (keeps_confRouting hplain addr) hrun
    (fun entry hentry p call hcall => admits_of_plain (hentries entry hentry p call hcall) addr)
    hfits hcaught hG
  rw [listed_iff hG, lists_iff_value, hvalue, ← lists_iff_value]

/-- What the log before an entry, the entry, and the rest of the log do to an address. -/
theorem around_entry (hplain : ∀ args ∈ confs, PlainArgs args)
    (hfits : LogFits (confRouting confs) (before ++ entry :: later))
    (hentries : ∀ e ∈ before ++ entry :: later, PlainEntry e) :
    (listWatch port prefixPath addr).value
        (entry.route (logRouting (confRouting confs) before)) =
      ((listWatch port prefixPath addr).op entry).run
        ((listWatch port prefixPath addr).value (logRouting (confRouting confs) before)) ∧
    ((∀ entry ∈ later, entry.Avoids port prefixPath addr) →
      ¬ (entry.route (logRouting (confRouting confs) before)).Lists port prefixPath addr →
      ¬ (logRouting (confRouting confs) (before ++ entry :: later)).Lists port prefixPath
        addr) := by
  have hadmits : ∀ e ∈ before ++ entry :: later, (listWatch port prefixPath addr).admits e :=
    fun e he p call hcall => admits_of_plain (hentries e he p call hcall) addr
  obtain ⟨hbefore, hrest⟩ := List.forall_mem_append.mp hadmits
  obtain ⟨hallowed, hlater⟩ := List.forall_mem_cons.mp hrest
  obtain ⟨hkept, -⟩ := watch_logRouting (w := listWatch port prefixPath addr)
    (keeps_confRouting hplain addr) hbefore hfits.of_append (Nat.le_refl before.length)
  rw [List.take_length] at hkept
  have hfitsRest : LogFits (logRouting (confRouting confs) before) ([entry] ++ later) := hfits.drop
  obtain ⟨hnext, hread⟩ := (listWatch port prefixPath addr).route hkept hallowed
    (LogFits.head hfitsRest)
  refine ⟨hread, fun havoid hnot => ?_⟩
  rw [lists_iff_value, logRouting, List.foldl_append, List.foldl_cons]
  exact watch_value_ne hnext hlater hfitsRest.drop
    (fun entry hentry => (havoid entry hentry).not_puts) (mt lists_iff_value.mpr hnot)

/-- What an entry about the port does to the address. -/
theorem op_of_call {call : RoutingCall} (hcall : entry.call = some (port, .routing call)) :
    (listWatch port prefixPath addr).op entry = (hostAspect addr).op prefixPath call :=
  (aspectOp_of_routing hcall port prefixPath).trans (if_pos rfl)

/-- What a registration does to its address. -/
theorem op_registration (req : RegisterToProxyReq) (pathExists : Bool) :
    (listWatch req.port req.prefixPath req.localAddr).op (req.entry pathExists) =
      if pathExists then .write true else .init true := by
  cases pathExists with
  | false =>
      have hcall : (req.entry false).call = some (req.port, .routing
        (.addPrefix req.prefixPath req.balanceMode [req.localAddr] req.static)) := rfl
      rw [op_of_call hcall, Aspect.op, if_pos rfl]
      exact congrArg RegisterOp.init (decide_eq_true List.mem_cons_self)
  | true =>
      have hcall : (req.entry true).call =
        some (req.port, .routing (.addHost req.prefixPath req.localAddr)) := rfl
      rw [op_of_call hcall, Aspect.op, if_pos rfl]
      exact congrArg RegisterOp.writeIf (if_pos rfl)

/-- A registration is listed on every node that has applied the whole log, when the
entries after it do not touch the address; unless it was to add the prefix, and by
then the prefix was there without the address. -/
theorem registered_everywhere_iff {req : RegisterToProxyReq} {pathExists : Bool}
    (hplain : ∀ args ∈ confs, PlainArgs args) (hstart : Started confs c)
    (hrun : Run RaftStep c events c') (hfits : LogFits (confRouting confs) c'.log)
    (hentries : ∀ entry ∈ c'.log, PlainEntry entry)
    (hcaught : (c'.replicas i).applied = c'.log.length)
    (hlog : c'.log = before ++ req.entry pathExists :: later)
    (hleaves : ∀ entry ∈ later, entry.Leaves req.port req.prefixPath req.localAddr)
    (havoid : ∀ entry ∈ later, entry.Avoids req.port req.prefixPath req.localAddr) :
    (c'.replicas i).node.ctx.Listed req.port req.prefixPath req.localAddr ↔
      pathExists = true ∨
      (logRouting (confRouting confs) before).view req.port req.prefixPath = none ∨
      (logRouting (confRouting confs) before).Lists req.port req.prefixPath req.localAddr := by
  rw [listed_caught_up_iff hplain hstart hrun hfits hentries hcaught]
  rw [hlog] at hfits hentries ⊢
  obtain ⟨hread, hlater⟩ := around_entry hplain hfits hentries
  have hread := hread.trans (congrArg (RegisterOp.run · _) (op_registration req pathExists))
  have hend : (logRouting (confRouting confs) (before ++ req.entry pathExists :: later)).Lists
        req.port req.prefixPath req.localAddr ↔
      ((req.entry pathExists).route (logRouting (confRouting confs) before)).Lists
        req.port req.prefixPath req.localAddr := by
    refine ⟨fun hlists => by_contra fun hnot => hlater havoid hnot hlists, fun hlists => ?_⟩
    rw [logRouting, List.foldl_append, List.foldl_cons]
    exact hlists.routeAll hleaves
  rw [hend, lists_iff_value, hread, lists_iff_value]
  cases pathExists with
  | true =>
      -- the prefix is there, or the entry would not fit
      have hsome : (listWatch req.port req.prefixPath req.localAddr).value
          (logRouting (confRouting confs) before) ≠ none :=
        (listWatch req.port req.prefixPath req.localAddr).writes
          (op_registration req true) (LogFits.head hfits.drop)
      obtain ⟨b, hb⟩ := Option.ne_none_iff_exists'.mp hsome
      rw [if_pos rfl, hb]
      exact iff_of_true rfl (Or.inl rfl)
  | false =>
      rw [if_neg Bool.false_ne_true]
      show some _ = some true ↔ _
      cases hv : (logRouting (confRouting confs) before).view req.port req.prefixPath with
      | none =>
          have hnone : (listWatch req.port req.prefixPath req.localAddr).value
              (logRouting (confRouting confs) before) = none := by
            show Option.map _ _ = none
            rw [hv, Option.map_none]
          rw [hnone]
          exact iff_of_true rfl (Or.inr (Or.inl rfl))
      | some v =>
          have hsome : (listWatch req.port req.prefixPath req.localAddr).value
              (logRouting (confRouting confs) before) =
                some ((hostAspect req.localAddr).read v) := by
            show Option.map _ _ = _
            rw [hv, Option.map_some]
          rw [hsome, Option.getD_some]
          simp

/-- Two nodes that both apply one entry. -/
theorem exists_applied_run {ctx ctx₁ : StateContext}
    (hboot : EStateM.run (StateContext.boot oneProxyConf (.sorted _ _))
      (newStateContext fun _ => true) = .ok () ctx)
    (happly : EStateM.run (StateContext.apply entry) ctx = .ok () ctx₁) :
    ∃ (c c' : RaftGroup Bool) (events : List (RaftEvent Bool)), Started oneProxyConf c ∧
      Run RaftStep c events c' ∧ c'.log = [entry] ∧ ∀ i, (c'.replicas i).applied = 1 := by
  refine ⟨⟨[], fun _ => ⟨⟨ctx, []⟩, 0, none, fun _ => none⟩, []⟩, _, _,
    ⟨rfl, rfl, fun _ => ⟨_, _, ctx, hboot, rfl⟩⟩,
    .cons (.commit _ entry) (.cons (.apply (i := false) rfl happly)
      (.single (.apply (i := true) rfl happly))), rfl, fun i => ?_⟩
  cases i <;> rfl

/-- A client registers a second host. -/
theorem registered_everywhere_iff_second_host : ∃ c' : RaftGroup Bool,
    c'.log = [.addHttpProxyHost ⟨8080, "/api", "10.0.0.2:80"⟩] ∧
    ∀ i, (c'.replicas i).node.ctx.Listed 8080 "/api" "10.0.0.2:80" := by
  obtain ⟨ctx, ctx₁, hboot, happly⟩ : ∃ ctx ctx₁,
      EStateM.run (StateContext.boot oneProxyConf (.sorted _ _))
        (newStateContext fun _ => true) = .ok () ctx ∧
      EStateM.run (StateContext.apply (.addHttpProxyHost ⟨8080, "/api", "10.0.0.2:80"⟩)) ctx =
        .ok () ctx₁ := ⟨_, _, run_boot _ rfl, rfl⟩
  obtain ⟨c, c', events, hstart, hrun, hlog, happlied⟩ := exists_applied_run hboot happly
  have hfits : LogFits (confRouting oneProxyConf)
      [.addHttpProxyHost ⟨8080, "/api", "10.0.0.2:80"⟩] :=
    logFits_single (Or.inl ⟨8080, .routing (.addHost "/api" "10.0.0.2:80"), _, rfl, rfl,
      Finmap.mem_insert.mpr (.inl rfl)⟩)
  have hentries : ∀ e ∈ [LogEntry.addHttpProxyHost ⟨8080, "/api", "10.0.0.2:80"⟩],
      PlainEntry e := by
    intro e he p call hcall
    obtain rfl := List.mem_singleton.mp he
    cases hcall
    trivial
  have hsplit : c'.log = [] ++ (registerReq 8080 "/api" "10.0.0.2:80" []).entry true :: [] := hlog
  exact ⟨c', hlog, fun i => (registered_everywhere_iff plainArgs_oneProxyConf hstart hrun
    (hlog ▸ hfits) (hlog ▸ hentries) (by rw [happlied, hlog]; rfl) hsplit
    (fun _ h => nomatch h) (fun _ h => nomatch h)).mpr (Or.inl rfl)⟩

/-- A host that is removed, or whose prefix is, is listed on no node that has applied
the whole log, until an entry adds it again. -/
theorem removed_everywhere (hplain : ∀ args ∈ confs, PlainArgs args) (hstart : Started confs c)
    (hrun : Run RaftStep c events c') (hfits : LogFits (confRouting confs) c'.log)
    (hentries : ∀ entry ∈ c'.log, PlainEntry entry)
    (hcaught : (c'.replicas i).applied = c'.log.length)
    (hlog : c'.log = before ++ entry :: later)
    (hentry : entry = .rmvHttpProxyHost ⟨port, prefixPath, addr⟩ ∨
      entry = .rmvHttpProxyPrefix ⟨port, prefixPath⟩)
    (havoid : ∀ entry ∈ later, entry.Avoids port prefixPath addr) :
    ¬ (c'.replicas i).node.ctx.Listed port prefixPath addr := by
  rw [listed_caught_up_iff hplain hstart hrun hfits hentries hcaught]
  rw [hlog] at hfits hentries ⊢
  obtain ⟨hread, hlater⟩ := around_entry hplain hfits hentries
  refine hlater havoid ?_
  rw [lists_iff_value, hread]
  rcases hentry with rfl | rfl
  · have hop : (listWatch port prefixPath addr).op (.rmvHttpProxyHost ⟨port, prefixPath, addr⟩) =
        .write false := by
      have hcall : (LogEntry.rmvHttpProxyHost ⟨port, prefixPath, addr⟩).call =
        some (port, .routing (.removeHost prefixPath addr)) := rfl
      rw [op_of_call hcall, Aspect.op, if_pos rfl]
      exact congrArg RegisterOp.writeIf (if_pos rfl)
    rw [hop]
    intro hvalue
    obtain ⟨b, -, hfalse⟩ := Option.map_eq_some_iff.mp hvalue
    exact Bool.false_ne_true hfalse
  · have hop : (listWatch port prefixPath addr).op (.rmvHttpProxyPrefix ⟨port, prefixPath⟩) =
        .clear := by
      have hcall : (LogEntry.rmvHttpProxyPrefix ⟨port, prefixPath⟩).call =
        some (port, .routing (.removePrefix prefixPath)) := rfl
      rw [op_of_call hcall, Aspect.op, if_pos rfl]
    rw [hop]
    exact (Option.some_ne_none true).symm

/-- The only host is removed. -/
theorem removed_everywhere_only_host : ∃ c' : RaftGroup Bool,
    c'.log = [.rmvHttpProxyHost ⟨8080, "/api", "10.0.0.1:80"⟩] ∧
    ∀ i, ¬ (c'.replicas i).node.ctx.Listed 8080 "/api" "10.0.0.1:80" := by
  obtain ⟨ctx, ctx₁, hboot, happly⟩ : ∃ ctx ctx₁,
      EStateM.run (StateContext.boot oneProxyConf (.sorted _ _))
        (newStateContext fun _ => true) = .ok () ctx ∧
      EStateM.run (StateContext.apply (.rmvHttpProxyHost ⟨8080, "/api", "10.0.0.1:80"⟩)) ctx =
        .ok () ctx₁ := ⟨_, _, run_boot _ rfl, rfl⟩
  obtain ⟨c, c', events, hstart, hrun, hlog, happlied⟩ := exists_applied_run hboot happly
  have hfits : LogFits (confRouting oneProxyConf)
      [.rmvHttpProxyHost ⟨8080, "/api", "10.0.0.1:80"⟩] :=
    logFits_single (Or.inl ⟨8080, .routing (.removeHost "/api" "10.0.0.1:80"), _, rfl, rfl,
      Finmap.mem_insert.mpr (.inl rfl)⟩)
  have hentries : ∀ e ∈ [LogEntry.rmvHttpProxyHost ⟨8080, "/api", "10.0.0.1:80"⟩],
      PlainEntry e := by
    intro e he p call hcall
    obtain rfl := List.mem_singleton.mp he
    cases hcall
    trivial
  exact ⟨c', hlog, fun i => removed_everywhere plainArgs_oneProxyConf hstart hrun
    (hlog ▸ hfits) (hlog ▸ hentries) (by rw [happlied, hlog]; rfl)
    (hlog.trans (List.nil_append _).symm) (.inl rfl) (fun _ h => nomatch h)⟩

end Group

end Cluster
end VermouthGateway
