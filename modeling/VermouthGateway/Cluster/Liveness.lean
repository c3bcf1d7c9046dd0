import VermouthGateway.Cluster.Api
import VermouthGateway.Cluster.Shutdown
import VermouthGateway.Proxy.Returns

/-!
# Entries that can be applied

A method of the interface checks the state of the leader when it is called; its
entry is applied later, to whatever state the entries before it have left, and
again at every restart.  `LogEntry.Ready` is what that state has to provide.

* `ClusterStep`: a node in cluster mode, with the interface and the log.
* `apply_returns`: the next entry can be applied if it is ready, and but for
  the removal of black-listed networks only then.
* `unchecked_entry_panics`: the interface appends entries that are not.
-/

namespace VermouthGateway
namespace Cluster

open Go Proxy Balancing Runs

/-- What an entry needs of the state it is applied to. -/
def LogEntry.Ready (ctx : StateContext) (entry : LogEntry) : Prop :=
  match entry.call with
  | some (port, call) => ∃ proxy, ctx.httpReverseProxyList.lookup port = some proxy ∧
      call.Ready proxy
  | none =>
      match entry with
      | .addHttpProxy body => body.prefixType = typeHashPrefixer
      | .rmvHttpProxy body => ∃ g, ctx.Receiver body.port g
      | .chgState body => ∃ g, ctx.Receiver body.port g
      | _ => False

namespace LogEntry

variable {ctx : StateContext} {entry : LogEntry}

theorem ready_of_call {port : Int} {call : ProxyCall} (hcall : entry.call = some (port, call)) :
    entry.Ready ctx ↔
      ∃ proxy, ctx.httpReverseProxyList.lookup port = some proxy ∧ call.Ready proxy := by
  simp only [Ready, hcall]

theorem ready_chgState {body : ChangeHttpProxyStateBody}
    (hcall : (LogEntry.chgState body).call = none) :
    (LogEntry.chgState body).Ready ctx ↔ ∃ g, ctx.Receiver body.port g := by
  simp only [Ready, hcall]

theorem eq_rmvHttpBlackList {port : Int} {ips : List String}
    (hcall : entry.call = some (port, .removeBlackList ips)) :
    ∃ body, entry = .rmvHttpBlackList body := by
  cases entry with
  | rmvHttpBlackList body => exact ⟨body, rfl⟩
  | chgState body =>
      rw [call] at hcall
      split at hcall
      · cases hcall
      · split at hcall <;> cases hcall
  | _ => cases hcall

end LogEntry

namespace StateContext

variable {ctx : StateContext} {entry : LogEntry}

theorem completes_of_ready (h : ctx.Sound) (hready : entry.Ready ctx) :
    Completes (EStateM.run (apply entry) ctx) := by
  cases hcall : entry.call with
  | some target =>
      obtain ⟨port, call⟩ := target
      obtain ⟨proxy, hproxy, hready⟩ := (LogEntry.ready_of_call hcall).mp hready
      rw [apply_of_call hcall]
      exact completes_onProxy_iff.mpr
        ⟨proxy, hproxy, call.completes_of_ready (h port proxy hproxy) hready⟩
  | none =>
      rcases apply_of_no_call hcall with ⟨body, rfl⟩ | ⟨body, rfl⟩ | ⟨body, rfl, -, -, happly⟩
      · exact completes_handleAddHttpProxy_iff.mpr hready
      · exact completes_handleRemoveHttpProxy_iff.mpr hready
      · rw [happly]
        exact completes_close_iff.mpr ((LogEntry.ready_chgState hcall).mp hready)

/-- An entry that could be applied was ready. -/
theorem ready_of_completes (h : ctx.Sound) (hentry : ∀ body, entry ≠ .rmvHttpBlackList body)
    (hcomplete : Completes (EStateM.run (apply entry) ctx)) : entry.Ready ctx := by
  cases hcall : entry.call with
  | some target =>
      obtain ⟨port, call⟩ := target
      rw [apply_of_call hcall] at hcomplete
      obtain ⟨proxy, hproxy, hcomplete⟩ := completes_onProxy_iff.mp hcomplete
      have hcalls : ∀ ips, call ≠ .removeBlackList ips := by
        rintro ips rfl
        obtain ⟨body, rfl⟩ := LogEntry.eq_rmvHttpBlackList hcall
        exact hentry body rfl
      exact (LogEntry.ready_of_call hcall).mpr
        ⟨proxy, hproxy, (ProxyCall.completes_iff (h port proxy hproxy) hcalls).mp hcomplete⟩
  | none =>
      rcases apply_of_no_call hcall with ⟨body, rfl⟩ | ⟨body, rfl⟩ | ⟨body, rfl, -, -, happly⟩
      · exact completes_handleAddHttpProxy_iff.mp hcomplete
      · exact completes_handleRemoveHttpProxy_iff.mp hcomplete
      · rw [happly] at hcomplete
        exact (LogEntry.ready_chgState hcall).mpr (completes_close_iff.mp hcomplete)

end StateContext

/-! ## Nodes in cluster mode -/

inductive ClusterEvent
  | call (request : ApiRequest)
  | appended (entry : LogEntry)
  | applied
  | on (event : Event)

/-- A call of the interface, an entry that comes from elsewhere, the next entry
applied, or an event of the node alone. -/
inductive ClusterStep : Vermouth → ClusterEvent → Vermouth → Prop
  | call (v : Vermouth) (request : ApiRequest) :
      ClusterStep v (.call request) (memory (EStateM.run request.call v))
  | appended (v : Vermouth) (entry : LogEntry) :
      ClusterStep v (.appended entry) { v with raftLog := v.raftLog ++ [entry] }
  | applied {v : Vermouth} {entry : LogEntry} {rest : List LogEntry} {ctx : StateContext}
      (hlog : v.raftLog = entry :: rest)
      (hrun : EStateM.run (StateContext.apply entry) v.ctx = .ok () ctx) :
      ClusterStep v .applied { v with ctx := ctx, raftLog := rest }
  | on {v : Vermouth} {event : Event} {ctx : StateContext} (hlocal : event.entry = none)
      (hstep : Step v.ctx event ctx) : ClusterStep v (.on event) { v with ctx := ctx }

namespace Vermouth

variable {v : Vermouth} {stand : Eff StateContext Unit} {entry : LogEntry}

/-- A call in cluster mode leaves the state alone. -/
structure Kept (v v' : Vermouth) : Prop where
  mode : v'.mode = v.mode
  ctx : v'.ctx = v.ctx

theorem Kept.refl (v : Vermouth) : Kept v v := ⟨rfl, rfl⟩

theorem kept_byMode (hmode : v.mode = .cluster) :
    Kept v (memory (EStateM.run (byMode stand entry) v)) := by
  rw [byMode, EStateM.run_bind, EStateM.run_get]
  dsimp only
  rw [hmode]
  exact ⟨hmode.symm ▸ rfl, rfl⟩

theorem kept_withProxy {port : Int} (check : HttpReverseProxy → Option ApiError)
    (hmode : v.mode = .cluster) :
    Kept v (memory (EStateM.run (withProxy port check stand entry) v)) := by
  rw [withProxy, EStateM.run_bind, EStateM.run_get]
  dsimp only
  cases v.ctx.httpReverseProxyList.lookup port with
  | none => exact .refl v
  | some proxy =>
      dsimp only
      cases check proxy with
      | some e => exact .refl v
      | none => exact kept_byMode hmode

theorem kept_standProxy {port : Int} (hmode : v.mode = .cluster) :
    Kept v (memory (EStateM.run (standProxy port stand entry) v)) := by
  rw [standProxy, EStateM.run_bind, EStateM.run_get]
  dsimp only
  rw [hmode]
  exact ⟨hmode.symm ▸ rfl, rfl⟩

theorem kept_addHttpProxy {body : AddHttpProxyBody} (hmode : v.mode = .cluster) :
    Kept v (memory (EStateM.run (addHttpProxy body) v)) := by
  rw [addHttpProxy, EStateM.run_bind, EStateM.run_get]
  dsimp only
  rw [run_ite]
  split
  · exact .refl v
  · exact kept_byMode hmode

theorem kept_changeLb {body : HttpChangeLbBody} (hmode : v.mode = .cluster) :
    Kept v (memory (EStateM.run (changeLb body) v)) := by
  rw [changeLb, EStateM.run_bind, EStateM.run_get]
  dsimp only
  cases v.ctx.httpReverseProxyList.lookup body.port with
  | none => exact .refl v
  | some proxy =>
  dsimp only
  cases proxy.prefixMapping with
  | none => exact .refl v
  | some p =>
  dsimp only
  cases p.getBalancer body.prefixPath with
  | none => exact .refl v
  | some b =>
  dsimp only
  rw [run_ite]
  split
  · exact .refl v
  · exact kept_byMode hmode

theorem kept_call (request : ApiRequest) (hmode : v.mode = .cluster) :
    Kept v (memory (EStateM.run request.call v)) := by
  cases request with
  | addHttpProxy body => exact kept_addHttpProxy hmode
  | addBlackList body => exact kept_standProxy hmode
  | removeBlackList body => exact kept_standProxy hmode
  | changeLb body => exact kept_changeLb hmode
  | setRateLimiter body => exact kept_withProxy (fun _ => none) hmode
  | changeStatic body => exact kept_withProxy (fun _ => none) hmode
  | changeProxyAvailable body => exact kept_withProxy (fun _ => none) hmode
  | _ => exact kept_withProxy _ hmode

end Vermouth

/-- Every step of a node in cluster mode keeps it there, with sound proxies. -/
theorem ClusterStep.sound {v v' : Vermouth} {event : ClusterEvent}
    (h : v.mode = .cluster ∧ v.ctx.Sound) (hstep : ClusterStep v event v') :
    v'.mode = .cluster ∧ v'.ctx.Sound := by
  obtain ⟨hmode, hsound⟩ := h
  cases hstep with
  | call request =>
      have hkept := Vermouth.kept_call request hmode
      rw [hkept.mode, hkept.ctx]
      exact ⟨hmode, hsound⟩
  | appended => exact ⟨hmode, hsound⟩
  | applied _ hrun => exact ⟨hmode, StateContext.apply_sound hsound hrun⟩
  | on _ hstep => exact ⟨hmode, step_sound hsound hstep⟩

/-- `Apply` of the next entry returns. -/
def Applies (v : Vermouth) : Prop := ∃ v', ClusterStep v .applied v'

theorem applies_iff {v : Vermouth} {entry : LogEntry} {rest : List LogEntry}
    (hlog : v.raftLog = entry :: rest) :
    Applies v ↔ Completes (EStateM.run (StateContext.apply entry) v.ctx) := by
  constructor
  · rintro ⟨v', hstep⟩
    cases hstep with
    | applied hlog' hrun =>
        obtain ⟨rfl, rfl⟩ := List.cons.inj (hlog.symm.trans hlog')
        exact completes_iff.mpr ⟨(), _, hrun⟩
  · intro hcomplete
    obtain ⟨⟨⟩, ctx, hrun⟩ := completes_iff.mp hcomplete
    exact ⟨_, .applied hlog hrun⟩

/-- In every run of a node in cluster mode the next entry of the log can be
applied if it is ready; but for the removal of black-listed networks this is
exact. -/
theorem apply_returns {v v' : Vermouth} {starting : List Int} {events : List ClusterEvent}
    {entry : LogEntry} {rest : List LogEntry} (hstart : Reachable ⟨v.ctx, starting⟩)
    (hmode : v.mode = .cluster) (hrun : Run ClusterStep v events v')
    (hlog : v'.raftLog = entry :: rest) :
    (entry.Ready v'.ctx → Applies v') ∧
      ((∀ body, entry ≠ .rmvHttpBlackList body) → Applies v' → entry.Ready v'.ctx) := by
  obtain ⟨-, hsound⟩ := Run.invariant (P := fun v => v.mode = .cluster ∧ v.ctx.Sound)
    (fun _ _ _ h hstep => hstep.sound h) hrun ⟨hmode, hstart.sound⟩
  rw [applies_iff hlog]
  exact ⟨StateContext.completes_of_ready hsound, StateContext.ready_of_completes hsound⟩

/-- A node in cluster mode with nothing on it. -/
def emptyCluster : Vermouth := ⟨.cluster, newStateContext fun _ => true, []⟩

/-- A proxy and a prefix on it. -/
def twoEntries : List ClusterEvent :=
  [.call (.addHttpProxy ⟨8080, typeHashPrefixer⟩), .applied,
    .call (.addHttpProxyPrefix ⟨8080, false, "/api", "round-robin", ["10.0.0.1:80"]⟩), .applied]

/-- A second host is added after the entries for its proxy and the prefix have
been applied. -/
theorem apply_returns_later_entry : ∃ v,
    Run ClusterStep emptyCluster
      (twoEntries ++ [.call (.addHttpProxyHost ⟨8080, "/api", "10.0.0.2:80"⟩)]) v ∧
    v.raftLog = [.addHttpProxyHost ⟨8080, "/api", "10.0.0.2:80"⟩] ∧ Applies v := by
  obtain ⟨v, hrun, hlog, hready⟩ : ∃ v,
      Run ClusterStep emptyCluster
        (twoEntries ++ [.call (.addHttpProxyHost ⟨8080, "/api", "10.0.0.2:80"⟩)]) v ∧
      v.raftLog = [.addHttpProxyHost ⟨8080, "/api", "10.0.0.2:80"⟩] ∧
      (LogEntry.addHttpProxyHost ⟨8080, "/api", "10.0.0.2:80"⟩).Ready v.ctx := by
    refine ⟨_, .cons (.call _ _) (.cons (.applied rfl rfl) (.cons (.call _ _)
      (.cons (.applied rfl rfl) (.single (.call _ _))))), rfl, ?_⟩
    exact ⟨_, rfl, .roundRobin _, rfl, rfl⟩
  exact ⟨v, hrun, hlog, (apply_returns (reachable_empty fun _ => true) rfl hrun hlog).1 hready⟩

/-- The interface appends an entry for a port without a proxy; applying it
dereferences nil. -/
theorem unchecked_entry_panics : ¬ ∀ (v v' : Vermouth) (starting : List Int)
    (events : List ClusterEvent) (entry : LogEntry) (rest : List LogEntry),
    Reachable ⟨v.ctx, starting⟩ → v.mode = .cluster → Run ClusterStep v events v' →
    v'.raftLog = entry :: rest → Applies v' := by
  intro hclaim
  have happlies := hclaim emptyCluster _ [] [.call (.addBlackList ⟨8080, ["10.0.0.0/8"]⟩)]
    (.addHttpBlackList ⟨8080, ["10.0.0.0/8"]⟩) [] (reachable_empty fun _ => true) rfl
    (.single (.call _ _)) rfl
  have hcomplete := (applies_iff rfl).mp happlies
  obtain ⟨proxy, hproxy, -⟩ := StateContext.completes_onProxy_iff.mp hcomplete
  cases hproxy

end Cluster
end VermouthGateway
