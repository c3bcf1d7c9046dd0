import VermouthGateway.Balancing.RingCalls

/-!
# What a balancer reports

`Hosts` is what the proxy copies into its tables and the snapshot.  A
`RoundRobin` answers the list it balances over; a `ConsistenceHash` answers
`list`, which the constructor fills and `Add` forgets.

* `hosts_are_reported`: both report exactly the hosts given or added and not
  removed since, as long as nothing is added to a `ConsistenceHash`.
* Then `Balance` fails exactly when there are none, and otherwise answers one of
  them, if the ring can make a key of the request.
-/

namespace VermouthGateway
namespace Balancing

open Go Runs

/-- `Hosts` answers the hosts of the history, each once. -/
structure Reports (s : History Balancer) : Prop where
  nodup : s.current.hosts.Nodup
  mem_iff : ∀ host, host ∈ s.current.hosts ↔ host ∈ s.hosts

/-- `Balance` fails when there is no host, and otherwise answers one of them. -/
def BalancesOver (s : History Balancer) (url : String) (r : Option Utils.Request) : Prop :=
  if s.hosts = [] then
    ∃ e b', EStateM.run (Balancer.balance url r) s.current = .ok (.error e) b'
  else
    ∃ host ∈ s.hosts, ∃ b', EStateM.run (Balancer.balance url r) s.current = .ok (.ok host) b'

/-- Nothing is added to a `ConsistenceHash`. -/
def HostCall.Recorded (b : Balancer) : HostCall → Prop
  | .add _ => b.mode = typeRoundRobin
  | .remove _ => True

/-- A `ConsistenceHash` finds a port to cut off the address of the client. -/
def Keyed (b : Balancer) (url : String) (r : Option Utils.Request) : Prop :=
  b.mode = typeRoundRobin ∨ ∃ key, ConsistenceHash.balanceKey url r = .ok key

/-- A fitting call that returns and is recorded. -/
def RecordedStep (s : History Balancer) (call : HostCall) (s' : History Balancer) : Prop :=
  FittingStep HostCall.onBalancer s call s' ∧ call.Recorded s.current

theorem typeConsistenceHash_ne : typeConsistenceHash ≠ typeRoundRobin := by decide

/-- The lock is free, and a ring is the ring over the hosts. -/
def Balancer.Serves (names : Set String) (hosts : List String) : Balancer → Prop
  | .roundRobin r => r.mu = .free
  | .consistenceHash c => Kept checksumIEEE names ⟨c, hosts⟩

structure Recording (names : Set String) (s : History Balancer) : Prop where
  hosts_eq : s.current.hosts = s.hosts
  nodup : s.hosts.Nodup
  serves : s.current.Serves names s.hosts

namespace Recording

variable {names : Set String} {s : History Balancer} {call : HostCall}

theorem reports (h : Recording names s) : Reports s where
  nodup := by rw [h.hosts_eq]; exact h.nodup
  mem_iff host := by rw [h.hosts_eq]

/-- What `Hosts` answers after a call that returned. -/
theorem hosts_after (h : Recording names s) (hfits : call.Fitting s.hosts)
    (hrecorded : call.Recorded s.current) {b' : Balancer}
    (hrun : EStateM.run call.onBalancer s.current = .ok () b') :
    b'.hosts = call.after s.hosts := by
  cases call with
  | add host =>
      have hview := congrArg View.hosts (Balancer.run_add_view hrun)
      have hmode : s.current.view.mode = typeRoundRobin := hrecorded
      rw [View.add, if_pos hmode, RoundRobin.addedHosts, Balancer.view_hosts, Balancer.view_hosts,
        h.hosts_eq, if_neg hfits] at hview
      exact hview
  | remove host =>
      have hview := congrArg View.hosts (Balancer.run_remove_view hrun)
      rw [View.remove, Balancer.view_hosts, Balancer.view_hosts, h.hosts_eq,
        h.nodup.erase_eq_filter] at hview
      rw [hview, HostCall.after]
      refine List.filter_congr fun q _ => ?_
      rw [Bool.eq_iff_iff, bne_iff_ne, decide_eq_true_iff]

/-- A call that adds nothing to a ring returns. -/
theorem call_returns (h : Recording names s) (call : HostCall)
    (hsep : s.current.mode = typeConsistenceHash → Separates checksumIEEE names)
    (hfits : call.Fitting s.hosts) (hrecorded : call.Recorded s.current) :
    ∃ b', EStateM.run call.onBalancer s.current = .ok () b' ∧
      b'.Serves names (call.after s.hosts) ∧ b'.mode = s.current.mode := by
  obtain ⟨b, hosts⟩ := s
  have hserves : b.Serves names hosts := h.serves
  cases b with
  | roundRobin r =>
      cases call with
      | add host =>
          refine ⟨.roundRobin { r with hosts := RoundRobin.addedHosts r.hosts host }, ?_,
            hserves, rfl⟩
          rw [HostCall.onBalancer, Balancer.add, Balancer.run_dispatch_roundRobin,
            RoundRobin.run_add hserves]
          rfl
      | remove host =>
          refine ⟨.roundRobin { r with hosts := r.hosts.erase host }, ?_, hserves, rfl⟩
          rw [HostCall.onBalancer, Balancer.remove, Balancer.run_dispatch_roundRobin,
            RoundRobin.run_remove hserves]
          rfl
  | consistenceHash c =>
      cases call with
      | add host => exact absurd hrecorded typeConsistenceHash_ne
      | remove host =>
          have hkept : Kept checksumIEEE names ⟨c, hosts⟩ := hserves
          obtain ⟨c', hrun, hkept'⟩ := hkept.call_returns (.remove host) (hsep rfl)
            (hkept.known host hfits) (hfits.once h.nodup)
          refine ⟨.consistenceHash c', ?_, hkept', rfl⟩
          rw [HostCall.onBalancer, Balancer.remove, Balancer.run_dispatch_consistenceHash]
          exact congrArg (embed Balancer.consistenceHash) hrun

theorem step {s' : History Balancer} (h : Recording names s)
    (hsep : s.current.mode = typeConsistenceHash → Separates checksumIEEE names)
    (hstep : RecordedStep s call s') : Recording names s' ∧ s'.current.mode = s.current.mode := by
  obtain ⟨⟨hcall, hfits⟩, hrecorded⟩ := hstep
  obtain ⟨b', hrun, hserves, hmode⟩ := h.call_returns call hsep hfits hrecorded
  obtain rfl : s'.current = b' := by
    have hboth := hcall.runs.symm.trans hrun
    cases hboth
    rfl
  refine ⟨⟨?_, ?_, ?_⟩, hmode⟩
  · rw [hcall.hosts_eq]
    exact h.hosts_after hfits hrecorded hcall.runs
  · rw [hcall.hosts_eq]
    exact HostCall.nodup_after h.nodup hfits
  · rw [hcall.hosts_eq]
    exact hserves

/-- Of the calls that fit, the next one is reported exactly when nothing is
added to a ring. -/
theorem reports_after_iff (h : Recording names s)
    (hsep : s.current.mode = typeConsistenceHash → Separates checksumIEEE names)
    (hfits : call.Fitting s.hosts) :
    (∃ b', EStateM.run call.onBalancer s.current = .ok () b' ∧
      Reports ⟨b', call.after s.hosts⟩) ↔ call.Recorded s.current := by
  constructor
  · rintro ⟨b', hrun, hreports⟩
    cases call with
    | remove host => trivial
    | add host =>
        by_contra hring
        have hview := congrArg View.hosts (Balancer.run_add_view hrun)
        have hmode : ¬ s.current.view.mode = typeRoundRobin := hring
        rw [View.add, if_neg hmode, Balancer.view_hosts, Balancer.view_hosts, h.hosts_eq] at hview
        have hmem : host ∈ b'.hosts :=
          (hreports.mem_iff host).mpr (List.mem_append_right _ List.mem_cons_self)
        rw [hview] at hmem
        exact hfits hmem
  · intro hrecorded
    obtain ⟨b', hrun, hserves, -⟩ := h.call_returns call hsep hfits hrecorded
    have hafter : Recording names ⟨b', call.after s.hosts⟩ :=
      ⟨h.hosts_after hfits hrecorded hrun, HostCall.nodup_after h.nodup hfits, hserves⟩
    exact ⟨b', hrun, hafter.reports⟩

theorem balancesOver_roundRobin {rr : RoundRobin} (hwriter : rr.mu.writer = false) (url : String)
    (r : Option Utils.Request) : BalancesOver ⟨.roundRobin rr, rr.hosts⟩ url r := by
  rw [BalancesOver]
  dsimp only
  rw [Balancer.balance, Balancer.run_dispatch_roundRobin]
  split
  · next hnil =>
      rw [RoundRobin.run_balance_empty hwriter hnil]
      exact ⟨_, _, rfl⟩
  · next hne =>
      obtain ⟨host, hmem, hhost⟩ := RoundRobin.exists_host hne
      rw [RoundRobin.run_balance_host hwriter hhost]
      exact ⟨host, hmem, _, rfl⟩

/-- A ring without hosts fails before it looks at the request; with hosts it
panics when it cannot make a key of the request. -/
theorem balancesOver_ring {hosts : List String} {c : ConsistenceHash}
    (hring : RingOf checksumIEEE hosts c) (hwriter : c.mu.writer = false) (url : String)
    (r : Option Utils.Request) :
    BalancesOver ⟨.consistenceHash c, hosts⟩ url r ↔
      hosts = [] ∨ Keyed (.consistenceHash c) url r := by
  rw [BalancesOver]
  dsimp only
  rw [Balancer.balance, Balancer.run_dispatch_consistenceHash]
  split
  · next hnil =>
      subst hnil
      rw [hring.run_balance_empty hwriter]
      exact iff_of_true ⟨_, _, rfl⟩ (Or.inl rfl)
  · next hne =>
      have hkeys : c.keys ≠ [] := fun hnil => hne (hring.keys_eq_nil_iff.mp hnil)
      constructor
      · rintro ⟨host, -, b', hrun⟩
        cases hkey : ConsistenceHash.balanceKey url r with
        | ok key => exact Or.inr (Or.inr ⟨key, hkey⟩)
        | error e =>
            rw [ConsistenceHash.run_balance hwriter, if_neg hkeys, hkey] at hrun
            cases hrun
      · rintro (hnil | hmode | ⟨key, hkey⟩)
        · exact absurd hnil hne
        · exact absurd hmode typeConsistenceHash_ne
        · obtain ⟨host, hmem, hrun, -⟩ := hring.run_balance hwriter hne _ _ hkey
          rw [hrun]
          exact ⟨host, hmem, _, rfl⟩

theorem balancesOver_iff (h : Recording names s) (url : String) (r : Option Utils.Request) :
    BalancesOver s url r ↔ s.hosts = [] ∨ Keyed s.current url r := by
  obtain ⟨b, hosts⟩ := s
  have hserves : b.Serves names hosts := h.serves
  cases b with
  | roundRobin rr =>
      have hhosts : rr.hosts = hosts := h.hosts_eq
      subst hhosts
      have hwriter : rr.mu.writer = false := congrArg RWMutex.writer hserves
      exact iff_of_true (balancesOver_roundRobin hwriter url r) (Or.inr (Or.inl rfl))
  | consistenceHash c =>
      have hwriter : c.mu.writer = false := congrArg RWMutex.writer (Kept.free hserves)
      exact balancesOver_ring (Kept.ring hserves) hwriter url r

end Recording

/-- A new balancer reports the hosts it was given. -/
theorem recording_of_build {algo : String} {hosts : List String} {b : Balancer}
    {names : Set String} (hbuild : build algo hosts = .ok b) (hnodup : hosts.Nodup)
    (hknown : ∀ q ∈ hosts, q ∈ names)
    (hsep : algo = typeConsistenceHash → Separates checksumIEEE names) :
    Recording names ⟨b, hosts⟩ ∧ b.mode = algo := by
  obtain ⟨hview, hfree⟩ := build_ok hbuild
  refine ⟨⟨congrArg View.hosts hview, hnodup, ?_⟩, congrArg View.mode hview⟩
  rcases supported_of_build hbuild with rfl | rfl
  · rw [build, if_pos rfl] at hbuild
    cases hbuild
    exact hfree
  · rw [build, if_neg typeConsistenceHash_ne, if_pos rfl] at hbuild
    cases hbuild
    exact Kept.start (hsep rfl) hknown

/-- In every run of calls that add absent hosts to a `RoundRobin` and remove
present ones from either balancer, `Hosts` answers the hosts of the history and
`Balance` one of them; an addition to a `ConsistenceHash` ends that. -/
theorem hosts_are_reported {algo : String} {hosts : List String} {b : Balancer}
    {calls : List HostCall} {s : History Balancer} (hbuild : build algo hosts = .ok b)
    (hnodup : hosts.Nodup)
    (hsep : algo = typeConsistenceHash → Separates checksumIEEE (involved hosts calls))
    (hrun : Run RecordedStep ⟨b, hosts⟩ calls s) :
    Reports s ∧
      (∀ url r, BalancesOver s url r ↔ s.hosts = [] ∨ Keyed s.current url r) ∧
      ∀ call : HostCall, call.Fitting s.hosts →
        ((∃ b', EStateM.run call.onBalancer s.current = .ok () b' ∧
          Reports ⟨b', call.after s.hosts⟩) ↔ call.Recorded s.current) := by
  obtain ⟨hstart, hmode⟩ := recording_of_build hbuild hnodup
    (fun q hq => (Or.inl hq : q ∈ involved hosts calls)) hsep
  obtain ⟨hrecording, hmode'⟩ : Recording (involved hosts calls) s ∧ s.current.mode = algo := by
    refine Run.invariant
      (P := fun s => Recording (involved hosts calls) s ∧ s.current.mode = algo) ?_ hrun
      ⟨hstart, hmode⟩
    rintro t call t' ⟨h, halgo⟩ hstep
    obtain ⟨h', hmode'⟩ := h.step (fun hring => hsep (halgo.symm.trans hring)) hstep
    exact ⟨h', hmode'.trans halgo⟩
  exact ⟨hrecording.reports, hrecording.balancesOver_iff, fun call hfits =>
    hrecording.reports_after_iff (fun hring => hsep (hmode'.symm.trans hring)) hfits⟩

theorem hosts_are_reported_removed : ∃ b s,
    build typeConsistenceHash ["10.0.0.1:80", "10.0.0.2:80"] = .ok b ∧
    Run RecordedStep ⟨b, ["10.0.0.1:80", "10.0.0.2:80"]⟩ [.remove "10.0.0.1:80"] s ∧
    s.hosts = ["10.0.0.2:80"] ∧ Reports s ∧ BalancesOver s "/users" none := by
  obtain ⟨b, hbuild⟩ : ∃ b, build typeConsistenceHash ["10.0.0.1:80", "10.0.0.2:80"] = .ok b :=
    ⟨_, rfl⟩
  have hall : Separates checksumIEEE {q | q ∈ ["10.0.0.1:80", "10.0.0.2:80"]} :=
    separates_of_nodup (by decide +kernel)
  have hsep : Separates checksumIEEE
      (involved ["10.0.0.1:80", "10.0.0.2:80"] [.remove "10.0.0.1:80"]) := by
    refine hall.mono ?_
    rintro q (hq | ⟨call, hcall, rfl⟩)
    · exact hq
    · rw [List.mem_singleton.mp hcall]
      exact List.mem_cons_self
  have hnodup : ["10.0.0.1:80", "10.0.0.2:80"].Nodup := by decide
  have hstart := (recording_of_build hbuild hnodup
    (fun q hq => (Or.inl hq : q ∈ involved _ [.remove "10.0.0.1:80"])) fun _ => hsep).1
  obtain ⟨b', hreturns, -⟩ := hstart.call_returns (.remove "10.0.0.1:80")
    (fun _ => hsep) List.mem_cons_self trivial
  have hrun : Run RecordedStep ⟨b, ["10.0.0.1:80", "10.0.0.2:80"]⟩ [.remove "10.0.0.1:80"]
      ⟨b', ["10.0.0.2:80"]⟩ :=
    .single ⟨⟨⟨hreturns, rfl⟩, List.mem_cons_self⟩, trivial⟩
  obtain ⟨hreports, hbalances, -⟩ := hosts_are_reported hbuild hnodup (fun _ => hsep) hrun
  exact ⟨b, _, hbuild, hrun, rfl, hreports,
    (hbalances "/users" none).mpr (Or.inr (Or.inr ⟨_, rfl⟩))⟩

/-- `Hosts` of a `ConsistenceHash` leaves out a host that was added. -/
theorem added_host_unreported : ∃ b b',
    build typeConsistenceHash ["10.0.0.1:80"] = .ok b ∧
    Separates checksumIEEE (involved ["10.0.0.1:80"] [.add "10.0.0.2:80"]) ∧
    EStateM.run (HostCall.add "10.0.0.2:80").onBalancer b = .ok () b' ∧
    "10.0.0.2:80" ∉ b'.hosts :=
  ⟨_, _, rfl, separates_involved (by decide +kernel), rfl, by decide +kernel⟩

end Balancing
end VermouthGateway
