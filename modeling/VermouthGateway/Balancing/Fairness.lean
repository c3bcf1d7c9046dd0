import VermouthGateway.Balancing.Calls
import VermouthGateway.Foundation.Rotation

/-!
# Fairness of the round-robin balancer

The counter of a `RoundRobin` runs freely and is taken modulo the number of
hosts, which changes under it.

* `run_balances`: consecutive calls of `Balance` pick the hosts in turn, as in
  `Rotation`, from whatever the counter is.
* `round_robin_fair`: after any run of calls the list is the one the calls mean,
  without duplicates and without a host that was removed and not added again, and
  `Balance` answers one of its hosts; whole rounds answer all of them equally
  often.
-/

namespace VermouthGateway
namespace Balancing

open Go Runs Rotation

/-- The list of a `RoundRobin` after a call. -/
def BalancerCall.listed (hosts : List String) : BalancerCall → List String
  | .change (.add host) => RoundRobin.addedHosts hosts host
  | .change (.remove host) => hosts.erase host
  | .balance _ _ => hosts

namespace BalancerCall

variable {hosts : List String}

theorem nodup_listed (hnodup : hosts.Nodup) (call : BalancerCall) : (call.listed hosts).Nodup := by
  cases call with
  | balance url r => exact hnodup
  | change call =>
      cases call with
      | remove host => exact hnodup.erase host
      | add host =>
          rw [listed, RoundRobin.addedHosts]
          split
          · exact hnodup
          · next hnew =>
              exact hnodup.append (List.nodup_singleton host) (List.disjoint_singleton.mpr hnew)

/-- A host comes onto the list when it is added. -/
theorem notMem_listed {host : String} (hgone : host ∉ hosts) {call : BalancerCall}
    (hadd : call ≠ .change (.add host)) : host ∉ call.listed hosts := by
  cases call with
  | balance url r => exact hgone
  | change call =>
      cases call with
      | remove other => exact fun hmem => hgone (List.mem_of_mem_erase hmem)
      | add other =>
          rw [listed, RoundRobin.addedHosts]
          split
          · exact hgone
          · intro hmem
            rcases List.mem_append.mp hmem with hmem | hmem
            · exact hgone hmem
            · exact hadd (by rw [List.mem_singleton.mp hmem])

/-- Two hosts that stay keep their order. -/
theorem sublist_listed {a b : String} (hsub : [a, b].Sublist hosts) {call : BalancerCall}
    (ha : call ≠ .change (.remove a)) (hb : call ≠ .change (.remove b)) :
    [a, b].Sublist (call.listed hosts) := by
  cases call with
  | balance url r => exact hsub
  | change call =>
      cases call with
      | remove host =>
          have hkeep := hsub.erase host
          rw [List.erase_of_not_mem] at hkeep
          · exact hkeep
          · intro hmem
            rcases List.mem_cons.mp hmem with rfl | hmem
            · exact ha rfl
            · exact hb (by rw [List.mem_singleton.mp hmem])
      | add host =>
          rw [listed, RoundRobin.addedHosts]
          split
          · exact hsub
          · exact hsub.trans (List.sublist_append_left hosts [host])

end BalancerCall

namespace RoundRobin

/-- `n` calls of `Balance`, one after the other. -/
def balances : Nat → Eff RoundRobin (List (Except BalanceError String))
  | 0 => pure []
  | n + 1 => do
      let answer ← balance
      let answers ← balances n
      pure (answer :: answers)

/-- As long as the counter does not wrap, the calls pick the hosts in turn. -/
theorem run_balances {r : RoundRobin} (hfree : r.mu = .free) (hne : r.hosts ≠ []) {n : Nat}
    (hwrap : r.idx.toNat + n ≤ 2 ^ 64) :
    ∃ r', EStateM.run (balances n) r =
      .ok ((picks r.hosts r.idx.toNat n).map .ok) r' := by
  induction n generalizing r with
  | zero => exact ⟨r, rfl⟩
  | succ n ih =>
      obtain ⟨host, -, hhost⟩ := exists_host hne
      have hwriter : r.mu.writer = false := congrArg RWMutex.writer hfree
      have hpick : pick r.hosts r.idx.toNat = some host := hhost
      have hnext : picks r.hosts (r.idx + 1).toNat n = picks r.hosts (r.idx.toNat + 1) n := by
        cases n with
        | zero => rfl
        | succ n =>
            have hsmall : r.idx.toNat + 1 < 2 ^ 64 := by omega
            rw [UInt64.toNat_add, UInt64.toNat_one, Nat.mod_eq_of_lt hsmall]
      have hwrap' : (r.idx + 1).toNat + n ≤ 2 ^ 64 := by
        have hmod := Nat.mod_le (r.idx.toNat + 1) (2 ^ 64)
        rw [UInt64.toNat_add, UInt64.toNat_one]
        omega
      obtain ⟨r', hrest⟩ := ih (r := { r with idx := r.idx + 1 }) hfree hne hwrap'
      refine ⟨r', ?_⟩
      rw [balances, EStateM.run_bind, run_balance_host hwriter hhost]
      dsimp only
      rw [EStateM.run_bind, hrest]
      dsimp only
      rw [hnext, picks, hpick]
      rfl

end RoundRobin

/-- One call that returns. -/
def RoundRobinStep (r : RoundRobin) (call : BalancerCall) (r' : RoundRobin) : Prop :=
  EStateM.run call.onRoundRobin r = .ok () r'

/-- On a free lock every call returns and leaves the lock free. -/
theorem run_onRoundRobin {r : RoundRobin} (hfree : r.mu = .free) (call : BalancerCall) :
    ∃ r', RoundRobinStep r call r' ∧ r'.mu = .free ∧ r'.hosts = call.listed r.hosts := by
  cases call with
  | change call =>
      cases call with
      | add host => exact ⟨_, RoundRobin.run_add hfree host, hfree, rfl⟩
      | remove host => exact ⟨_, RoundRobin.run_remove hfree host, hfree, rfl⟩
  | balance url q =>
      have hwriter : r.mu.writer = false := congrArg RWMutex.writer hfree
      have hrun := RoundRobin.run_balance hwriter
      cases hhost : r.hosts[r.idx.toNat % r.hosts.length]? with
      | none =>
          rw [hhost] at hrun
          refine ⟨r, ?_, hfree, rfl⟩
          rw [RoundRobinStep, BalancerCall.onRoundRobin, EStateM.run_bind, hrun]
          rfl
      | some host =>
          rw [hhost] at hrun
          refine ⟨{ r with idx := r.idx + 1 }, ?_, hfree, rfl⟩
          rw [RoundRobinStep, BalancerCall.onRoundRobin, EStateM.run_bind, hrun]
          rfl

/-- What holds of a `RoundRobin` between calls. -/
structure InTurn (r : RoundRobin) : Prop where
  free : r.mu = .free
  nodup : r.hosts.Nodup

theorem InTurn.step {r r' : RoundRobin} {call : BalancerCall} (h : InTurn r)
    (hstep : RoundRobinStep r call r') : InTurn r' ∧ r'.hosts = call.listed r.hosts := by
  obtain ⟨r'', hrun, hfree, hhosts⟩ := run_onRoundRobin h.free call
  obtain rfl : r' = r'' := by
    have hboth := Eq.trans (Eq.symm hstep) hrun
    cases hboth
    rfl
  refine ⟨⟨hfree, ?_⟩, hhosts⟩
  rw [hhosts]
  exact call.nodup_listed h.nodup

theorem InTurn.run {r r' : RoundRobin} {calls : List BalancerCall} (h : InTurn r)
    (hrun : Run RoundRobinStep r calls r') : InTurn r' :=
  hrun.invariant (P := InTurn) (fun _ _ _ h hstep => (h.step hstep).1) h

/-- Two hosts that are not removed keep their order over a run. -/
theorem InTurn.sublist {r r' : RoundRobin} {calls : List BalancerCall} (h : InTurn r)
    (hrun : Run RoundRobinStep r calls r') {a b : String}
    (ha : .change (.remove a) ∉ calls) (hb : .change (.remove b) ∉ calls)
    (hsub : [a, b].Sublist r.hosts) : [a, b].Sublist r'.hosts := by
  induction hrun with
  | nil => exact hsub
  | @cons r r₁ r' call calls hstep _ ih =>
      obtain ⟨h₁, hhosts⟩ := h.step hstep
      rw [List.mem_cons, not_or] at ha hb
      refine ih h₁ ha.2 hb.2 ?_
      rw [hhosts]
      exact BalancerCall.sublist_listed hsub (Ne.symm ha.1) (Ne.symm hb.1)

/-- The list after a run is the one its calls mean. -/
theorem InTurn.listed {r r' : RoundRobin} {calls : List BalancerCall} (h : InTurn r)
    (hrun : Run RoundRobinStep r calls r') :
    r'.hosts = calls.foldl BalancerCall.listed r.hosts := by
  induction hrun with
  | nil => rfl
  | @cons r r₁ r' call calls hstep _ ih =>
      obtain ⟨h₁, hhosts⟩ := h.step hstep
      rw [ih h₁, List.foldl_cons, hhosts]

/-- A host that was removed stays off the list until it is added again. -/
theorem notMem_foldl_listed {hosts : List String} (hnodup : hosts.Nodup) {host : String}
    {before later : List BalancerCall} (hlater : .change (.add host) ∉ later) :
    host ∉ (before ++ .change (.remove host) :: later).foldl BalancerCall.listed hosts := by
  have hbefore : (before.foldl BalancerCall.listed hosts).Nodup := by
    induction before generalizing hosts with
    | nil => exact hnodup
    | cons call before ih => exact ih (call.nodup_listed hnodup)
  rw [List.foldl_append, List.foldl_cons]
  have hgone : host ∉ BalancerCall.listed (before.foldl BalancerCall.listed hosts)
      (.change (.remove host)) := hbefore.not_mem_erase
  generalize BalancerCall.listed _ _ = left at hgone
  induction later generalizing left with
  | nil => exact hgone
  | cons call later ih =>
      rw [List.mem_cons, not_or] at hlater
      exact ih hlater.2 _ (BalancerCall.notMem_listed hgone (Ne.symm hlater.1))

/-- No host twice; `Balance` fails when there is none and answers one otherwise;
whole rounds answer every host equally often. -/
structure Fair (r : RoundRobin) : Prop where
  nodup : r.hosts.Nodup
  empty_iff : (∃ r', EStateM.run RoundRobin.balance r = .ok (.error .noHost) r') ↔ r.hosts = []
  answers : r.hosts ≠ [] →
    ∃ host ∈ r.hosts, ∃ r', EStateM.run RoundRobin.balance r = .ok (.ok host) r'
  rounds : ∀ k, r.idx.toNat + k * r.hosts.length ≤ 2 ^ 64 →
    ∃ (hosts : List String) (r' : RoundRobin),
      EStateM.run (RoundRobin.balances (k * r.hosts.length)) r =
        .ok (hosts.map .ok) r' ∧ ∀ host ∈ r.hosts, hosts.count host = k

theorem InTurn.fair {r : RoundRobin} (h : InTurn r) : Fair r := by
  have hwriter : r.mu.writer = false := congrArg RWMutex.writer h.free
  have hanswers : r.hosts ≠ [] →
      ∃ host ∈ r.hosts, ∃ r', EStateM.run RoundRobin.balance r = .ok (.ok host) r' := by
    intro hne
    obtain ⟨host, hmem, hhost⟩ := RoundRobin.exists_host hne
    exact ⟨host, hmem, _, RoundRobin.run_balance_host hwriter hhost⟩
  refine ⟨h.nodup, ⟨?_, ?_⟩, hanswers, ?_⟩
  · rintro ⟨r', hrun⟩
    by_contra hne
    obtain ⟨host, -, r'', hrun'⟩ := hanswers hne
    rw [hrun] at hrun'
    cases hrun'
  · intro hnil
    exact ⟨r, RoundRobin.run_balance_empty hwriter hnil⟩
  · intro k hwrap
    by_cases hnil : r.hosts = []
    · refine ⟨[], r, ?_, fun host hhost => ?_⟩
      · rw [hnil, List.length_nil, Nat.mul_zero]
        rfl
      · rw [hnil] at hhost
        cases hhost
    · obtain ⟨r', hrun⟩ := RoundRobin.run_balances h.free hnil hwrap
      refine ⟨_, r', hrun, fun host hhost => ?_⟩
      rw [count_picks, List.count_eq_one_of_mem h.nodup hhost, Nat.mul_one]

/-- After any calls from a new `RoundRobin` it has the hosts that the calls mean, and
none that was removed and not added again; it is fair, every call returns and does to
the hosts what it means, and hosts that are not removed keep their order. -/
theorem round_robin_fair {hosts : List String} {calls : List BalancerCall} {r : RoundRobin}
    (hnodup : hosts.Nodup) (hrun : Run RoundRobinStep (newRoundRobin hosts) calls r) :
    r.hosts = calls.foldl BalancerCall.listed hosts ∧
      (∀ host before later, calls = before ++ .change (.remove host) :: later →
        .change (.add host) ∉ later → host ∉ r.hosts ∧
          ∀ r', EStateM.run RoundRobin.balance r ≠ .ok (.ok host) r') ∧
      Fair r ∧
      (∀ call, ∃ r', RoundRobinStep r call r' ∧ r'.hosts = call.listed r.hosts) ∧
      ∀ calls' r' a b, Run RoundRobinStep r calls' r' → .change (.remove a) ∉ calls' →
        .change (.remove b) ∉ calls' → [a, b].Sublist r.hosts → [a, b].Sublist r'.hosts := by
  have hstart : InTurn (newRoundRobin hosts) := ⟨rfl, hnodup⟩
  have hturn := hstart.run hrun
  have hhosts : r.hosts = calls.foldl BalancerCall.listed hosts := hstart.listed hrun
  refine ⟨hhosts, fun host before later hcalls hlater => ?_, hturn.fair, fun call => ?_,
    fun calls' r' a b hrun' ha hb hsub => ?_⟩
  · have hgone : host ∉ r.hosts := by
      rw [hhosts, hcalls]
      exact notMem_foldl_listed hnodup hlater
    exact ⟨hgone, fun r' hanswer => hgone (RoundRobin.mem_of_run_balance hanswer)⟩
  · obtain ⟨r', hstep, -, hlisted⟩ := run_onRoundRobin hturn.free call
    exact ⟨r', hstep, hlisted⟩
  · exact hturn.sublist hrun' ha hb hsub

/-- One of two hosts is removed and another one added, and the counter stands at 1. -/
theorem round_robin_fair_two_hosts : ∃ (hosts : List String) (r r' : RoundRobin),
    Run RoundRobinStep (newRoundRobin ["10.0.0.1:80", "10.0.0.2:80"])
      [.balance "" none, .change (.remove "10.0.0.1:80"), .change (.add "10.0.0.3:80")] r ∧
    r.hosts = ["10.0.0.2:80", "10.0.0.3:80"] ∧ "10.0.0.1:80" ∉ r.hosts ∧
    EStateM.run (RoundRobin.balances 4) r = .ok (hosts.map .ok) r' ∧
      hosts.count "10.0.0.3:80" = 2 := by
  have hrun : Run RoundRobinStep (newRoundRobin ["10.0.0.1:80", "10.0.0.2:80"])
      [.balance "" none, .change (.remove "10.0.0.1:80"), .change (.add "10.0.0.3:80")]
      ⟨.free, 1, ["10.0.0.2:80", "10.0.0.3:80"]⟩ :=
    .cons (show RoundRobinStep _ _ ⟨.free, 1, ["10.0.0.1:80", "10.0.0.2:80"]⟩ from rfl)
      (.cons (show RoundRobinStep _ _ ⟨.free, 1, ["10.0.0.2:80"]⟩ from rfl) (.single rfl))
  obtain ⟨hhosts, hgone, hfair, -⟩ := round_robin_fair (by decide) hrun
  obtain ⟨hosts, r', hanswers, hcount⟩ := hfair.rounds 2 (by decide)
  have hremoved := hgone "10.0.0.1:80" [.balance "" none] [.change (.add "10.0.0.3:80")] rfl
    (by simp)
  exact ⟨hosts, _, r', hrun, hhosts, hremoved.1, hanswers, hcount _ (by decide)⟩

end Balancing
end VermouthGateway
