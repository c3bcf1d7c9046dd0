import VermouthGateway.Balancing.Calls
import VermouthGateway.Go.Locking

/-!
# The locks of the balancers

Every method takes the lock of its balancer and defers giving it back, except
that `Balance` of a `ConsistenceHash` defers a call that gives nothing back.

* `ended_add_iff`, `ended_remove_iff`, `ended_balance_iff`: when a call ends.
* `free_after_iff`: which calls leave a free lock free.
* `no_lock_left`: so the lock stays free over every run without a request to a
  `ConsistenceHash`, and such a request ends that.
-/

namespace VermouthGateway
namespace Balancing

open Go Runs

section Balanced

variable (host url : String) (r : Option Utils.Request)

/-- One round of the removal may be out of bounds, but it does not wait. -/
theorem balanced_removeReplica (i : Nat) (c : ConsistenceHash) :
    Balanced (ConsistenceHash.removeReplica host i) c := by
  refine .bind (.get c) fun c₁ c₂ hget _ => ?_
  cases hget
  exact .ite (fun _ => .set rfl) fun _ => .panic _ _

theorem balanced_removeRing {c : ConsistenceHash} (hfree : c.mu = .free) :
    Balanced (ConsistenceHash.remove host) c := by
  refine .withLock hfree (.bind (.get _) fun c₁ c₂ _ _ => ?_)
  refine .bind (.forM fun i _ c₃ _ => balanced_removeReplica host i c₃) fun _ c₃ _ _ => ?_
  exact .modify rfl

theorem balanced_addRing {c : ConsistenceHash} (hfree : c.mu = .free) :
    Balanced (ConsistenceHash.add host) c :=
  .withLock hfree (.modify (ConsistenceHash.addRing_mu host _))

theorem balanced_roundRobin {rr : RoundRobin} (hwriter : rr.mu.writer = false) :
    Balanced RoundRobin.balance rr := by
  refine .withRLock hwriter (.bind (.get _) fun rr₁ rr₂ hget _ => ?_)
  cases hget
  split
  · exact .pure _ _
  · exact .bind (.set rfl) fun _ rr₃ _ _ => .pure _ rr₃

end Balanced

section Ended

variable (b : Balancer) (host url : String) (r : Option Utils.Request)

theorem ended_add_iff : Ended (EStateM.run (Balancer.add host) b) ↔ b.mu = .free := by
  constructor
  · intro h
    by_contra hheld
    rw [Balancer.run_add_held hheld] at h
    exact h
  · intro hfree
    exact ((Balancer.completes_add_iff b host).mpr hfree).ended

theorem ended_remove_iff : Ended (EStateM.run (Balancer.remove host) b) ↔ b.mu = .free := by
  constructor
  · intro h
    by_contra hheld
    rw [Balancer.run_remove_held hheld] at h
    exact h
  · intro hfree
    cases b with
    | roundRobin rr =>
        rw [Balancer.remove, Balancer.run_dispatch_roundRobin, RoundRobin.run_remove hfree]
        trivial
    | consistenceHash c =>
        rw [Balancer.remove, Balancer.run_dispatch_consistenceHash, ended_embed]
        exact (balanced_removeRing host hfree).ended

theorem balanceKey_error {e : Halt} (h : ConsistenceHash.balanceKey url r = .error e) :
    e = .panic .sliceBounds := by
  cases r with
  | none => cases h
  | some r =>
      rw [ConsistenceHash.balanceKey] at h
      split at h
      · cases h
        rfl
      · cases h

theorem ended_balanceRing {c : ConsistenceHash} (hwriter : c.mu.writer = false) :
    Ended (EStateM.run (ConsistenceHash.balance url r) c) := by
  rw [ConsistenceHash.run_balance hwriter]
  split
  · trivial
  · cases hkey : ConsistenceHash.balanceKey url r with
    | ok key => trivial
    | error e =>
        rw [balanceKey_error url r hkey]
        trivial

/-- A write lock held by somebody else is all that can stop `Balance`. -/
theorem ended_balance_iff :
    Ended (EStateM.run (Balancer.balance url r) b) ↔ b.mu.writer = false := by
  cases b with
  | roundRobin rr =>
      rw [Balancer.balance, Balancer.run_dispatch_roundRobin, ended_embed]
      constructor
      · intro h
        by_contra hwriter
        rw [RoundRobin.balance, run_withRLock_held (Bool.not_eq_false _ ▸ hwriter)] at h
        exact h
      · intro hwriter
        exact (balanced_roundRobin hwriter).ended
  | consistenceHash c =>
      rw [Balancer.balance, Balancer.run_dispatch_consistenceHash, ended_embed]
      constructor
      · intro h
        by_contra hwriter
        rw [ConsistenceHash.run_balance_held (Bool.not_eq_false _ ▸ hwriter)] at h
        exact h
      · exact ended_balanceRing url r

end Ended

/-! ## Sequences of calls -/

/-- Anything but a request to a `ConsistenceHash`. -/
def BalancerCall.Releases (b : Balancer) : BalancerCall → Prop
  | .change _ => True
  | .balance _ _ => b.mode = typeRoundRobin

/-- Dropping the answer of a request changes neither how it ends nor what it
leaves. -/
theorem run_balance_call (url : String) (r : Option Utils.Request) (b : Balancer) :
    (Ended (EStateM.run (BalancerCall.balance url r).onBalancer b) ↔
      Ended (EStateM.run (Balancer.balance url r) b)) ∧
    memory (EStateM.run (BalancerCall.balance url r).onBalancer b) =
      memory (EStateM.run (Balancer.balance url r) b) := by
  rw [BalancerCall.onBalancer, EStateM.run_bind]
  cases EStateM.run (Balancer.balance url r) b with
  | ok answer b' => exact ⟨Iff.rfl, rfl⟩
  | error e b' => cases e <;> exact ⟨Iff.rfl, rfl⟩

/-- With the lock free every call ends. -/
theorem ended_call {b : Balancer} (hfree : b.mu = .free) (call : BalancerCall) :
    Ended (EStateM.run call.onBalancer b) := by
  cases call with
  | change call =>
      cases call with
      | add host => exact (ended_add_iff b host).mpr hfree
      | remove host => exact (ended_remove_iff b host).mpr hfree
  | balance url r =>
      rw [(run_balance_call url r b).1, ended_balance_iff]
      exact congrArg RWMutex.writer hfree

/-- A change of the hosts leaves a free lock free, also when it panics. -/
theorem free_after_change {b : Balancer} (hfree : b.mu = .free) (call : HostCall) :
    (memory (EStateM.run call.onBalancer b)).mu = .free := by
  cases b with
  | roundRobin rr =>
      cases call with
      | add host =>
          rw [HostCall.onBalancer, Balancer.add, Balancer.run_dispatch_roundRobin,
            RoundRobin.run_add hfree]
          exact hfree
      | remove host =>
          rw [HostCall.onBalancer, Balancer.remove, Balancer.run_dispatch_roundRobin,
            RoundRobin.run_remove hfree]
          exact hfree
  | consistenceHash c =>
      cases call with
      | add host =>
          rw [HostCall.onBalancer, Balancer.add, Balancer.run_dispatch_consistenceHash,
            memory_embed]
          exact (balanced_addRing host hfree).mutex.trans hfree
      | remove host =>
          rw [HostCall.onBalancer, Balancer.remove, Balancer.run_dispatch_consistenceHash,
            memory_embed]
          exact (balanced_removeRing host hfree).mutex.trans hfree

/-- The calls that leave a free lock free. -/
theorem free_after_iff {b : Balancer} (hfree : b.mu = .free) (call : BalancerCall) :
    (memory (EStateM.run call.onBalancer b)).mu = .free ↔ call.Releases b := by
  cases call with
  | change call => exact iff_of_true (free_after_change hfree call) trivial
  | balance url r =>
      rw [(run_balance_call url r b).2]
      cases b with
      | roundRobin rr =>
          refine iff_of_true ?_ rfl
          rw [Balancer.balance, Balancer.run_dispatch_roundRobin, memory_embed]
          exact (balanced_roundRobin (congrArg RWMutex.writer hfree)).mutex.trans hfree
      | consistenceHash c =>
          refine iff_of_false ?_ (by decide : typeConsistenceHash ≠ typeRoundRobin)
          have hreader : memory (EStateM.run (ConsistenceHash.balance url r) c) =
              c.withReader := by
            rw [ConsistenceHash.run_balance (congrArg RWMutex.writer hfree)]
            split
            · rfl
            · cases ConsistenceHash.balanceKey url r <;> rfl
          rw [Balancer.balance, Balancer.run_dispatch_consistenceHash, memory_embed, hreader]
          intro hmu
          exact absurd (congrArg RWMutex.readers hmu) (Nat.succ_ne_zero _)

/-- One call after the other; a panic is recovered by the caller. -/
def ReleasingStep (b : Balancer) (call : BalancerCall) (b' : Balancer) : Prop :=
  Ended (EStateM.run call.onBalancer b) ∧ b' = memory (EStateM.run call.onBalancer b) ∧
    call.Releases b

/-- In every run without a request to a `ConsistenceHash` the lock is free
between calls and `Add` and `Remove` get it; the next call leaves it free exactly
when it is no such request either. -/
theorem no_lock_left {algo : String} {hosts : List String} {b b' : Balancer}
    {calls : List BalancerCall} (hbuild : build algo hosts = .ok b)
    (hrun : Run ReleasingStep b calls b') :
    b'.mu = .free ∧
      (∀ host, Completes (EStateM.run (Balancer.add host) b')) ∧
      (∀ host, Ended (EStateM.run (Balancer.remove host) b')) ∧
      ∀ call : BalancerCall, Ended (EStateM.run call.onBalancer b') ∧
        ((memory (EStateM.run call.onBalancer b')).mu = .free ↔ call.Releases b') := by
  have hfree : b'.mu = .free := by
    refine Run.invariant (P := fun b => b.mu = .free) ?_ hrun (build_ok hbuild).2
    rintro b call b' hfree ⟨-, rfl, hreleases⟩
    exact (free_after_iff hfree call).mpr hreleases
  exact ⟨hfree, fun host => (Balancer.completes_add_iff b' host).mpr hfree,
    fun host => (ended_remove_iff b' host).mpr hfree,
    fun call => ⟨ended_call hfree call, free_after_iff hfree call⟩⟩

theorem no_lock_left_served : ∃ b b', build typeRoundRobin ["10.0.0.1:80"] = .ok b ∧
    Run ReleasingStep b [.balance "" none, .change (.add "10.0.0.2:80")] b' ∧ b'.mu = .free := by
  obtain ⟨b, hbuild⟩ : ∃ b, build typeRoundRobin ["10.0.0.1:80"] = .ok b := ⟨_, rfl⟩
  obtain ⟨b', hrun⟩ : ∃ b',
      Run ReleasingStep b [.balance "" none, .change (.add "10.0.0.2:80")] b' := by
    cases hbuild
    exact ⟨_, .cons ⟨trivial, rfl, rfl⟩ (.single ⟨trivial, rfl, trivial⟩)⟩
  exact ⟨b, b', hbuild, hrun, (no_lock_left hbuild hrun).1⟩

/-- One request to a `ConsistenceHash` leaves a reader, and the next host waits
for it for ever. -/
theorem request_blocks_add : ∃ b b', build typeConsistenceHash [] = .ok b ∧
    EStateM.run (BalancerCall.balance "/users" none).onBalancer b = .ok () b' ∧
    b'.mu = { readers := 1 } ∧
    EStateM.run (Balancer.add "10.0.0.1:80") b' = .error .blocked b' :=
  ⟨_, _, rfl, rfl, rfl, rfl⟩

end Balancing
end VermouthGateway
