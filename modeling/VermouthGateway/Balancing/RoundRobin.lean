import VermouthGateway.Go.Effect
import Mathlib.Data.List.Basic

/-!
# The round-robin balancer

`RoundRobin` answers its hosts in turn.  Its lock is taken and released by
every operation, so each of them returns when the lock is free.
-/

namespace VermouthGateway
namespace Balancing

open Go

/-- The error values of the balancers. -/
inductive BalanceError
  | noHost
  | cantFindAnyHost
  | algorithmNotSupported
deriving DecidableEq, Repr

def BalanceError.message : BalanceError → String
  | .noHost => "no host"
  | .cantFindAnyHost => "can't find any host"
  | .algorithmNotSupported => "algorithm not supported"

structure RoundRobin where
  mu : RWMutex
  idx : UInt64
  hosts : List String
deriving DecidableEq

instance : HasMutex RoundRobin where
  mutex r := r.mu
  setMutex mu r := { r with mu := mu }
  mutex_setMutex _ _ := rfl
  setMutex_setMutex _ _ _ := rfl
  setMutex_mutex _ := rfl

theorem locked_roundRobin (mu : RWMutex) (idx : UInt64) (hosts : List String) :
    locked (RoundRobin.mk mu idx hosts) = ⟨{ writer := true }, idx, hosts⟩ := rfl

/-- `TypeRoundRobin`. -/
def typeRoundRobin : String := "round-robin"

/-- `NewRoundRobin`. -/
def newRoundRobin (hosts : List String) : RoundRobin := ⟨.free, 0, hosts⟩

namespace RoundRobin

/-- `RoundRobin.Add`: a host that is there already is not added again. -/
def add (host : String) : Eff RoundRobin Unit := withLock do
  modify fun r =>
    if host ∈ r.hosts then r else { r with hosts := r.hosts ++ [host] }

/-- `RoundRobin.Remove`: the first occurrence goes. -/
def remove (host : String) : Eff RoundRobin Unit := withLock do
  modify fun r => { r with hosts := r.hosts.erase host }

/-- `RoundRobin.Balance`. -/
def balance : Eff RoundRobin (Except BalanceError String) := withRLock do
  let r ← get
  match r.hosts[r.idx.toNat % r.hosts.length]? with
  | none => pure (.error .noHost)
  | some host =>
      -- `idx` wraps as an unsigned 64-bit word
      set { r with idx := r.idx + 1 }
      pure (.ok host)

/-- The hosts after `Add`. -/
def addedHosts (hosts : List String) (host : String) : List String :=
  if host ∈ hosts then hosts else hosts ++ [host]

theorem run_add {r : RoundRobin} (hfree : r.mu = .free) (host : String) :
    EStateM.run (add host) r = .ok () { r with hosts := addedHosts r.hosts host } := by
  obtain ⟨mu, idx, hosts⟩ := r
  obtain rfl : mu = .free := hfree
  rw [add, run_withLock_modify rfl, addedHosts, locked_roundRobin]
  dsimp only
  by_cases hmem : host ∈ hosts
  · rw [if_pos hmem, if_pos hmem]
    rfl
  · rw [if_neg hmem, if_neg hmem]
    rfl

theorem run_remove {r : RoundRobin} (hfree : r.mu = .free) (host : String) :
    EStateM.run (remove host) r = .ok () { r with hosts := r.hosts.erase host } := by
  obtain ⟨mu, idx, hosts⟩ := r
  obtain rfl : mu = .free := hfree
  rw [remove, run_withLock_free rfl]
  rfl

/-- Unless a writer has the lock, `Balance` reads the host under the counter and
moves the counter on. -/
theorem run_balance {r : RoundRobin} (hwriter : r.mu.writer = false) :
    EStateM.run balance r =
      match r.hosts[r.idx.toNat % r.hosts.length]? with
      | none => .ok (.error .noHost) r
      | some host => .ok (.ok host) { r with idx := r.idx + 1 } := by
  obtain ⟨mu, idx, hosts⟩ := r
  rw [balance, run_withRLock hwriter, EStateM.run_bind, EStateM.run_get]
  simp only [HasMutex.setMutex]
  cases hosts[idx.toNat % hosts.length]? <;> rfl

theorem run_balance_empty {r : RoundRobin} (hwriter : r.mu.writer = false) (hnil : r.hosts = []) :
    EStateM.run balance r = .ok (.error .noHost) r := by
  rw [run_balance hwriter, hnil]
  rfl

theorem run_balance_host {r : RoundRobin} (hwriter : r.mu.writer = false) {host : String}
    (hhost : r.hosts[r.idx.toNat % r.hosts.length]? = some host) :
    EStateM.run balance r = .ok (.ok host) { r with idx := r.idx + 1 } := by
  rw [run_balance hwriter, hhost]

/-- There is a host under the counter, whatever it counts, if there is any. -/
theorem exists_host {r : RoundRobin} (hne : r.hosts ≠ []) :
    ∃ host ∈ r.hosts, r.hosts[r.idx.toNat % r.hosts.length]? = some host := by
  have hlt := Nat.mod_lt r.idx.toNat (List.length_pos_iff.mpr hne)
  exact ⟨_, List.getElem_mem hlt, List.getElem?_eq_getElem hlt⟩

theorem run_balance_held {r : RoundRobin} (hwriter : r.mu.writer = true) :
    EStateM.run balance r = .error .blocked r := by
  rw [balance, run_withRLock_held hwriter]

theorem mem_of_run_balance {r r' : RoundRobin} {host : String}
    (hrun : EStateM.run balance r = .ok (.ok host) r') : host ∈ r.hosts := by
  cases hwriter : r.mu.writer with
  | true =>
      rw [run_balance_held hwriter] at hrun
      cases hrun
  | false =>
      rw [run_balance hwriter] at hrun
      cases hhost : r.hosts[r.idx.toNat % r.hosts.length]? with
      | none =>
          rw [hhost] at hrun
          cases hrun
      | some answer =>
          rw [hhost] at hrun
          cases hrun
          exact List.mem_of_getElem? hhost

/-- However it ends, `Balance` touches nothing but the lock and the counter. -/
theorem memory_balance (r : RoundRobin) :
    ∃ mu idx, memory (EStateM.run balance r) = { r with mu := mu, idx := idx } := by
  cases hwriter : r.mu.writer with
  | true =>
      rw [run_balance_held hwriter]
      exact ⟨r.mu, r.idx, rfl⟩
  | false =>
      rw [run_balance hwriter]
      cases r.hosts[r.idx.toNat % r.hosts.length]? with
      | none => exact ⟨r.mu, r.idx, rfl⟩
      | some host => exact ⟨r.mu, r.idx + 1, rfl⟩

end RoundRobin
end Balancing
end VermouthGateway
