import VermouthGateway.Balancing.ConsistenceHash
import VermouthGateway.Go.Faults

/-!
# Balancers

The interface `Balancer` over its two implementations, and `Build`, which picks
one by the name of its algorithm.

Seen from the proxy a balancer is a `View`: its mode and the list it reports.
Every operation that returns acts on the view, whatever ring, counter and lock
are behind it:

* `run_add_view` and `run_remove_view` for the operations of the tables;
* `memory_balance_view`: answering requests never changes the view.
-/

namespace VermouthGateway
namespace Balancing

open Go

inductive Balancer
  | roundRobin (r : RoundRobin)
  | consistenceHash (c : ConsistenceHash)

namespace Balancer

variable {α : Type}

/-- Call a method through the interface. -/
def dispatch (onRoundRobin : Eff RoundRobin α) (onConsistenceHash : Eff ConsistenceHash α) :
    Eff Balancer α
  | .roundRobin r => embed .roundRobin (onRoundRobin r)
  | .consistenceHash c => embed .consistenceHash (onConsistenceHash c)

def add (host : String) : Eff Balancer Unit :=
  dispatch (RoundRobin.add host) (ConsistenceHash.add host)

def remove (host : String) : Eff Balancer Unit :=
  dispatch (RoundRobin.remove host) (ConsistenceHash.remove host)

def balance (url : String) (r : Option Utils.Request) :
    Eff Balancer (Except BalanceError String) :=
  dispatch RoundRobin.balance (ConsistenceHash.balance url r)

def mode : Balancer → String
  | .roundRobin _ => typeRoundRobin
  | .consistenceHash _ => typeConsistenceHash

def hosts : Balancer → List String
  | .roundRobin r => r.hosts
  | .consistenceHash c => c.list

/-- The lock of the implementation. -/
def mu : Balancer → RWMutex
  | .roundRobin r => r.mu
  | .consistenceHash c => c.mu

end Balancer

/-- `Build`. -/
def build (algo : String) (hosts : List String) : Except BalanceError Balancer :=
  if algo = typeRoundRobin then .ok (.roundRobin (newRoundRobin hosts))
  else if algo = typeConsistenceHash then .ok (.consistenceHash (newConsistenceHash hosts))
  else .error .algorithmNotSupported

/-- The algorithms with a factory. -/
def Supported (algo : String) : Prop := algo = typeRoundRobin ∨ algo = typeConsistenceHash

instance : DecidablePred Supported := fun _ => inferInstanceAs (Decidable (_ ∨ _))

/-! ## The view of the proxy -/

/-- What the tables of a proxy hold of a balancer. -/
structure View where
  mode : String
  hosts : List String
deriving DecidableEq

namespace View

/-- Adding a host: the ring does not report hosts added later. -/
def add (v : View) (host : String) : View :=
  if v.mode = typeRoundRobin then { v with hosts := RoundRobin.addedHosts v.hosts host } else v

def remove (v : View) (host : String) : View := { v with hosts := v.hosts.erase host }

@[simp] theorem add_mode (v : View) (host : String) : (v.add host).mode = v.mode := by
  rw [add]
  split <;> rfl

@[simp] theorem remove_mode (v : View) (host : String) : (v.remove host).mode = v.mode := rfl

end View

namespace Balancer

def view (b : Balancer) : View := ⟨b.mode, b.hosts⟩

@[simp] theorem view_mode (b : Balancer) : b.view.mode = b.mode := rfl

@[simp] theorem view_hosts (b : Balancer) : b.view.hosts = b.hosts := rfl

/-- The removal of a host stays in bounds and gets the lock. -/
def Removable (b : Balancer) (host : String) : Prop :=
  match b with
  | .roundRobin r => r.mu = .free
  | .consistenceHash c =>
      c.mu = .free ∧ ConsistenceHash.Removable (c.virtualHashes host) c.keys

theorem run_dispatch_roundRobin (rr : Eff RoundRobin α) (ch : Eff ConsistenceHash α)
    (r : RoundRobin) :
    EStateM.run (dispatch rr ch) (.roundRobin r) =
      embed .roundRobin (EStateM.run rr r) := rfl

theorem run_dispatch_consistenceHash (rr : Eff RoundRobin α) (ch : Eff ConsistenceHash α)
    (c : ConsistenceHash) :
    EStateM.run (dispatch rr ch) (.consistenceHash c) =
      embed .consistenceHash (EStateM.run ch c) := rfl

/-- Adding a host needs the lock and nothing else. -/
theorem run_add {b : Balancer} (hfree : b.mu = .free) (host : String) :
    ∃ b', EStateM.run (add host) b = .ok () b' ∧ b'.view = b.view.add host := by
  cases b with
  | roundRobin r =>
      rw [add, run_dispatch_roundRobin, RoundRobin.run_add hfree]
      exact ⟨_, rfl, rfl⟩
  | consistenceHash c =>
      rw [add, run_dispatch_consistenceHash, ConsistenceHash.run_add hfree]
      refine ⟨_, rfl, ?_⟩
      have hlist : (ConsistenceHash.addRing host (locked c)).list = c.list :=
        ConsistenceHash.addRing_list host (locked c)
      show View.mk typeConsistenceHash (ConsistenceHash.addRing host (locked c)).list = _
      rw [hlist]
      rfl

/-- Both kinds of balancer wait for a lock that is held. -/
theorem run_dispatch_held {b : Balancer} (hheld : b.mu ≠ .free) (onRoundRobin : Eff RoundRobin α)
    (onConsistenceHash : Eff ConsistenceHash α) :
    EStateM.run (dispatch (withLock onRoundRobin) (withLock onConsistenceHash)) b =
      .error .blocked b := by
  cases b with
  | roundRobin r =>
      rw [run_dispatch_roundRobin, run_withLock_held hheld]
      rfl
  | consistenceHash c =>
      rw [run_dispatch_consistenceHash, run_withLock_held hheld]
      rfl

theorem run_add_held {b : Balancer} (hheld : b.mu ≠ .free) (host : String) :
    EStateM.run (add host) b = .error .blocked b :=
  run_dispatch_held hheld _ _

theorem run_remove_held {b : Balancer} (hheld : b.mu ≠ .free) (host : String) :
    EStateM.run (remove host) b = .error .blocked b :=
  run_dispatch_held hheld _ _

theorem completes_add_iff (b : Balancer) (host : String) :
    Completes (EStateM.run (add host) b) ↔ b.mu = .free := by
  constructor
  · intro h
    by_contra hheld
    rw [run_add_held hheld] at h
    exact h
  · intro hfree
    obtain ⟨b', hrun, -⟩ := run_add hfree host
    rw [hrun]
    trivial

theorem run_add_view {b b' : Balancer} {host : String}
    (h : EStateM.run (add host) b = .ok () b') : b'.view = b.view.add host := by
  have hfree : b.mu = .free := (completes_add_iff b host).mp (by rw [h]; trivial)
  obtain ⟨b'', hrun, hview⟩ := run_add hfree host
  rw [h] at hrun
  cases hrun
  exact hview

theorem completes_remove_iff (b : Balancer) (host : String) :
    Completes (EStateM.run (remove host) b) ↔ b.Removable host := by
  cases b with
  | roundRobin r =>
      rw [remove, run_dispatch_roundRobin]
      by_cases hfree : r.mu = .free
      · rw [RoundRobin.run_remove hfree]
        exact ⟨fun _ => hfree, fun _ => trivial⟩
      · rw [RoundRobin.remove, run_withLock_held hfree]
        exact ⟨fun h => absurd h (not_completes_error _ _), fun h => absurd h hfree⟩
  | consistenceHash c =>
      rw [remove, run_dispatch_consistenceHash]
      exact (completes_embed _ _).trans (ConsistenceHash.completes_remove_iff host)

theorem run_remove_view {b b' : Balancer} {host : String}
    (h : EStateM.run (remove host) b = .ok () b') : b'.view = b.view.remove host := by
  cases b with
  | roundRobin r =>
      have hfree : r.mu = .free :=
        (completes_remove_iff (.roundRobin r) host).mp (by rw [h]; trivial)
      rw [remove, run_dispatch_roundRobin, RoundRobin.run_remove hfree] at h
      cases h
      rfl
  | consistenceHash c =>
      rw [remove, run_dispatch_consistenceHash] at h
      obtain ⟨c', hrun, rfl⟩ := embed_eq_ok h
      obtain ⟨keys, hosts, rfl⟩ := ConsistenceHash.run_remove_ok hrun
      rfl

theorem run_add_mode {b b' : Balancer} {host : String}
    (h : EStateM.run (add host) b = .ok () b') : b'.mode = b.mode := by
  have hview := congrArg View.mode (run_add_view h)
  rwa [View.add_mode] at hview

theorem run_remove_mode {b b' : Balancer} {host : String}
    (h : EStateM.run (remove host) b = .ok () b') : b'.mode = b.mode := by
  have hview := congrArg View.mode (run_remove_view h)
  rwa [View.remove_mode] at hview

theorem never_dispatch {fault : Fault} {onRoundRobin : Eff RoundRobin α}
    {onConsistenceHash : Eff ConsistenceHash α} (hrr : Never fault onRoundRobin)
    (hch : Never fault onConsistenceHash) :
    Never fault (dispatch onRoundRobin onConsistenceHash) := by
  intro b
  cases b with
  | roundRobin r =>
      rw [run_dispatch_roundRobin, raises_embed_iff]
      exact hrr r
  | consistenceHash c =>
      rw [run_dispatch_consistenceHash, raises_embed_iff]
      exact hch c

/-- Neither change of the hosts dereferences nil. -/
theorem never_add (host : String) : Never .nilDereference (add host) :=
  never_dispatch (Never.withLock (Never.modify _)) (Never.withLock (Never.modify _))

theorem never_remove (host : String) : Never .nilDereference (remove host) := by
  refine never_dispatch (Never.withLock (Never.modify _))
    (Never.withLock (Never.get.bind fun c => ?_))
  refine (Never.forM fun i => Never.get.bind fun c' => ?_).bind fun _ => Never.modify _
  dsimp only
  split
  · exact Never.set _
  · exact Never.panic (by decide)

/-- Answering a request, however that ends, changes nothing the proxy sees. -/
theorem memory_balance_view (url : String) (r : Option Utils.Request) (b : Balancer) :
    (memory (EStateM.run (balance url r) b)).view = b.view := by
  cases b with
  | roundRobin rr =>
      obtain ⟨mu, idx, hmem⟩ := RoundRobin.memory_balance rr
      rw [balance, run_dispatch_roundRobin, memory_embed, hmem]
      rfl
  | consistenceHash c =>
      obtain ⟨mu, hmem⟩ := ConsistenceHash.memory_balance url r c
      rw [balance, run_dispatch_consistenceHash, memory_embed, hmem]
      rfl

/-- The hosts a balancer can answer with: the ring has one under every key. -/
def targets : Balancer → List String
  | .roundRobin r => r.hosts
  | .consistenceHash c => c.keys.map fun key => c.hosts.get key ""

theorem mem_targets_of_run_balance {b b' : Balancer} {url : String} {r : Option Utils.Request}
    {host : String} (hrun : EStateM.run (balance url r) b = .ok (.ok host) b') :
    host ∈ b.targets := by
  cases b with
  | roundRobin rr =>
      rw [balance, run_dispatch_roundRobin] at hrun
      obtain ⟨rr', hrun, -⟩ := embed_eq_ok hrun
      exact RoundRobin.mem_of_run_balance hrun
  | consistenceHash c =>
      rw [balance, run_dispatch_consistenceHash] at hrun
      obtain ⟨c', hrun, -⟩ := embed_eq_ok hrun
      obtain ⟨key, hkey, rfl⟩ := ConsistenceHash.mem_of_run_balance hrun
      exact List.mem_map.mpr ⟨key, hkey, rfl⟩

/-- A host of the balancer: one of its list, or one that the ring has under a key. -/
def HasHost : Balancer → String → Prop
  | .roundRobin r, host => host ∈ r.hosts
  | .consistenceHash c, host => ∃ key, c.hosts.lookup key = some host

/-- The key on which the client of a request falls has its host; the hosts of a
round-robin balancer stand for themselves. -/
def HostsClient (r : Utils.Request) : Balancer → Prop
  | .roundRobin _ => True
  | .consistenceHash c =>
      ∀ text, ConsistenceHash.balanceKey "" (some r) = .ok text → c.keyFor text ∈ c.hosts

/-- Every key of the ring has its host. -/
def Hosted : Balancer → Prop
  | .roundRobin _ => True
  | .consistenceHash c => ∀ key ∈ c.keys, key ∈ c.hosts

/-- A request is answered with a host of the balancer, or with the empty text when the
key of its client has lost its host. -/
theorem answer_cases {b b' : Balancer} {r : Utils.Request} {host : String}
    (hrun : EStateM.run (balance "" (some r)) b = .ok (.ok host) b') :
    (b.HostsClient r ∧ b.HasHost host) ∨
      (¬ b.HostsClient r ∧ ¬ b.Hosted ∧ host = "") := by
  cases b with
  | roundRobin rr => exact Or.inl ⟨trivial, mem_targets_of_run_balance hrun⟩
  | consistenceHash c =>
      rw [balance, run_dispatch_consistenceHash] at hrun
      obtain ⟨c', hrun, -⟩ := embed_eq_ok hrun
      obtain ⟨text, htext, hkeys, rfl⟩ := ConsistenceHash.run_balance_ok hrun
      cases hlookup : c.hosts.lookup (c.keyFor text) with
      | some host =>
          refine Or.inl ⟨fun text' htext' => ?_, c.keyFor text, ?_⟩
          · cases htext.symm.trans htext'
            exact Finmap.mem_of_lookup_eq_some hlookup
          · rw [hlookup, GoMap.get, hlookup, Option.getD_some]
      | none =>
          have hlost : c.keyFor text ∉ c.hosts := Finmap.lookup_eq_none.mp hlookup
          refine Or.inr ⟨fun hclient => hlost (hclient text htext),
            fun hall => hlost (hall _ (ConsistenceHash.keyFor_mem hkeys text)), ?_⟩
          rw [GoMap.get, hlookup, Option.getD_none]

end Balancer

theorem build_error_iff (algo : String) (hosts : List String) :
    (∃ e, build algo hosts = .error e) ↔ ¬ Supported algo := by
  have hne : typeConsistenceHash ≠ typeRoundRobin := by decide
  rw [build, Supported]
  by_cases hrr : algo = typeRoundRobin
  · simp [hrr]
  · by_cases hch : algo = typeConsistenceHash
    · simp [hch, hne]
    · simp [hrr, hch]

/-- A new balancer reports its mode and the hosts it was given. -/
theorem build_ok {algo : String} {hosts : List String} {b : Balancer}
    (h : build algo hosts = .ok b) : b.view = ⟨algo, hosts⟩ ∧ b.mu = .free := by
  rw [build] at h
  split at h
  · next halgo =>
      cases h
      subst halgo
      exact ⟨rfl, rfl⟩
  · split at h
    · next halgo =>
        cases h
        subst halgo
        refine ⟨?_, ConsistenceHash.newConsistenceHash_mu hosts⟩
        show View.mk _ (newConsistenceHash hosts).list = _
        rw [ConsistenceHash.newConsistenceHash_list]
        rfl
    · cases h

theorem supported_of_build {algo : String} {hosts : List String} {b : Balancer}
    (h : build algo hosts = .ok b) : Supported algo := by
  by_contra hunsupported
  obtain ⟨e, herror⟩ := (build_error_iff algo hosts).mpr hunsupported
  rw [h] at herror
  cases herror

end Balancing
end VermouthGateway
