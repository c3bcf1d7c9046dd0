import VermouthGateway.Balancing.Balancer
import VermouthGateway.Foundation.Runs
import Mathlib.Data.Set.Basic

/-!
# Calls on a balancer

The calls that change the hosts of a balancer, `HostCall`, and with them the
requests, `BalancerCall`.  A `History` follows the hosts that were given or added
and not removed since, each as often as it was added.
-/

namespace VermouthGateway
namespace Balancing

open Go Runs

/-- A change of the hosts. -/
inductive HostCall
  | add (host : String)
  | remove (host : String)
deriving DecidableEq

namespace HostCall

def host : HostCall → String
  | .add host => host
  | .remove host => host

/-- The hosts given or added and not removed since, after the call. -/
def after (hosts : List String) : HostCall → List String
  | .add host => hosts ++ [host]
  | .remove host => hosts.filter (· ≠ host)

def onRing : HostCall → Eff ConsistenceHash Unit
  | .add host => ConsistenceHash.add host
  | .remove host => ConsistenceHash.remove host

def onRoundRobin : HostCall → Eff RoundRobin Unit
  | .add host => RoundRobin.add host
  | .remove host => RoundRobin.remove host

def onBalancer : HostCall → Eff Balancer Unit
  | .add host => Balancer.add host
  | .remove host => Balancer.remove host

/-- An absent host is added, or a present one removed. -/
def Fitting (hosts : List String) : HostCall → Prop
  | .add host => host ∉ hosts
  | .remove host => host ∈ hosts

theorem mem_of_mem_after {call : HostCall} {hosts : List String} {q : String}
    (hq : q ∈ call.after hosts) : q ∈ hosts ∨ q = call.host := by
  cases call with
  | add host => exact (List.mem_append.mp hq).imp_right List.mem_singleton.mp
  | remove host => exact Or.inl (List.mem_of_mem_filter hq)

theorem nodup_after {call : HostCall} {hosts : List String} (hnodup : hosts.Nodup)
    (hfits : call.Fitting hosts) : (call.after hosts).Nodup := by
  cases call with
  | add host =>
      refine List.Nodup.append hnodup (List.nodup_singleton host) ?_
      exact List.disjoint_singleton.mpr hfits
  | remove host => exact hnodup.filter _

end HostCall

/-- A balancer with the hosts given or added and not removed since. -/
structure History (β : Type) where
  current : β
  hosts : List String

/-- One call that returns. -/
structure CallStep {β : Type} (on : HostCall → Eff β Unit) (s : History β) (call : HostCall)
    (s' : History β) : Prop where
  runs : EStateM.run (on call) s.current = .ok () s'.current
  hosts_eq : s'.hosts = call.after s.hosts

/-- The hosts a history is about. -/
def involved (hosts : List String) (calls : List HostCall) : Set String :=
  {q | q ∈ hosts ∨ ∃ call ∈ calls, q = call.host}

theorem mem_involved {hosts : List String} {calls : List HostCall} {call : HostCall}
    (hcall : call ∈ calls) : call.host ∈ involved hosts calls :=
  Or.inr ⟨call, hcall, rfl⟩

theorem involved_subset_append (hosts : List String) (calls calls' : List HostCall) :
    involved hosts calls ⊆ involved hosts (calls ++ calls') := by
  rintro q (hq | ⟨call, hcall, hq⟩)
  · exact Or.inl hq
  · exact Or.inr ⟨call, List.mem_append_left calls' hcall, hq⟩

/-- A call that returns, to add an absent host or to remove a present one. -/
def FittingStep {β : Type} (on : HostCall → Eff β Unit) (s : History β) (call : HostCall)
    (s' : History β) : Prop :=
  CallStep on s call s' ∧ call.Fitting s.hosts

theorem HostCall.Fitting.once {call : HostCall} {hosts : List String} (h : call.Fitting hosts)
    (hnodup : hosts.Nodup) : ∀ host, call = .remove host → hosts.count host = 1 := by
  rintro host rfl
  exact List.count_eq_one_of_mem hnodup h

/-! ## Calls and requests -/

/-- A change of the hosts or a request. -/
inductive BalancerCall
  | change (call : HostCall)
  | balance (url : String) (r : Option Utils.Request)

namespace BalancerCall

/-- The call, without what it answers. -/
def onRoundRobin : BalancerCall → Eff RoundRobin Unit
  | .change call => call.onRoundRobin
  | .balance _ _ => do
      let _ ← RoundRobin.balance
      pure ()

def onBalancer : BalancerCall → Eff Balancer Unit
  | .change call => call.onBalancer
  | .balance url r => do
      let _ ← Balancer.balance url r
      pure ()

end BalancerCall

end Balancing
end VermouthGateway
