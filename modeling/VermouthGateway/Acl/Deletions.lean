import VermouthGateway.Acl.Notation
import VermouthGateway.Acl.Undo
import VermouthGateway.Foundation.Runs

/-!
# Deletions by text

`Delete(s)` on a tree that a run of `Add` and `Delete` has made, for any text
`s`.  `delete` prunes every leaf it is pointed at, the root included, and the
root has no parent to be unlinked from.

* `Represents.run_delete_childless`: deleting the network of all addresses on a
  tree with no other node dereferences the nil parent of the root.
* `delete_exact_iff`: the texts on which `Delete` is exact, after every run whose
  insertions are clean.
-/

namespace VermouthGateway
namespace Acl

open Go LongestMatch Runs
open RadixTree

/-! ## The root -/

/-- The root is found, has no children, and has no parent. -/
theorem Represents.run_delete_childless {t : RadixTree} {table : Table Bool String}
    (h : Represents t table) (key : BitVec 32) (hroot : ¬ RootHasChild t) :
    EStateM.run (delete key (netMask 0)) t = .error (.panic .nilDereference) t := by
  obtain ⟨loc, spare, hshape, -, -⟩ := h
  obtain ⟨root, hsome⟩ := Option.isSome_iff_exists.mp hshape.root_some
  have hnode : loc [] = some root := hshape.root.trans hsome
  have hwalk := hshape.walk_eq_loc key (Nat.zero_le 32)
  have hempty : networkBits key 0 = [] := List.take_zero
  rw [hempty, hnode] at hwalk
  have hkids : ¬ (t.child root true ≠ none ∨ t.child root false ≠ none) := fun hkids =>
    hroot ⟨root, hsome, hkids⟩
  have hfuel : 33 + 2 * t.next = 32 + 2 * t.next + 1 := Nat.succ_add 32 _
  rw [run_delete_eq, hwalk]
  dsimp only
  rw [if_neg hkids, hfuel, Shape.run_prune_succ, hshape.rootParent hnode]

/-! ## One deletion -/

/-- What is asked of `Delete(s)`: it returns; it accepts the well-formed texts of
live networks; when it refuses, the record and every lookup are as before. -/
def DeletesExactly (t : RadixTree) (s : String) : Prop :=
  ∃ answer t', EStateM.run (deleteText s) t = .ok answer t' ∧
    (answer = none ↔ ∃ c : Cidr, c.text = s ∧ Live t c.address c.length) ∧
    (answer ≠ none → t'.record = t.record ∧ ∀ key, t'.search key = t.search key)

/-- No fifth integer is read, the root is not pruned, and a live network is
written properly. -/
structure Deletable (t : RadixTree) (s : String) : Prop where
  readable : ¬ FiveIntegers s
  rooted : ∀ ip, network s = .ok (some (ip, 0)) → RootHasChild t
  written : ∀ ip n, network s = .ok (some (ip, n)) → Live t ip n → Proper s

section Deletes

variable {t : RadixTree} {table : Table Bool String} {s : String} {ip : BitVec 32} {n : Nat}

/-- A text that is read as a live network is accepted, be it well formed or not. -/
theorem Represents.deletes_live_iff (h : Represents t table)
    (hnet : network s = .ok (some (ip, n))) (hroot : n = 0 → RootHasChild t)
    (hlive : Live t ip n) : DeletesExactly t s ↔ Proper s := by
  obtain ⟨-, mask, cidr, -, -, hrange, hcidr⟩ := network_some hnet
  have hn : n ≤ 32 := by omega
  obtain ⟨t', hdelete, -, -⟩ := h.run_delete_of ip hn hroot
  have hstored : (table (networkBits ip n)).isSome = true := (h.live_iff ip hn).mp hlive
  have hrun := run_deleteText_network (t := t) hnet
  rw [hdelete, hstored] at hrun
  rw [proper_iff_of_network hnet]
  constructor
  · rintro ⟨answer, t₁, hrun', haccepted, -⟩
    cases hrun.symm.trans hrun'
    obtain ⟨c, hc, -⟩ := haccepted.mp rfl
    exact ⟨c, hc⟩
  · rintro ⟨c, rfl⟩
    refine ⟨none, _, hrun, iff_of_true rfl ⟨c, rfl, ?_⟩, fun hne => absurd rfl hne⟩
    cases c.network_eq.symm.trans hnet
    exact hlive

/-- A network that is not live is refused, and the tree is the same but for the free
list. -/
theorem Represents.deletes_dead (h : Represents t table)
    (hnet : network s = .ok (some (ip, n))) (hroot : n = 0 → RootHasChild t)
    (hdead : ¬ Live t ip n) : DeletesExactly t s := by
  obtain ⟨-, mask, cidr, -, -, hrange, hcidr⟩ := network_some hnet
  have hn : n ≤ 32 := by omega
  obtain ⟨t', hdelete, hrep, hrecord⟩ := h.run_delete_of ip hn hroot
  have hstored : table (networkBits ip n) = none := by
    by_contra hsome
    exact hdead ((h.live_iff ip hn).mpr (Option.isSome_iff_ne_none.mpr hsome))
  have hrun := run_deleteText_network (t := t) hnet
  rw [hdelete, hstored] at hrun
  rw [← hstored, Function.update_eq_self] at hrep
  refine ⟨_, t', hrun, iff_of_false (by simp) ?_, fun _ => ⟨hrecord, fun key => ?_⟩⟩
  · rintro ⟨c, rfl, hc⟩
    cases c.network_eq.symm.trans hnet
    exact hdead hc
  · rw [hrep.search_eq, h.search_eq]

theorem Represents.deletes_iff (h : Represents t table) (s : String) :
    DeletesExactly t s ↔ Deletable t s := by
  cases hnet : network s with
  | error e =>
      have hfault : EStateM.run (deleteText s) t = .error e t := run_deleteText_fault hnet
      refine iff_of_false ?_ fun hdel => ?_
      · rintro ⟨answer, t', hrun, -⟩
        cases hfault.symm.trans hrun
      · obtain ⟨net, hread⟩ := (readable_iff s).mpr hdel.readable
        cases hnet.symm.trans hread
  | ok net =>
      have hreadable : ¬ FiveIntegers s := (readable_iff s).mp ⟨net, hnet⟩
      cases net with
      | none =>
          obtain ⟨e, hrun⟩ := run_deleteText_refused (t := t) hnet
          refine iff_of_true ⟨some e, t, hrun, ?_, fun _ => ⟨rfl, fun _ => rfl⟩⟩
            ⟨hreadable, ?_, ?_⟩
          · refine iff_of_false (by simp) ?_
            rintro ⟨c, rfl, -⟩
            cases c.network_eq.symm.trans hnet
          · intro ip hread
            cases hnet.symm.trans hread
          · intro ip n hread
            cases hnet.symm.trans hread
      | some net =>
          obtain ⟨ip, n⟩ := net
          by_cases hroot : n = 0 → RootHasChild t
          swap
          · -- the root is pruned
            obtain ⟨rfl, hchildless⟩ := Classical.not_imp.mp hroot
            have hrun := run_deleteText_network (t := t) hnet
            rw [h.run_delete_childless ip hchildless] at hrun
            refine iff_of_false ?_ fun hdel => hchildless (hdel.rooted ip hnet)
            rintro ⟨answer, t', hrun', -⟩
            cases hrun.symm.trans hrun'
          have hrooted : ∀ ip', network s = .ok (some (ip', 0)) → RootHasChild t := by
            intro ip' hread
            cases hnet.symm.trans hread
            exact hroot rfl
          by_cases hlive : Live t ip n
          · rw [h.deletes_live_iff hnet hroot hlive]
            exact ⟨fun hproper => ⟨hreadable, hrooted, fun _ _ _ _ => hproper⟩,
              fun hdel => hdel.written ip n hnet hlive⟩
          · refine iff_of_true (h.deletes_dead hnet hroot hlive) ⟨hreadable, hrooted, ?_⟩
            intro ip' n' hread hl
            cases hnet.symm.trans hread
            exact absurd hl hlive

end Deletes

/-! ## Runs -/

/-- A call with a well-formed text. -/
inductive CidrCall
  | add (c : Cidr)
  | delete (c : Cidr)

def CidrCall.run : CidrCall → Eff RadixTree (Option AclError)
  | .add c => RadixTree.add c.text c.text
  | .delete c => deleteText c.text

/-- A call that returned. -/
def CidrCalled (t : RadixTree) (call : CidrCall) (t' : RadixTree) : Prop :=
  ∃ answer, EStateM.run call.run t = .ok answer t'

/-- An insertion keeps no link of a recycled node. -/
def CidrCall.Clean (t : RadixTree) : CidrCall → Prop
  | .add c => CleanAdd t c.address c.length
  | .delete _ => True

/-- A clean call that returned. -/
def CleanCalled (t : RadixTree) (call : CidrCall) (t' : RadixTree) : Prop :=
  call.Clean t ∧ CidrCalled t call t'

/-- After a clean call that returned the tree stores a table again. -/
theorem represents_of_called {t t' : RadixTree} {call : CidrCall} {table : Table Bool String}
    (h : Represents t table) (hcalled : CleanCalled t call t') :
    ∃ table', Represents t' table' := by
  obtain ⟨hclean, answer, hcalled⟩ := hcalled
  cases call with
  | add c =>
      obtain ⟨t₁, hrun, hrep, -⟩ := h.run_insert c.address c.le c.text_ne hclean
      rw [CidrCall.run, run_add_cidr, hrun] at hcalled
      cases hcalled
      exact ⟨_, hrep.setRecord _⟩
  | delete c =>
      rw [CidrCall.run, run_deleteText_network c.network_eq] at hcalled
      by_cases hroot : c.length = 0 → RootHasChild t
      · obtain ⟨t₁, hrun, hrep, -⟩ := h.run_delete_of c.address c.le hroot
        rw [hrun] at hcalled
        cases hstored : (table (networkBits c.address c.length)).isSome with
        | true =>
            rw [hstored] at hcalled
            cases hcalled
            exact ⟨_, hrep.setRecord _⟩
        | false =>
            rw [hstored] at hcalled
            cases hcalled
            exact ⟨_, hrep⟩
      · -- this one has not returned
        obtain ⟨hzero, hchildless⟩ := Classical.not_imp.mp hroot
        rw [hzero, h.run_delete_childless c.address hchildless] at hcalled
        cases hcalled

theorem represents_of_run {calls : List CidrCall} {t : RadixTree}
    (hrun : Run CleanCalled newRadixTree calls t) : ∃ table, Represents t table := by
  refine Run.invariant (P := fun t => ∃ table, Represents t table) ?_ hrun
    ⟨_, represents_newRadixTree⟩
  rintro t₁ call t₂ ⟨table, h⟩ hcalled
  exact represents_of_called h hcalled

/-- After every run of clean calls `Delete` is exact on the deletable texts and on
no others. -/
theorem delete_exact_iff {calls : List CidrCall} {t : RadixTree}
    (hrun : Run CleanCalled newRadixTree calls t) (s : String) :
    DeletesExactly t s ↔ Deletable t s := by
  obtain ⟨table, h⟩ := represents_of_run hrun
  exact h.deletes_iff s

/-- `64.0.0.0/2`, added and asked for again. -/
theorem delete_exact_iff_added : ∃ t,
    Run CleanCalled newRadixTree [.add sixtyFour.toCidr] t ∧
      (DeletesExactly t "64.0.0.0/2" ↔ Deletable t "64.0.0.0/2") := by
  obtain ⟨t, hinsert, -⟩ := grown_newRadixTree.run_insert sixtyFour.toCidr.address
    sixtyFour.toCidr.le sixtyFour.toCidr.text_ne
  have hcalled : CidrCalled newRadixTree (.add sixtyFour.toCidr)
      { t with record := t.record.insert sixtyFour.toCidr.text true } := by
    refine ⟨none, ?_⟩
    rw [CidrCall.run, run_add_cidr, hinsert]
  have hrun : Run CleanCalled newRadixTree [.add sixtyFour.toCidr] _ :=
    .single ⟨cleanAdd_of_free rfl _ _, hcalled⟩
  exact ⟨_, hrun, delete_exact_iff hrun "64.0.0.0/2"⟩

/-- `0.0.0.0/0` on a fresh tree: the root is a leaf, and it is pruned. -/
theorem root_pruned : ¬ ∀ (calls : List CidrCall) (t : RadixTree),
    Run CidrCalled newRadixTree calls t → ∀ s, DeletesExactly t s := by
  intro h
  obtain ⟨answer, t', hrun, -⟩ := h [] newRadixTree (.nil _) "0.0.0.0/0"
  have hnetwork : network "0.0.0.0/0" = .ok (some (0#32, 0)) := by decide +kernel
  have hchildless : ¬ RootHasChild newRadixTree := by
    rintro ⟨root, hroot, hkids⟩
    cases hroot
    exact hkids.elim (fun h => h rfl) fun h => h rfl
  rw [run_deleteText_network hnetwork,
    represents_newRadixTree.run_delete_childless _ hchildless] at hrun
  cases hrun

end Acl
end VermouthGateway
