import VermouthGateway.Acl.Operations

/-!
# What a call on the tree does

`Add` and `Delete` on any tree, well shaped or not: when they return, and what
they leave of the root and the record.

* `network` is what both read of a text.
* `completes_adds_iff`: a loop of `Add` returns when every text can be read.
* `completes_deleteText`: a `Delete` returns when the node it prunes hangs below
  a root.
* `run_adds_ok`, `run_deleteText_ok`: the root stays, and the record holds
  texts of networks only.
-/

namespace VermouthGateway
namespace Acl

open Go
open RadixTree

/-- The address and the length of the network a text denotes; `none` is an
error value, and a fifth group in the address is a fault. -/
def network (ipNet : String) : Except Halt (Option (BitVec 32 × Nat)) :=
  match Utils.inetToi ((pieces ipNet).headD "") with
  | .error e => .error e
  | .ok none => .ok none
  | .ok (some ip) =>
      match (pieces ipNet)[1]? with
      | none => .ok none
      | some mask =>
          match atoi mask with
          | none => .ok none
          | some cidr =>
              if cidr < 0 ∨ cidr > 32 then .ok none else .ok (some (ip, cidr.toNat))

/-- Reading the text raises no fault. -/
def Readable (ipNet : String) : Prop := ∃ net, network ipNet = .ok net

/-- The text denotes a network. -/
def Denotes (ipNet : String) : Prop := ∃ net, network ipNet = .ok (some net)

/-- The part of a tree that loops over the nodes do not touch. -/
structure SameEntries (t t' : RadixTree) : Prop where
  root : t'.root = t.root
  record : t'.record = t.record

namespace SameEntries

variable {t t' t'' : RadixTree}

theorem refl (t : RadixTree) : SameEntries t t := ⟨rfl, rfl⟩

theorem trans (h : SameEntries t t') (h' : SameEntries t' t'') : SameEntries t t'' :=
  ⟨h'.root.trans h.root, h'.record.trans h.record⟩

theorem newNode (t : RadixTree) : SameEntries t t.newNode.2 := by
  rw [RadixTree.newNode]
  cases t.free <;> exact ⟨rfl, rfl⟩

theorem attach (t : RadixTree) (node : Ptr) (bit : Bool) :
    SameEntries t (t.attach node bit).2 :=
  ⟨(newNode t).root, (newNode t).record⟩

theorem extend (key mask : BitVec 32) (fuel : Nat) (bit : BitVec 32) (node : Ptr)
    (t : RadixTree) : SameEntries t (RadixTree.extend key mask fuel bit node t).2 := by
  induction fuel generalizing bit node t with
  | zero => exact refl t
  | succ fuel ih =>
      rw [RadixTree.extend]
      split
      · exact refl t
      · exact (attach t node _).trans (ih _ _ _)

theorem insertBelow (t : RadixTree) (key mask : BitVec 32) (value : String) (root : Ptr) :
    SameEntries t (t.insertBelow key mask value root) := by
  rw [RadixTree.insertBelow]
  rcases t.descend key mask 32 maxIpv4Bit root with ⟨bit, node, next⟩
  dsimp only
  split
  · exact ⟨rfl, rfl⟩
  · have hextend := extend key mask 32 bit node t
    exact ⟨hextend.root, hextend.record⟩

theorem detach (t : RadixTree) (node parent : Ptr) : SameEntries t (t.detach node parent) :=
  ⟨rfl, rfl⟩

/-- Pruning, however it ends. -/
theorem prune (fuel : Nat) (node : Ptr) (t : RadixTree) :
    SameEntries t (memory (EStateM.run (RadixTree.prune fuel node) t)) := by
  induction fuel generalizing node t with
  | zero => exact refl t
  | succ fuel ih =>
      rw [Shape.run_prune_succ]
      cases (t.heap node).parent with
      | none => exact refl t
      | some parent =>
          dsimp only
          have hdetach := detach t node parent
          split
          · exact hdetach
          · split
            · exact hdetach
            · split
              · exact hdetach
              · exact hdetach.trans (ih parent _)

theorem delete (key mask : BitVec 32) (t : RadixTree) :
    SameEntries t (memory (EStateM.run (RadixTree.delete key mask) t)) := by
  rw [run_delete_eq]
  cases t.walk key mask 32 maxIpv4Bit t.root with
  | none => exact refl t
  | some node =>
      dsimp only
      split
      · split
        · exact ⟨rfl, rfl⟩
        · exact refl t
      · have hprune := prune (33 + 2 * t.next) node t
        cases hrun : EStateM.run (RadixTree.prune (33 + 2 * t.next) node) t with
        | ok u t' =>
            rw [hrun] at hprune
            exact hprune
        | error e t' =>
            rw [hrun] at hprune
            exact hprune

end SameEntries

/-! ## Reading a text -/

section Reading

variable {t t' : RadixTree} {ipNet value : String}

theorem network_fault {e : Halt} (h : network ipNet = .error e) :
    Utils.inetToi ((pieces ipNet).headD "") = .error e := by
  rw [network] at h
  cases hip : Utils.inetToi ((pieces ipNet).headD "") with
  | error e' =>
      rw [hip] at h
      cases h
      rfl
  | ok ip =>
      rw [hip] at h
      cases ip with
      | none => cases h
      | some ip =>
          dsimp only at h
          split at h
          · cases h
          · split at h
            · cases h
            · split at h <;> cases h

theorem network_some {ip : BitVec 32} {n : Nat} (h : network ipNet = .ok (some (ip, n))) :
    Utils.inetToi ((pieces ipNet).headD "") = .ok (some ip) ∧
      ∃ mask cidr, (pieces ipNet)[1]? = some mask ∧ atoi mask = some cidr ∧
        ¬ (cidr < 0 ∨ cidr > 32) ∧ cidr.toNat = n := by
  rw [network] at h
  cases hip : Utils.inetToi ((pieces ipNet).headD "") with
  | error e =>
      rw [hip] at h
      cases h
  | ok address =>
      rw [hip] at h
      cases address with
      | none => cases h
      | some address =>
          dsimp only at h
          cases hmask : (pieces ipNet)[1]? with
          | none =>
              rw [hmask] at h
              cases h
          | some mask =>
              rw [hmask] at h
              dsimp only at h
              cases hcidr : atoi mask with
              | none =>
                  rw [hcidr] at h
                  cases h
              | some cidr =>
                  rw [hcidr] at h
                  dsimp only at h
                  split at h
                  · cases h
                  · next hrange =>
                      cases h
                      exact ⟨rfl, mask, cidr, rfl, hcidr, hrange, rfl⟩

/-- How `Add` and `Delete` read a text.  They differ in the error of a length that
is no number, and in what they do with the network. -/
def onNetwork (ipNet : String) (notNumber : AclError)
    (body : BitVec 32 → Nat → Eff RadixTree (Option AclError)) :
    Eff RadixTree (Option AclError) := do
  match ← ofPure (Utils.inetToi ((pieces ipNet).headD "")) with
  | none => pure (some .invaildIpAddress)
  | some ip =>
      match (pieces ipNet)[1]? with
      | none => pure (some .invaildIpAddress)
      | some mask =>
          match atoi mask with
          | none => pure (some notNumber)
          | some cidr =>
              if cidr < 0 ∨ cidr > 32 then pure (some .invaildNetMask) else body ip cidr.toNat

section OnNetwork

variable {notNumber : AclError} {body : BitVec 32 → Nat → Eff RadixTree (Option AclError)}

theorem run_onNetwork_fault {e : Halt} (h : network ipNet = .error e) :
    EStateM.run (onNetwork ipNet notNumber body) t = .error e t := by
  rw [onNetwork, EStateM.run_bind, network_fault h]
  rfl

/-- A text that denotes nothing is an error value. -/
theorem run_onNetwork_refused (h : network ipNet = .ok none) (t : RadixTree) :
    ∃ e, EStateM.run (onNetwork ipNet notNumber body) t = .ok (some e) t := by
  rw [network] at h
  rw [onNetwork, EStateM.run_bind]
  cases hip : Utils.inetToi ((pieces ipNet).headD "") with
  | error e =>
      rw [hip] at h
      cases h
  | ok ip =>
      rw [hip] at h
      rw [run_ofPure_ok]
      cases ip with
      | none => exact ⟨_, rfl⟩
      | some ip =>
          dsimp only at h ⊢
          cases hmask : (pieces ipNet)[1]? with
          | none => exact ⟨_, rfl⟩
          | some mask =>
              rw [hmask] at h
              dsimp only at h ⊢
              cases hcidr : atoi mask with
              | none => exact ⟨_, rfl⟩
              | some cidr =>
                  rw [hcidr] at h
                  dsimp only at h ⊢
                  split at h
                  · next hrange =>
                      rw [if_pos hrange]
                      exact ⟨_, rfl⟩
                  · cases h

theorem run_onNetwork_some {ip : BitVec 32} {n : Nat} (h : network ipNet = .ok (some (ip, n))) :
    EStateM.run (onNetwork ipNet notNumber body) t = EStateM.run (body ip n) t := by
  obtain ⟨hip, mask, cidr, hmask, hcidr, hrange, rfl⟩ := network_some h
  rw [onNetwork, EStateM.run_bind, hip, run_ofPure_ok]
  dsimp only
  rw [hmask]
  dsimp only
  rw [hcidr]
  dsimp only
  rw [if_neg hrange]

end OnNetwork

/-! ## `Add` -/

theorem add_eq (ipNet value : String) :
    add ipNet value = onNetwork ipNet .atoi (fun ip n => do
      insert ip (netMask n) value
      modify fun t => { t with record := t.record.insert ipNet true }
      pure none) := rfl

theorem run_add_fault {e : Halt} (h : network ipNet = .error e) :
    EStateM.run (add ipNet value) t = .error e t := by
  rw [add_eq, run_onNetwork_fault h]

theorem run_add_refused (h : network ipNet = .ok none) (value : String) (t : RadixTree) :
    ∃ e, EStateM.run (add ipNet value) t = .ok (some e) t := by
  rw [add_eq]
  exact run_onNetwork_refused h t

/-- A network is inserted below the root and recorded; a nil root is
dereferenced. -/
theorem run_add_network {ip : BitVec 32} {n : Nat} (h : network ipNet = .ok (some (ip, n))) :
    EStateM.run (add ipNet value) t =
      match t.root with
      | none => .error (.panic .nilDereference) t
      | some root => .ok none
          { t.insertBelow ip (netMask n) value root with
            record := t.record.insert ipNet true } := by
  rw [add_eq, run_onNetwork_some h, EStateM.run_bind, run_insert_eq]
  cases t.root with
  | none => rfl
  | some root =>
      dsimp only
      rw [EStateM.run_bind, run_modify]
      dsimp only
      rw [EStateM.run_pure, (SameEntries.insertBelow t _ _ value root).record]

/-- `Add` returns on a text that can be read, as long as a network finds a
root. -/
theorem completes_add_iff (ipNet value : String) (t : RadixTree) :
    Completes (EStateM.run (add ipNet value) t) ↔
      Readable ipNet ∧ (Denotes ipNet → t.root.isSome) := by
  cases hnet : network ipNet with
  | error e =>
      rw [run_add_fault hnet]
      simp [Readable, hnet]
  | ok net =>
      cases net with
      | none =>
          obtain ⟨e, hrun⟩ := run_add_refused hnet value t
          rw [hrun]
          simp [Readable, Denotes, hnet]
      | some net =>
          rw [run_add_network hnet]
          cases hroot : t.root <;> simp [Readable, Denotes, hnet]

theorem run_add_ok {answer : Option AclError}
    (hrun : EStateM.run (add ipNet value) t = .ok answer t') :
    t'.root = t.root ∧
      ((network ipNet = .ok none ∧ t' = t) ∨
        (Denotes ipNet ∧ t.root.isSome ∧ t'.record = t.record.insert ipNet true)) := by
  cases hnet : network ipNet with
  | error e =>
      rw [run_add_fault hnet] at hrun
      cases hrun
  | ok net =>
      cases net with
      | none =>
          obtain ⟨e, hrefused⟩ := run_add_refused hnet value t
          rw [hrefused] at hrun
          cases hrun
          exact ⟨rfl, Or.inl ⟨rfl, rfl⟩⟩
      | some net =>
          rw [run_add_network hnet] at hrun
          cases hroot : t.root with
          | none =>
              rw [hroot] at hrun
              cases hrun
          | some root =>
              rw [hroot] at hrun
              cases hrun
              have hsame := SameEntries.insertBelow t net.1 (netMask net.2) value root
              exact ⟨hsame.root.trans hroot, Or.inr ⟨⟨net, hnet⟩, rfl, rfl⟩⟩

/-! ## Loops of `Add` -/

/-- The loop of `AddBlackList` and of the rebuilding of a tree. -/
def addAll (ips : List String) : Eff RadixTree Unit := forEach ips fun ip => add ip ip

/-- The record of a tree holds texts of networks only. -/
def RecordDenotes (t : RadixTree) : Prop := ∀ text ∈ t.record, Denotes text

theorem run_addAll_ok {ips : List String} (hrecord : RecordDenotes t)
    (hrun : EStateM.run (addAll ips) t = .ok () t') :
    t'.root = t.root ∧ RecordDenotes t' := by
  refine run_forEach_ok (P := fun t₁ => t₁.root = t.root ∧ RecordDenotes t₁) hrun
    ⟨rfl, hrecord⟩ ?_
  rintro ip - t₁ answer t₂ ⟨hroot, hrecord₁⟩ hadd
  obtain ⟨hroot₂, ⟨-, rfl⟩ | ⟨hdenotes, -, hrecord₂⟩⟩ := run_add_ok hadd
  · exact ⟨hroot, hrecord₁⟩
  · refine ⟨hroot₂.trans hroot, fun text htext => ?_⟩
    rw [hrecord₂, Finmap.mem_insert] at htext
    rcases htext with rfl | htext
    · exact hdenotes
    · exact hrecord₁ text htext

theorem completes_addAll_iff {ips : List String} (hroot : t.root.isSome) :
    Completes (EStateM.run (addAll ips) t) ↔ ∀ ip ∈ ips, Readable ip := by
  rw [addAll]
  induction ips generalizing t with
  | nil => simp
  | cons ip ips ih =>
      rw [run_forEach_cons]
      have hadd := completes_add_iff ip ip t
      cases hrun : EStateM.run (add ip ip) t with
      | error e t₁ =>
          rw [hrun] at hadd
          have hunreadable : ¬ Readable ip := fun h => hadd.mpr ⟨h, fun _ => hroot⟩
          simp [hunreadable]
      | ok answer t₁ =>
          rw [hrun] at hadd
          have hreadable := (hadd.mp trivial).1
          have hroot₁ : t₁.root.isSome := by
            rw [(run_add_ok hrun).1]
            exact hroot
          dsimp only
          rw [ih hroot₁]
          simp [hreadable]

/-- A loop over texts that denote nothing leaves the tree alone. -/
theorem run_addAll_refused {ips : List String} (hips : ∀ ip ∈ ips, network ip = .ok none) :
    EStateM.run (addAll ips) t = .ok () t := by
  rw [addAll]
  induction ips with
  | nil => rfl
  | cons ip ips ih =>
      obtain ⟨e, hrun⟩ := run_add_refused (hips ip List.mem_cons_self) ip t
      rw [run_forEach_cons, hrun]
      exact ih fun q hq => hips q (List.mem_cons_of_mem ip hq)

/-- On a nil root only such a loop returns. -/
theorem refused_of_run_addAll {ips : List String} (hroot : t.root = none)
    (hrun : EStateM.run (addAll ips) t = .ok () t') :
    (∀ ip ∈ ips, network ip = .ok none) ∧ t' = t := by
  rw [addAll] at hrun
  induction ips with
  | nil =>
      cases hrun
      exact ⟨by simp, rfl⟩
  | cons ip ips ih =>
      obtain ⟨answer, t₁, hadd, hrest⟩ := run_forEach_cons_ok hrun
      obtain ⟨-, ⟨hnet, rfl⟩ | ⟨-, hsome, -⟩⟩ := run_add_ok hadd
      · obtain ⟨hips, rfl⟩ := ih hrest
        exact ⟨List.forall_mem_cons.mpr ⟨hnet, hips⟩, rfl⟩
      · rw [hroot] at hsome
        cases hsome

/-! ## `Delete` -/

theorem deleteText_eq (ipNet : String) :
    deleteText ipNet = onNetwork ipNet .invaildNetMask (fun ip n => do
      let ret ← delete ip (netMask n)
      if ret then
        modify fun t => { t with record := t.record.erase ipNet }
        pure none
      else pure (some .cantFindIpNet)) := rfl

theorem run_deleteText_fault {e : Halt} (h : network ipNet = .error e) :
    EStateM.run (deleteText ipNet) t = .error e t := by
  rw [deleteText_eq, run_onNetwork_fault h]

theorem run_deleteText_refused (h : network ipNet = .ok none) :
    ∃ e, EStateM.run (deleteText ipNet) t = .ok (some e) t := by
  rw [deleteText_eq]
  exact run_onNetwork_refused h t

theorem run_deleteText_network {ip : BitVec 32} {n : Nat}
    (h : network ipNet = .ok (some (ip, n))) :
    EStateM.run (deleteText ipNet) t =
      match EStateM.run (delete ip (netMask n)) t with
      | .ok true t' => .ok none { t' with record := t'.record.erase ipNet }
      | .ok false t' => .ok (some .cantFindIpNet) t'
      | .error halt t' => .error halt t' := by
  rw [deleteText_eq, run_onNetwork_some h, EStateM.run_bind]
  cases EStateM.run (delete ip (netMask n)) t with
  | ok ret t' => cases ret <;> rfl
  | error halt t' => rfl

theorem run_deleteText_ok {answer : Option AclError}
    (hrun : EStateM.run (deleteText ipNet) t = .ok answer t') :
    t'.root = t.root ∧ (t'.record = t.record ∨ t'.record = t.record.erase ipNet) := by
  cases hnet : network ipNet with
  | error e =>
      rw [run_deleteText_fault hnet] at hrun
      cases hrun
  | ok net =>
      cases net with
      | none =>
          obtain ⟨e, hrefused⟩ := run_deleteText_refused (t := t) hnet
          rw [hrefused] at hrun
          cases hrun
          exact ⟨rfl, Or.inl rfl⟩
      | some net =>
          have hsame := SameEntries.delete net.1 (netMask net.2) t
          rw [run_deleteText_network hnet] at hrun
          cases hdelete : EStateM.run (delete net.1 (netMask net.2)) t with
          | error e t₁ =>
              rw [hdelete] at hrun
              cases hrun
          | ok ret t₁ =>
              rw [hdelete] at hrun hsame
              cases ret with
              | true =>
                  cases hrun
                  refine ⟨hsame.root, Or.inr ?_⟩
                  show t₁.record.erase ipNet = _
                  rw [← hsame.record]
                  rfl
              | false =>
                  cases hrun
                  exact ⟨hsame.root, Or.inl hsame.record⟩

/-- `RemoveBlackList` on the tree. -/
def deleteAll (ips : List String) : Eff RadixTree Unit := forEach ips deleteText

theorem run_deleteAll_ok {ips : List String} (hrecord : RecordDenotes t)
    (hrun : EStateM.run (deleteAll ips) t = .ok () t') :
    t'.root = t.root ∧ RecordDenotes t' := by
  refine run_forEach_ok (P := fun t₁ => t₁.root = t.root ∧ RecordDenotes t₁) hrun
    ⟨rfl, hrecord⟩ ?_
  rintro ip - t₁ answer t₂ ⟨hroot, hrecord₁⟩ hdelete
  obtain ⟨hroot₂, hrecord₂⟩ := run_deleteText_ok hdelete
  refine ⟨hroot₂.trans hroot, fun text htext => ?_⟩
  rcases hrecord₂ with hrecord₂ | hrecord₂
  · rw [hrecord₂] at htext
    exact hrecord₁ text htext
  · rw [hrecord₂, Finmap.mem_erase] at htext
    exact hrecord₁ text htext.2

/-! ## When a deletion returns -/

/-- A deletion prunes a leaf, or it does not prune and returns. -/
theorem run_delete_cases (key mask : BitVec 32) (t : RadixTree) :
    (∃ ret t', EStateM.run (delete key mask) t = .ok ret t') ∨
      ∃ node, t.walk key mask 32 maxIpv4Bit t.root = some node ∧
        t.child node true = none ∧ t.child node false = none ∧
        EStateM.run (delete key mask) t =
          match EStateM.run (prune (33 + 2 * t.next) node) t with
          | .ok _ t' => .ok true t'
          | .error e t' => .error e t' := by
  rw [run_delete_eq]
  cases t.walk key mask 32 maxIpv4Bit t.root with
  | none => exact Or.inl ⟨_, _, rfl⟩
  | some node =>
      dsimp only
      by_cases hkids : t.child node true ≠ none ∨ t.child node false ≠ none
      · rw [if_pos hkids]
        split <;> exact Or.inl ⟨_, _, rfl⟩
      · rw [if_neg hkids]
        push Not at hkids
        exact Or.inr ⟨node, rfl, hkids.1, hkids.2, rfl⟩

/-- Going up from the node, `n` times, ends at a node without a parent. -/
def Climbs (t : RadixTree) : Nat → Ptr → Prop
  | 0, node => (t.heap node).parent = none
  | n + 1, node => ∃ up, (t.heap node).parent = some up ∧ Climbs t n up

@[simp] theorem parent_detach (t : RadixTree) (node up q : Ptr) :
    ((t.detach node up).heap q).parent = (t.heap q).parent := by
  simp [RadixTree.detach]

theorem climbs_detach (t : RadixTree) (node up : Ptr) (n : Nat) (q : Ptr) :
    Climbs (t.detach node up) n q ↔ Climbs t n q := by
  induction n generalizing q with
  | zero => rw [Climbs, Climbs, parent_detach]
  | succ n ih => simp only [Climbs, parent_detach, ih]

/-- Pruning goes up, so it ends below the end of the climb. -/
theorem completes_prune {fuel n : Nat} {node : Ptr} (hclimb : Climbs t (n + 1) node)
    (hfuel : n < fuel) : Completes (EStateM.run (prune fuel node) t) := by
  induction fuel generalizing t n node with
  | zero => omega
  | succ fuel ih =>
      obtain ⟨up, hup, hclimb⟩ := hclimb
      rw [Shape.run_prune_succ, hup]
      dsimp only
      split
      · trivial
      · split
        · trivial
        · split
          · trivial
          · next hparent =>
              cases n with
              | zero =>
                  rw [parent_detach] at hparent
                  exact absurd hclimb hparent
              | succ n =>
                  exact ih ((climbs_detach t node up (n + 1) up).mpr hclimb) (by omega)

/-- The pruning of the network of a text ends: the node to prune, if there is
one, is at most 32 steps below a node without a parent. -/
def Prunable (t : RadixTree) (ipNet : String) : Prop :=
  ∀ ip n node, network ipNet = .ok (some (ip, n)) →
    t.walk ip (netMask n) 32 maxIpv4Bit t.root = some node →
    t.child node true = none → t.child node false = none →
    ∃ steps < 32, Climbs t (steps + 1) node

theorem completes_deleteText (hreadable : Readable ipNet) (hprunable : Prunable t ipNet) :
    Completes (EStateM.run (deleteText ipNet) t) := by
  rw [completes_iff]
  obtain ⟨net, hnet⟩ := hreadable
  cases net with
  | none =>
      obtain ⟨e, hrefused⟩ := run_deleteText_refused (t := t) hnet
      exact ⟨_, _, hrefused⟩
  | some net =>
      have hdelete : ∃ ret t', EStateM.run (delete net.1 (netMask net.2)) t = .ok ret t' := by
        rcases run_delete_cases net.1 (netMask net.2) t with
          hrun | ⟨node, hwalk, hright, hleft, hrun⟩
        · exact hrun
        · obtain ⟨steps, hsteps, hclimb⟩ := hprunable net.1 net.2 node hnet hwalk hright hleft
          obtain ⟨u, t', hprune⟩ := completes_iff.mp
            (completes_prune hclimb (show steps < 33 + 2 * t.next by omega))
          rw [hrun, hprune]
          exact ⟨_, _, rfl⟩
      obtain ⟨ret, t', hrun⟩ := hdelete
      rw [run_deleteText_network hnet, hrun]
      cases ret <;> exact ⟨_, _, rfl⟩

/-- Every text of a list can be read and pruned, each in the tree the deletions
before it leave. -/
def PrunableAll : RadixTree → List String → Prop
  | _, [] => True
  | t, ip :: ips => Readable ip ∧ Prunable t ip ∧
      PrunableAll (memory (EStateM.run (deleteText ip) t)) ips

theorem completes_deleteAll {ips : List String} (h : PrunableAll t ips) :
    Completes (EStateM.run (deleteAll ips) t) := by
  rw [deleteAll]
  induction ips generalizing t with
  | nil => trivial
  | cons ip ips ih =>
      have hcompletes := completes_deleteText h.1 h.2.1
      rw [completes_forEach_cons_iff]
      obtain ⟨answer, t', hrun⟩ := completes_iff.mp hcompletes
      have hrest := h.2.2
      rw [hrun] at hrest
      exact ⟨answer, t', hrun, ih hrest⟩

end Reading
end Acl
end VermouthGateway
