import VermouthGateway.Acl.Undo

/-!
# The links of the tree and its free list

One `right` pointer serves two structures: it is a tree edge in a node that is
in use, and the link to the next free node in a node that was pruned.  This file
says what keeps the two apart, in terms of the heap alone.

* `WellLinked`: the nodes below the root form a binary tree of depth at most 32
  with right parents, disjoint from a free list that never comes back to itself.
* `ShortWalks`: the loops of `search`, `insert` and `delete` end, and 33 nodes are
  enough for each of them.
* `history_links`: a history whose insertions are clean keeps both.
* `history_shared_node`: after an insertion that is not clean, one node is
  reached along two words.
-/

namespace VermouthGateway
namespace Acl

open Go LongestMatch
open RadixTree

/-- The node that a word leads to from the root. -/
def RadixTree.nodeAt (t : RadixTree) (word : List Bool) : Option Ptr :=
  t.walkPath word t.root

/-- The right link of a node leads to another. -/
def RightLink (t : RadixTree) (p q : Ptr) : Prop := (t.heap p).right = some q

/-- The nodes of the free list: its head, and what the right links lead to. -/
inductive OnFreeList (t : RadixTree) : Ptr → Prop
  | head {p : Ptr} (h : t.free = some p) : OnFreeList t p
  | next {p q : Ptr} (hp : OnFreeList t p) (hq : RightLink t p q) : OnFreeList t q

structure WellLinked (t : RadixTree) : Prop where
  /-- Every node is reached along one word only. -/
  tree : ∀ {v w p}, t.nodeAt v = some p → t.nodeAt w = some p → v = w
  depth : ∀ {w}, (t.nodeAt w).isSome → w.length ≤ 32
  rootParent : ∀ {p}, t.root = some p → (t.heap p).parent = none
  /-- Another node is the child of the node its parent field names, and of no other. -/
  parent : ∀ {p}, Reaches t p → t.root ≠ some p →
    ∃ up, (t.heap p).parent = some up ∧ Reaches t up ∧
      ∀ q, Reaches t q → ((∃ b, t.child q b = some p) ↔ q = up)
  disjoint : ∀ {p}, Reaches t p → ¬ OnFreeList t p
  acyclic : ∀ {p}, OnFreeList t p → ¬ Relation.TransGen (RightLink t) p p

structure ShortWalks (t : RadixTree) : Prop where
  /-- 33 rounds of the loop are enough, and `search` takes no more. -/
  search : ∀ key, ∃ value, t.searchLoop key 33 maxIpv4Bit t.root noValue = some value ∧
    t.search key = some value
  insert : ∀ key value {n}, n ≤ 32 →
    ∃ t', EStateM.run (insert key (netMask n) value) t = .ok () t'
  delete : ∀ key {n}, 1 ≤ n → n ≤ 32 →
    ∃ found t', EStateM.run (delete key (netMask n)) t = .ok found t'
  /-- The way up from a leaf has at most 32 nodes below the root. -/
  prune : ∀ {p}, Reaches t p → t.root ≠ some p → t.child p true = none →
    t.child p false = none → ∃ t', EStateM.run (prune 32 p) t = .ok () t'

/-! ## The free list -/

namespace FreeChain

variable {t : RadixTree} {before after spare : List Ptr} {f q : Ptr}

/-- The right link of a free node leads to the node after it. -/
theorem right_eq (h : FreeChain t (before ++ f :: after)) :
    (t.heap f).right = after.head? := by
  induction before with
  | nil => exact h.1
  | cons g before ih => exact ih h.2.2

/-- What the right links lead to from a free node stands after it. -/
theorem mem_after (h : FreeChain t (before ++ f :: after))
    (hlinks : Relation.TransGen (RightLink t) f q) : q ∈ after := by
  induction hlinks with
  | single hlink => exact List.mem_of_head? (h.right_eq.symm.trans hlink)
  | @tail p q _ hlink ih =>
      obtain ⟨mid, rest, rfl⟩ := List.append_of_mem ih
      have hchain : FreeChain t ((before ++ f :: mid) ++ p :: rest) := by
        simpa only [List.append_assoc, List.cons_append] using h
      have hq : q ∈ rest := List.mem_of_head? (hchain.right_eq.symm.trans hlink)
      exact List.mem_append_right mid (List.mem_cons_of_mem p hq)

/-- The free list is the chain. -/
theorem mem_of_onFreeList (h : FreeChain t spare) (hhead : t.free = spare.head?)
    (hf : OnFreeList t f) : f ∈ spare := by
  induction hf with
  | head hfree => exact List.mem_of_head? (hhead.symm.trans hfree)
  | @next p q _ hq ih =>
      obtain ⟨before, after, rfl⟩ := List.append_of_mem ih
      have hafter := h.mem_after (Relation.TransGen.single hq)
      exact List.mem_append_right before (List.mem_cons_of_mem p hafter)

end FreeChain

/-! ## From the placement to the links -/

namespace Shape

variable {t : RadixTree} {loc : Placement} {spare : List Ptr}

theorem nodeAt_eq (h : Shape t loc spare none) (word : List Bool) :
    t.nodeAt word = loc word := by
  rw [RadixTree.nodeAt, ← h.root, h.walkPath_spec word [], List.nil_append]

/-- A node other than the root hangs below the node of a word. -/
theorem exists_up (h : Shape t loc spare none) {word : List Bool} {p : Ptr}
    (hword : loc word = some p) (hroot : t.root ≠ some p) :
    ∃ init b up, word = init ++ [b] ∧ loc init = some up := by
  have hne : word ≠ [] := by
    rintro rfl
    exact hroot (h.root.symm.trans hword)
  obtain ⟨init, b, rfl⟩ := List.eq_nil_or_concat word |>.resolve_left hne
  rw [List.concat_eq_append] at hword ⊢
  cases hup : loc init with
  | none =>
      rw [h.closed b hup] at hword
      cases hword
  | some up => exact ⟨init, b, up, rfl, hup⟩

theorem wellLinked (h : Shape t loc spare none) : WellLinked t where
  tree hv hw := by
    rw [h.nodeAt_eq] at hv hw
    exact h.injective hv hw
  depth hw := by
    rw [h.nodeAt_eq] at hw
    obtain ⟨p, hp⟩ := Option.isSome_iff_exists.mp hw
    exact h.depth hp
  rootParent hp := h.rootParent (h.root.trans hp)
  parent {p} hreach hroot := by
    obtain ⟨word, hword⟩ := (h.reaches_iff p).mp hreach
    obtain ⟨init, b, up, rfl, hup⟩ := h.exists_up hword hroot
    refine ⟨up, h.parent hup hword, (h.reaches_iff up).mpr ⟨init, hup⟩, fun q hq => ?_⟩
    constructor
    · rintro ⟨c, hc⟩
      obtain ⟨other, hother⟩ := (h.reaches_iff q).mp hq
      rw [h.child c hother (by simp)] at hc
      -- both words lead to `p`, so their last letters come off alike
      have hinit : other = init := (List.append_inj' (h.injective hc hword) rfl).1
      rw [hinit, hup] at hother
      exact (Option.some.inj hother).symm
    · rintro rfl
      exact ⟨b, (h.child b hup (by simp)).trans hword⟩
  disjoint {p} hreach hfree := by
    obtain ⟨word, hword⟩ := (h.reaches_iff p).mp hreach
    exact h.freeDisjoint p (h.freeChain.mem_of_onFreeList h.freeHead hfree) word hword
  acyclic {p} hfree hloop := by
    have hmem := h.freeChain.mem_of_onFreeList h.freeHead hfree
    obtain ⟨before, after, rfl⟩ := List.append_of_mem hmem
    have hafter := h.freeChain.mem_after hloop
    have hnodup := (List.nodup_append.mp h.freeNodup).2.1
    exact (List.nodup_cons.mp hnodup).1 hafter

/-- 33 rounds are enough for a lookup. -/
theorem searchLoop_enough (h : Shape t loc spare none) (key : BitVec 32) :
    ∃ value, t.searchLoop key 33 maxIpv4Bit t.root noValue = some value ∧
      t.search key = some value := by
  have hloop := h.searchLoop_spec key (show 33 ≤ 33 + 0 from Nat.le_refl 33)
    (Nat.zero_le 32) noValue
  refine ⟨_, ?_, h.search_eq key⟩
  simpa [h.root] using hloop

/-- 32 rounds are enough to prune a leaf. -/
theorem prune_enough (h : Shape t loc spare none) (htrim : Trimmed t loc) {p : Ptr}
    (hreach : Reaches t p) (hroot : t.root ≠ some p) (hright : t.child p true = none)
    (hleft : t.child p false = none) : ∃ t', EStateM.run (prune 32 p) t = .ok () t' := by
  obtain ⟨word, hword⟩ := (h.reaches_iff p).mp hreach
  obtain ⟨init, b, up, rfl, hup⟩ := h.exists_up hword hroot
  have hleaf : ∀ c, loc (init ++ [b] ++ [c]) = none := by
    intro c
    rw [← h.child c hword (by simp)]
    cases c
    · exact hleft
    · exact hright
  have hdepth := h.depth hword
  rw [List.length_append, List.length_singleton] at hdepth
  obtain ⟨t', -, -, hrun, -⟩ := h.prune_spec hword hleaf
    (fun q n hq hne _ hkids => htrim q n hq hne hkids) (Nat.lt_of_succ_le hdepth)
  exact ⟨t', hrun⟩

end Shape

namespace Represents

variable {t : RadixTree} {table : Table Bool String}

theorem wellLinked (h : Represents t table) : WellLinked t := by
  obtain ⟨loc, spare, hshape, -, -⟩ := h
  exact hshape.wellLinked

theorem shortWalks (h : Represents t table) : ShortWalks t where
  search key := by
    obtain ⟨loc, spare, hshape, -, -⟩ := h
    exact hshape.searchLoop_enough key
  insert key value n hn := by
    obtain ⟨loc, spare, hshape, -, -⟩ := h
    obtain ⟨root, hroot⟩ := Option.isSome_iff_exists.mp hshape.root_some
    exact ⟨_, RadixTree.run_insert t key hn value hroot⟩
  delete key n hpos hn := by
    obtain ⟨t', hrun, -, -⟩ := h.run_delete key hpos hn
    exact ⟨_, t', hrun⟩
  prune hreach hroot hright hleft := by
    obtain ⟨loc, spare, hshape, htrim, -⟩ := h
    exact hshape.prune_enough htrim hreach hroot hright hleft

end Represents

/-! ## Histories -/

/-- The calls of the history return, and leave the links in order. -/
def KeepsLinks (ops : List AclOp) : Prop :=
  ∃ t, EStateM.run (runHistory ops) newRadixTree = .ok () t ∧ WellLinked t ∧ ShortWalks t

/-- A history whose insertions are clean keeps tree and free list apart. -/
theorem history_links (ops : List AclOp) (hclean : CleanHistory newRadixTree ops) :
    KeepsLinks ops := by
  obtain ⟨t, hrun, hrep⟩ := runHistory_represents represents_newRadixTree ops hclean
  exact ⟨t, hrun, hrep.wellLinked, hrep.shortWalks⟩

/-- The insertion after a deletion takes both pruned nodes back. -/
theorem history_links_recycled :
    CleanHistory newRadixTree [.add sixtyFour, .delete sixtyFour, .add sixtyFour] ∧
      KeepsLinks [.add sixtyFour, .delete sixtyFour, .add sixtyFour] := by
  have hclean : CleanHistory newRadixTree
      [.add sixtyFour, .delete sixtyFour, .add sixtyFour] := by
    simp only [CleanHistory, AclOp.run, EStateM.run_bind, run_add_entry, run_deleteText_entry]
    refine ⟨by decide, trivial, by decide +kernel, trivial⟩
  exact ⟨hclean, history_links _ hclean⟩

/-- The node that a word leads to after a history. -/
def nodeAfter (ops : List AclOp) (word : List Bool) : Option Ptr :=
  match EStateM.run (runHistory ops) newRadixTree with
  | .ok _ t => t.nodeAt word
  | .error _ _ => none

/-- The second node of `0.0.0.0/2` is also the right child of the first. -/
theorem nodeAfter_recycling :
    nodeAfter recycling [false, false] = some 2 ∧ nodeAfter recycling [false, true] = some 2 := by
  have hrun : runHistory recycling = AclOp.run (.add sixtyFour) >>= fun _ =>
      AclOp.run (.delete sixtyFour) >>= fun _ => AclOp.run (.add zero) >>= fun _ => pure () := rfl
  rw [nodeAfter, nodeAfter, hrun]
  simp only [EStateM.run_bind, AclOp.run, run_add_entry, run_deleteText_entry]
  decide +kernel

/-- An insertion that is not clean makes a node the left and the right child of
another. -/
theorem history_shared_node : ¬ ∀ ops : List AclOp, KeepsLinks ops := by
  intro hall
  obtain ⟨t, hrun, hlinks, -⟩ := hall recycling
  obtain ⟨hleft, hright⟩ := nodeAfter_recycling
  rw [nodeAfter, hrun] at hleft hright
  exact absurd (hlinks.tree hleft hright) (by decide)

end Acl
end VermouthGateway
