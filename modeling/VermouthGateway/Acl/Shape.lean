import VermouthGateway.Acl.Paths
import VermouthGateway.Foundation.LongestMatch

/-!
# The shape of the tree

`Shape t loc spare hole` is the representation invariant: `loc` places the
words of a prefix-closed set on distinct nodes of the heap, a node's children
sit at the words one letter longer, parents point back, and the nodes of
`spare` are the free list, in order and off the tree.

A recycled node keeps the `right` link it had on the free list.  While a
network is being inserted this link of the newest node is wrong; `hole` is the
one child link the invariant does not speak about.

* `Shape.attach` and `Shape.detach` say what one round of the loops of
  `insert` and `delete` does to the words and to the free list.
* `Trimmed` says that every leaf but the root has a value.
* `entry` reads the table of values off the words.
-/

namespace VermouthGateway
namespace Acl

open Go LongestMatch

/-- A placement of words on nodes. -/
abbrev Placement := List Bool → Option Ptr

/-- The nodes of a list are linked through `right` and have no left child. -/
def FreeChain (t : RadixTree) : List Ptr → Prop
  | [] => True
  | f :: rest => (t.heap f).right = rest.head? ∧ (t.heap f).left = none ∧ FreeChain t rest

structure Shape (t : RadixTree) (loc : Placement) (spare : List Ptr)
    (hole : Option (Ptr × Bool)) : Prop where
  root_some : t.root.isSome = true
  root : loc [] = t.root
  rootParent : ∀ {n}, loc [] = some n → (t.heap n).parent = none
  child : ∀ {p n} (b : Bool), loc p = some n → hole ≠ some (n, b) →
    t.child n b = loc (p ++ [b])
  closed : ∀ {p} (b : Bool), loc p = none → loc (p ++ [b]) = none
  injective : ∀ {p q n}, loc p = some n → loc q = some n → p = q
  parent : ∀ {p b n m}, loc p = some n → loc (p ++ [b]) = some m →
    (t.heap m).parent = some n
  depth : ∀ {p n}, loc p = some n → p.length ≤ 32
  allocated : ∀ {p n}, loc p = some n → n < t.next
  freeHead : t.free = spare.head?
  freeChain : FreeChain t spare
  freeNodup : spare.Nodup
  freeAllocated : ∀ f ∈ spare, f < t.next
  freeDisjoint : ∀ f ∈ spare, ∀ p, loc p ≠ some f

/-- Every leaf but the root has a value. -/
def Trimmed (t : RadixTree) (loc : Placement) : Prop :=
  ∀ p n, loc p = some n → p ≠ [] → (∀ b, loc (p ++ [b]) = none) →
    (t.heap n).value ≠ noValue

/-- The table of values: the entry at a word is the value of its node. -/
def entry (t : RadixTree) (loc : Placement) : Table Bool String :=
  fun p => (loc p).bind fun n =>
    if (t.heap n).value = noValue then none else some (t.heap n).value

theorem entry_of_none {t : RadixTree} {loc : Placement} {p : List Bool}
    (h : loc p = none) : entry t loc p = none := by
  simp [entry, h]

theorem entry_of_some {t : RadixTree} {loc : Placement} {p : List Bool} {n : Ptr}
    (h : loc p = some n) :
    entry t loc p =
      if (t.heap n).value = noValue then none else some (t.heap n).value := by
  simp [entry, h]

/-! ## Reading and writing nodes -/

namespace RadixTree

@[simp] theorem heap_setNode_self (t : RadixTree) (p : Ptr) (node : RadixNode) :
    (t.setNode p node).heap p = node := by
  simp [setNode]

theorem heap_setNode_ne (t : RadixTree) {p q : Ptr} (node : RadixNode) (hne : q ≠ p) :
    (t.setNode p node).heap q = t.heap q := by
  simp [setNode, hne]

@[simp] theorem heap_setChild_value (t : RadixTree) (p q : Ptr) (b : Bool)
    (target : Option Ptr) : ((t.setChild p b target).heap q).value = (t.heap q).value := by
  by_cases hq : q = p
  · subst hq
    cases b <;> simp [setChild]
  · simp [setChild, heap_setNode_ne t _ hq]

@[simp] theorem heap_setChild_parent (t : RadixTree) (p q : Ptr) (b : Bool)
    (target : Option Ptr) : ((t.setChild p b target).heap q).parent = (t.heap q).parent := by
  by_cases hq : q = p
  · subst hq
    cases b <;> simp [setChild]
  · simp [setChild, heap_setNode_ne t _ hq]

@[simp] theorem child_setChild_self (t : RadixTree) (p : Ptr) (b : Bool)
    (target : Option Ptr) : (t.setChild p b target).child p b = target := by
  cases b <;> simp [setChild, child]

theorem child_setChild_of_bit_ne (t : RadixTree) (p q : Ptr) {b b' : Bool}
    (target : Option Ptr) (hne : b' ≠ b) :
    (t.setChild p b target).child q b' = t.child q b' := by
  by_cases hq : q = p
  · subst hq
    cases b <;> cases b' <;> simp_all [setChild, child]
  · simp [setChild, child, heap_setNode_ne t _ hq]

theorem child_setChild_of_ne (t : RadixTree) {p q : Ptr} (b b' : Bool)
    (target : Option Ptr) (hne : q ≠ p) :
    (t.setChild p b target).child q b' = t.child q b' := by
  simp [setChild, child, heap_setNode_ne t _ hne]

@[simp] theorem child_setValue (t : RadixTree) (p q : Ptr) (value : String) (b : Bool) :
    (t.setValue p value).child q b = t.child q b := by
  by_cases hq : q = p
  · subst hq
    cases b <;> simp [setValue, child]
  · simp [setValue, child, heap_setNode_ne t _ hq]

@[simp] theorem heap_setValue_parent (t : RadixTree) (p q : Ptr) (value : String) :
    ((t.setValue p value).heap q).parent = (t.heap q).parent := by
  by_cases hq : q = p
  · subst hq
    simp [setValue]
  · simp [setValue, heap_setNode_ne t _ hq]

theorem heap_setValue_value (t : RadixTree) (p q : Ptr) (value : String) :
    ((t.setValue p value).heap q).value = if q = p then value else (t.heap q).value := by
  by_cases hq : q = p
  · subst hq
    simp [setValue]
  · simp [setValue, heap_setNode_ne t _ hq, hq]

end RadixTree

open RadixTree

/-- A free list only depends on the child links of its nodes. -/
theorem FreeChain.congr {t t' : RadixTree} {spare : List Ptr}
    (h : FreeChain t spare)
    (hsame : ∀ f ∈ spare, ∀ b, t'.child f b = t.child f b) : FreeChain t' spare := by
  induction spare with
  | nil => trivial
  | cons f rest ih =>
      obtain ⟨hright, hleft, hrest⟩ := h
      have hf := hsame f List.mem_cons_self
      refine ⟨?_, ?_, ih hrest fun g hg => hsame g (List.mem_cons_of_mem f hg)⟩
      · exact (hf true).trans hright
      · exact (hf false).trans hleft

namespace Shape

variable {t : RadixTree} {loc : Placement} {spare : List Ptr}
  {hole : Option (Ptr × Bool)}

/-- A hole whose link is right after all can be forgotten. -/
theorem fill {n : Ptr} {b : Bool} (h : Shape t loc spare (some (n, b)))
    (hlink : ∀ p, loc p = some n → t.child n b = loc (p ++ [b])) :
    Shape t loc spare none :=
  { h with
    child := fun {p m} b' hp _ => by
      by_cases hsame : some (n, b) = some (m, b')
      · cases hsame
        exact hlink p hp
      · exact h.child b' hp hsame }

/-- Changing a value keeps the shape. -/
theorem setValue (h : Shape t loc spare hole) (node : Ptr) (value : String) :
    Shape (t.setValue node value) loc spare hole where
  root_some := h.root_some
  root := h.root
  rootParent hn := by rw [heap_setValue_parent]; exact h.rootParent hn
  child b hp hne := by rw [child_setValue]; exact h.child b hp hne
  closed := h.closed
  injective := h.injective
  parent hn hm := by rw [heap_setValue_parent]; exact h.parent hn hm
  depth := h.depth
  allocated := h.allocated
  freeHead := h.freeHead
  freeChain := h.freeChain.congr fun f _ b => child_setValue t node f value b
  freeNodup := h.freeNodup
  freeAllocated := h.freeAllocated
  freeDisjoint := h.freeDisjoint

/-- The record is no part of the shape. -/
theorem setRecord (h : Shape t loc spare hole) (record : GoMap String Bool) :
    Shape { t with record := record } loc spare hole where
  root_some := h.root_some
  root := h.root
  rootParent := h.rootParent
  child := h.child
  closed := h.closed
  injective := h.injective
  parent := h.parent
  depth := h.depth
  allocated := h.allocated
  freeHead := h.freeHead
  freeChain := h.freeChain.congr fun _ _ _ => rfl
  freeNodup := h.freeNodup
  freeAllocated := h.freeAllocated
  freeDisjoint := h.freeDisjoint

/-- Writing a value writes one entry of the table. -/
theorem entry_setValue (h : Shape t loc spare hole) {word : List Bool} {node : Ptr}
    (hnode : loc word = some node) (value : String) :
    entry (t.setValue node value) loc =
      Function.update (entry t loc) word (if value = noValue then none else some value) := by
  funext p
  by_cases hp : p = word
  · rw [hp, Function.update_self, entry_of_some hnode, heap_setValue_value, if_pos rfl]
  · rw [Function.update_of_ne hp]
    cases hloc : loc p with
    | none => rw [entry_of_none hloc, entry_of_none hloc]
    | some n =>
        have hn : n ≠ node := fun heq => hp (h.injective hloc (heq ▸ hnode))
        rw [entry_of_some hloc, entry_of_some hloc, heap_setValue_value, if_neg hn]

/-- The test for children, in terms of the words of the tree. -/
theorem hasChild_iff (h : Shape t loc spare none) {p : List Bool} {n : Ptr}
    (hp : loc p = some n) :
    (t.child n true ≠ none ∨ t.child n false ≠ none) ↔ ¬ ∀ b, loc (p ++ [b]) = none := by
  have hchild : ∀ b, t.child n b = loc (p ++ [b]) := fun b => h.child b hp (by simp)
  rw [hchild, hchild]
  constructor
  · rintro (htrue | hfalse) hleaf
    · exact htrue (hleaf true)
    · exact hfalse (hleaf false)
  · intro hkids
    by_contra hnone
    push Not at hnone
    refine hkids fun b => ?_
    cases b
    · exact hnone.2
    · exact hnone.1

/-- Only the root has no parent. -/
theorem parent_eq_none_iff (h : Shape t loc spare hole) {p : List Bool} {n : Ptr}
    (hp : loc p = some n) : (t.heap n).parent = none ↔ p = [] := by
  constructor
  · intro hparent
    by_contra hne
    obtain ⟨init, b, rfl⟩ := List.eq_nil_or_concat p |>.resolve_left hne
    rw [List.concat_eq_append] at hp
    cases hinit : loc init with
    | none =>
        rw [h.closed b hinit] at hp
        cases hp
    | some m =>
        rw [h.parent hinit hp] at hparent
        cases hparent
  · rintro rfl
    exact h.rootParent hp

/-- Words beyond a missing word are missing. -/
theorem none_append (h : Shape t loc spare hole) {p : List Bool} (hp : loc p = none)
    (q : List Bool) : loc (p ++ q) = none := by
  induction q using List.reverseRecOn with
  | nil => simpa using hp
  | append_singleton q b ih =>
      rw [← List.append_assoc]
      exact h.closed b ih

theorem notMem_of_next_le (h : Shape t loc spare hole) {m : Ptr} (hm : t.next ≤ m)
    (p : List Bool) : loc p ≠ some m := by
  intro hp
  exact absurd (h.allocated hp) (Nat.not_lt.mpr hm)

/-! ## Taking a node from the free list or the heap -/

/-- What `newNode` hands out: a node off the tree without a left child, whose
right link still names the next node of the free list. -/
structure Taken (t : RadixTree) (loc : Placement) (spare : List Ptr) (next : Ptr)
    (t' : RadixTree) : Prop where
  root : t'.root = t.root
  record : t'.record = t.record
  heap : ∀ q, q ≠ next → t'.heap q = t.heap q
  left : t'.child next false = none
  right : t'.child next true = spare.tail.head?
  free : t'.free = spare.tail.head?
  chain : FreeChain t' spare.tail
  offTree : ∀ p, loc p ≠ some next
  offSpare : next ∉ spare.tail
  allocated : next < t'.next
  grows : t.next ≤ t'.next

theorem newNode (h : Shape t loc spare hole) :
    Taken t loc spare t.newNode.1 t.newNode.2 := by
  cases hspare : spare with
  | nil =>
      -- the free list is empty: the first address the heap has not used
      have hfree : t.free = none := by rw [h.freeHead, hspare]; rfl
      have hnode : t.newNode =
          (t.next, { t.setNode t.next RadixNode.blank with next := t.next + 1 }) := by
        simp [RadixTree.newNode, hfree]
      rw [hnode]
      exact
        { root := rfl
          record := rfl
          heap := fun q hq => heap_setNode_ne t _ hq
          left := by simp [RadixTree.child, RadixTree.setNode, RadixNode.blank]
          right := by simp [RadixTree.child, RadixTree.setNode, RadixNode.blank]
          free := hfree
          chain := trivial
          offTree := h.notMem_of_next_le (Nat.le_refl _)
          offSpare := List.not_mem_nil
          allocated := Nat.lt_succ_self _
          grows := Nat.le_succ _ }
  | cons f rest =>
      -- the head of the free list, with whatever right link it has there
      have hfree : t.free = some f := by rw [h.freeHead, hspare]; rfl
      have hchain : FreeChain t (f :: rest) := hspare ▸ h.freeChain
      have hnodup : (f :: rest).Nodup := hspare ▸ h.freeNodup
      have hmem : f ∈ spare := hspare ▸ List.mem_cons_self
      have hnode : t.newNode = (f, { t with free := (t.heap f).right }) := by
        simp [RadixTree.newNode, hfree]
      rw [hnode]
      exact
        { root := rfl
          record := rfl
          heap := fun _ _ => rfl
          left := hchain.2.1
          right := hchain.1
          free := hchain.1
          chain := hchain.2.2.congr fun _ _ _ => rfl
          offTree := h.freeDisjoint f hmem
          offSpare := (List.nodup_cons.mp hnodup).1
          allocated := h.freeAllocated f hmem
          grows := Nat.le_refl _ }

/-! ## One round of the second loop of `insert` -/

/-- The placement with one more word. -/
def place (loc : Placement) (p : List Bool) (n : Ptr) : Placement :=
  Function.update loc p (some n)

theorem place_self (loc : Placement) (p : List Bool) (n : Ptr) : place loc p n p = some n := by
  rw [place, Function.update_self]

theorem place_ne (loc : Placement) {p q : List Bool} (n : Ptr) (hne : q ≠ p) :
    place loc p n q = loc q := by
  rw [place, Function.update_of_ne hne]

theorem place_some {loc : Placement} {p q : List Bool} {n m : Ptr}
    (h : place loc p n q = some m) : (q = p ∧ m = n) ∨ (q ≠ p ∧ loc q = some m) := by
  by_cases heq : q = p
  · subst heq
    rw [place_self] at h
    exact Or.inl ⟨rfl, (Option.some.inj h).symm⟩
  · rw [place_ne loc n heq] at h
    exact Or.inr ⟨heq, h⟩

/-- What one round of the loop writes: the new node, which keeps the right link
of the free list, and the link to it. -/
structure Hung (t : RadixTree) (loc : Placement) (spare : List Ptr) (node : Ptr) (b : Bool)
    (next : Ptr) (t' : RadixTree) : Prop where
  link : t'.child node b = some next
  left : t'.child next false = none
  right : t'.child next true = spare.tail.head?
  links : ∀ q c, q ≠ next → (q ≠ node ∨ c ≠ b) → t'.child q c = t.child q c
  parent : (t'.heap next).parent = some node
  parents : ∀ q, q ≠ next → (t'.heap q).parent = (t.heap q).parent
  blank : (t'.heap next).value = noValue
  values : ∀ q, q ≠ next → (t'.heap q).value = (t.heap q).value
  root : t'.root = t.root
  record : t'.record = t.record
  free : t'.free = spare.tail.head?
  chain : FreeChain t' spare.tail
  offTree : ∀ q, loc q ≠ some next
  offSpare : next ∉ spare.tail
  allocated : next < t'.next
  grows : t.next ≤ t'.next

theorem hang (h : Shape t loc spare hole) {p : List Bool} {node : Ptr} (hp : loc p = some node)
    (b : Bool) : Hung t loc spare node b (t.attach node b).1 (t.attach node b).2 := by
  have htaken := h.newNode
  rcases hnode : t.newNode with ⟨next, t₁⟩
  rw [hnode] at htaken
  have hattach : t.attach node b =
      (next, (t₁.setNode next { t₁.heap next with
        parent := some node, value := noValue }).setChild node b (some next)) := by
    simp [RadixTree.attach, hnode]
  rw [hattach]
  set t₂ := t₁.setNode next { t₁.heap next with parent := some node, value := noValue }
    with ht₂
  have hne : next ≠ node := fun heq => htaken.offTree p (heq ▸ hp)
  -- the write to the new node does not touch its links
  have hchild₂ : ∀ q c, t₂.child q c = t₁.child q c := by
    intro q c
    by_cases hq : q = next
    · subst hq
      cases c <;> simp [ht₂, RadixTree.child]
    · simp [ht₂, RadixTree.child, heap_setNode_ne t₁ _ hq]
  have hheap₂ : ∀ q, q ≠ next → t₂.heap q = t.heap q := by
    intro q hq
    rw [ht₂, heap_setNode_ne t₁ _ hq, htaken.heap q hq]
  -- the link of `node` on the side of `b` is the only one that is written after `newNode`
  have hlinks : ∀ q c, (q ≠ node ∨ c ≠ b) →
      (t₂.setChild node b (some next)).child q c = t₁.child q c := by
    rintro q c (hqn | hcb)
    · rw [child_setChild_of_ne t₂ b c _ hqn, hchild₂]
    · rw [child_setChild_of_bit_ne t₂ node q _ hcb, hchild₂]
  exact
    { link := child_setChild_self t₂ node b (some next)
      left := (hlinks next false (Or.inl hne)).trans htaken.left
      right := (hlinks next true (Or.inl hne)).trans htaken.right
      links := fun q c hq hor => by
        rw [hlinks q c hor, RadixTree.child, htaken.heap q hq, RadixTree.child]
      parent := by rw [heap_setChild_parent, ht₂, heap_setNode_self]
      parents := fun q hq => by rw [heap_setChild_parent, hheap₂ q hq]
      blank := by rw [heap_setChild_value, ht₂, heap_setNode_self]
      values := fun q hq => by rw [heap_setChild_value, hheap₂ q hq]
      root := htaken.root
      record := htaken.record
      free := htaken.free
      chain := htaken.chain.congr fun f hf c => hlinks f c
        (Or.inl fun heq => h.freeDisjoint f (List.mem_of_mem_tail hf) p (heq ▸ hp))
      offTree := htaken.offTree
      offSpare := htaken.offSpare
      allocated := htaken.allocated
      grows := htaken.grows }

/-- What one round of the loop does: the new node sits at the longer word, its
right link is still the one of the free list, nothing else moves. -/
structure Attached (t : RadixTree) (loc : Placement) (spare : List Ptr)
    (p : List Bool) (next : Ptr) (t' : RadixTree) : Prop where
  shape : Shape t' (place loc p next) spare.tail (some (next, true))
  right : t'.child next true = spare.tail.head?
  blank : (t'.heap next).value = noValue
  values : ∀ q, q ≠ next → (t'.heap q).value = (t.heap q).value
  offTree : ∀ q, loc q ≠ some next
  record : t'.record = t.record
  root : t'.root = t.root

section Hanging

variable {t' : RadixTree} {p : List Bool} {b : Bool} {node next : Ptr}

/-- The links of a node after the round, but for the hole. -/
theorem child_hung (h : Shape t loc spare hole) (hhung : Hung t loc spare node b next t')
    (hp : loc p = some node) (hnew : loc (p ++ [b]) = none)
    (hhole : hole = none ∨ hole = some (node, b)) {q : List Bool} {m : Ptr} (c : Bool)
    (hq : place loc (p ++ [b]) next q = some m) (hcond : some (next, true) ≠ some (m, c)) :
    t'.child m c = place loc (p ++ [b]) next (q ++ [c]) := by
  rcases place_some hq with ⟨rfl, rfl⟩ | ⟨-, hq'⟩
  · -- the new node: only its left link counts, the right one is the hole
    have hc : c = false := by
      cases c with
      | false => rfl
      | true => exact absurd rfl hcond
    subst hc
    rw [hhung.left, place_ne loc _ (by simp)]
    exact (h.closed false hnew).symm
  · -- an old node: the link just written, or one the round left alone
    have hmn : m ≠ next := fun heq => hhung.offTree q (heq ▸ hq')
    by_cases hlink : m = node ∧ c = b
    · obtain ⟨rfl, rfl⟩ := hlink
      rw [h.injective hq' hp, hhung.link, place_self]
    · have hor : m ≠ node ∨ c ≠ b := by
        by_cases hm : m = node
        · exact Or.inr fun hc => hlink ⟨hm, hc⟩
        · exact Or.inl hm
      have hwas : hole ≠ some (m, c) := by
        rcases hhole with rfl | rfl
        · simp
        · intro heq
          cases heq
          exact hlink ⟨rfl, rfl⟩
      rw [hhung.links m c hmn hor, h.child c hq' hwas, place_ne]
      intro heq
      obtain ⟨hqp, hcb⟩ := List.append_inj' heq rfl
      subst hqp
      rw [hp] at hq'
      exact hlink ⟨(Option.some.inj hq').symm, by simpa using hcb⟩

/-- The parents after the round. -/
theorem parent_hung (h : Shape t loc spare hole) (hhung : Hung t loc spare node b next t')
    (hp : loc p = some node) (hnew : loc (p ++ [b]) = none) {q : List Bool} {c : Bool} {n m : Ptr}
    (hn : place loc (p ++ [b]) next q = some n)
    (hm : place loc (p ++ [b]) next (q ++ [c]) = some m) : (t'.heap m).parent = some n := by
  rcases place_some hm with ⟨heq, rfl⟩ | ⟨-, hm'⟩
  · obtain ⟨hqp, -⟩ := List.append_inj' heq rfl
    subst hqp
    rw [place_ne loc _ (by simp), hp] at hn
    rw [hhung.parent, Option.some.inj hn]
  · have hmn : m ≠ next := fun heq => hhung.offTree _ (heq ▸ hm')
    rcases place_some hn with ⟨rfl, -⟩ | ⟨-, hn'⟩
    · rw [h.closed c hnew] at hm'
      cases hm'
    · rw [hhung.parents m hmn]
      exact h.parent hn' hm'

theorem attach (h : Shape t loc spare hole) (hp : loc p = some node)
    (hnew : loc (p ++ [b]) = none) (hhole : hole = none ∨ hole = some (node, b))
    (hdepth : p.length < 32) :
    Attached t loc spare (p ++ [b]) (t.attach node b).1 (t.attach node b).2 := by
  have hhung := h.hang hp b
  refine
    { shape := ?_
      right := hhung.right
      blank := hhung.blank
      values := hhung.values
      offTree := hhung.offTree
      record := hhung.record
      root := hhung.root }
  refine
    { root_some := by rw [hhung.root]; exact h.root_some
      root := by rw [hhung.root, place_ne loc _ (by simp), h.root]
      rootParent := ?rootParent
      child := fun c hq hcond => h.child_hung hhung hp hnew hhole c hq hcond
      closed := ?closed
      injective := ?injective
      parent := fun hn hm => h.parent_hung hhung hp hnew hn hm
      depth := ?depth
      allocated := ?allocated
      freeHead := hhung.free
      freeChain := hhung.chain
      freeNodup := h.freeNodup.tail
      freeAllocated := ?freeAllocated
      freeDisjoint := ?freeDisjoint }
  case rootParent =>
    intro n hn
    rw [place_ne loc _ (by simp)] at hn
    have hnn : n ≠ (t.attach node b).1 := fun heq => hhung.offTree [] (heq ▸ hn)
    rw [hhung.parents n hnn]
    exact h.rootParent hn
  case closed =>
    intro q c hq
    have hqne : q ≠ p ++ [b] := by
      rintro rfl
      rw [place_self] at hq
      cases hq
    rw [place_ne loc _ hqne] at hq
    -- the word `p` above the new one is in the tree, so the new word hangs on nothing missing
    have hlong : q ++ [c] ≠ p ++ [b] := by
      intro heq
      rw [(List.append_inj' heq rfl).1, hp] at hq
      cases hq
    rw [place_ne loc _ hlong]
    exact h.closed c hq
  case injective =>
    intro q r m hq hr
    -- the new node is off the old tree, so it cannot be the node of an old word
    rcases place_some hq with ⟨rfl, rfl⟩ | ⟨-, hq⟩ <;>
      rcases place_some hr with ⟨rfl, hm⟩ | ⟨-, hr⟩
    · rfl
    · exact absurd hr (hhung.offTree r)
    · exact absurd hq (hm ▸ hhung.offTree q)
    · exact h.injective hq hr
  case depth =>
    intro q m hq
    rcases place_some hq with ⟨rfl, -⟩ | ⟨-, hq⟩
    · -- the only place where the bound on the depth is used
      simp only [List.length_append, List.length_singleton]
      omega
    · exact h.depth hq
  case allocated =>
    intro q m hq
    rcases place_some hq with ⟨-, rfl⟩ | ⟨-, hq⟩
    · exact hhung.allocated
    · exact Nat.lt_of_lt_of_le (h.allocated hq) hhung.grows
  case freeAllocated =>
    intro f hf
    exact Nat.lt_of_lt_of_le (h.freeAllocated f (List.mem_of_mem_tail hf)) hhung.grows
  case freeDisjoint =>
    intro f hf q hq
    rcases place_some hq with ⟨-, rfl⟩ | ⟨-, hq⟩
    · exact hhung.offSpare hf
    · exact h.freeDisjoint f (List.mem_of_mem_tail hf) q hq

end Hanging

/-! ## One round of the loop of `delete` -/

/-- The placement without one word. -/
def unplace (loc : Placement) (p : List Bool) : Placement :=
  Function.update loc p none

theorem unplace_ne (loc : Placement) {p q : List Bool} (hne : q ≠ p) :
    unplace loc p q = loc q := by
  rw [unplace, Function.update_of_ne hne]

theorem unplace_some {loc : Placement} {p q : List Bool} {n : Ptr}
    (h : unplace loc p q = some n) : q ≠ p ∧ loc q = some n := by
  by_cases heq : q = p
  · subst heq
    rw [unplace, Function.update_self] at h
    cases h
  · exact ⟨heq, unplace_ne loc heq ▸ h⟩

/-- What one round of the loop writes: the parent of the leaf loses its link, and
the right link of the leaf is the one of the free list. -/
structure Cut (t : RadixTree) (up : Ptr) (b : Bool) (node : Ptr) (t' : RadixTree) : Prop where
  link : t'.child up b = none
  right : t'.child node true = t.free
  left : t'.child node false = t.child node false
  links : ∀ q c, q ≠ node → (q ≠ up ∨ c ≠ b) → t'.child q c = t.child q c
  values : ∀ q, (t'.heap q).value = (t.heap q).value
  parents : ∀ q, (t'.heap q).parent = (t.heap q).parent
  free : t'.free = some node
  record : t'.record = t.record
  root : t'.root = t.root
  next : t'.next = t.next

/-- What one round of the loop does: the leaf goes to the head of the free
list and its parent loses the link. -/
structure Detached (t : RadixTree) (loc : Placement) (spare : List Ptr)
    (p : List Bool) (node : Ptr) (t' : RadixTree) : Prop where
  shape : Shape t' (unplace loc p) (node :: spare) none
  values : ∀ q, (t'.heap q).value = (t.heap q).value
  parents : ∀ q, (t'.heap q).parent = (t.heap q).parent
  record : t'.record = t.record
  root : t'.root = t.root
  next : t'.next = t.next

section Cutting

variable {t' : RadixTree} {p : List Bool} {b : Bool} {node up : Ptr}

theorem ne_parent (h : Shape t loc spare none) (hup : loc p = some up)
    (hnode : loc (p ++ [b]) = some node) : node ≠ up := by
  intro heq
  have hlen := congrArg List.length (h.injective hnode (heq ▸ hup))
  simp at hlen

theorem cut (h : Shape t loc spare none) (hup : loc p = some up)
    (hnode : loc (p ++ [b]) = some node) : Cut t up b node (t.detach node up) := by
  have hne := h.ne_parent hup hnode
  -- the comparison with the right child finds the side of the leaf
  have hside : (t.child up true == some node) = b := by
    rw [h.child true hup (by simp)]
    cases b with
    | true => simp [hnode]
    | false =>
        rw [beq_eq_false_iff_ne]
        intro heq
        have hword := h.injective heq hnode
        simp at hword
  set t₁ := t.setChild up b none with ht₁
  have hdetach : t.detach node up =
      { t₁.setChild node true t.free with free := some node } := by
    rw [RadixTree.detach, hside]
    rfl
  -- the free list is threaded through the right links, the left one of the leaf is nil
  have hlinks : ∀ q c, (q ≠ node ∨ c ≠ true) → (t.detach node up).child q c = t₁.child q c := by
    rw [hdetach]
    rintro q c (hq | hc)
    · exact child_setChild_of_ne t₁ true c _ hq
    · exact child_setChild_of_bit_ne t₁ node q _ hc
  exact
    { link := (hlinks up b (Or.inl (Ne.symm hne))).trans (child_setChild_self t up b none)
      right := by rw [hdetach]; exact child_setChild_self t₁ node true t.free
      left := (hlinks node false (Or.inr (by simp))).trans
        (child_setChild_of_ne t b false none hne)
      links := fun q c hq hor => (hlinks q c (Or.inl hq)).trans (hor.elim
        (child_setChild_of_ne t b c none) (child_setChild_of_bit_ne t up q none))
      values := fun q => by
        rw [hdetach]
        exact (heap_setChild_value t₁ node q true _).trans (heap_setChild_value t up q b _)
      parents := fun q => by
        rw [hdetach]
        exact (heap_setChild_parent t₁ node q true _).trans (heap_setChild_parent t up q b _)
      free := by rw [hdetach]
      record := by rw [hdetach]; rfl
      root := by rw [hdetach]; rfl
      next := by rw [hdetach]; rfl }

/-- The links of a node that stays. -/
theorem child_cut (h : Shape t loc spare none) (hcut : Cut t up b node t') (hup : loc p = some up)
    (hnode : loc (p ++ [b]) = some node) {q : List Bool} {m : Ptr} (c : Bool)
    (hq : unplace loc (p ++ [b]) q = some m) :
    t'.child m c = unplace loc (p ++ [b]) (q ++ [c]) := by
  obtain ⟨hqne, hq'⟩ := unplace_some hq
  have hmn : m ≠ node := fun heq => hqne (h.injective hq' (heq ▸ hnode))
  by_cases hlink : m = up ∧ c = b
  · obtain ⟨rfl, rfl⟩ := hlink
    rw [h.injective hq' hup, hcut.link, unplace, Function.update_self]
  · have hor : m ≠ up ∨ c ≠ b := by
      by_cases hm : m = up
      · exact Or.inr fun hc => hlink ⟨hm, hc⟩
      · exact Or.inl hm
    rw [hcut.links m c hmn hor, h.child c hq' (by simp), unplace_ne]
    intro heq
    obtain ⟨hqp, hcb⟩ := List.append_inj' heq rfl
    subst hqp
    rw [hup] at hq'
    exact hlink ⟨(Option.some.inj hq').symm, by simpa using hcb⟩

/-- The leaf heads the free list. -/
theorem freeChain_cut (h : Shape t loc spare none) (hcut : Cut t up b node t')
    (hup : loc p = some up) (hnode : loc (p ++ [b]) = some node)
    (hleaf : ∀ c, loc (p ++ [b] ++ [c]) = none) : FreeChain t' (node :: spare) := by
  have hchildless : t.child node false = none :=
    (h.child false hnode (by simp)).trans (hleaf false)
  refine ⟨hcut.right.trans h.freeHead, hcut.left.trans hchildless, ?_⟩
  refine h.freeChain.congr fun f hf c => ?_
  have hfn : f ≠ node := fun heq => h.freeDisjoint f hf _ (heq ▸ hnode)
  have hfp : f ≠ up := fun heq => h.freeDisjoint f hf _ (heq ▸ hup)
  exact hcut.links f c hfn (Or.inl hfp)

theorem detach (h : Shape t loc spare none) (hup : loc p = some up)
    (hnode : loc (p ++ [b]) = some node) (hleaf : ∀ c, loc (p ++ [b] ++ [c]) = none) :
    Detached t loc spare (p ++ [b]) node (t.detach node up) := by
  have hcut := h.cut hup hnode
  refine
    { shape := ?_
      values := hcut.values
      parents := hcut.parents
      record := hcut.record
      root := hcut.root
      next := hcut.next }
  refine
    { root_some := by rw [hcut.root]; exact h.root_some
      root := by rw [hcut.root, unplace_ne loc (by simp), h.root]
      rootParent := ?rootParent
      child := fun c hq _ => h.child_cut hcut hup hnode c hq
      closed := ?closed
      injective := fun hq hr => h.injective (unplace_some hq).2 (unplace_some hr).2
      parent := ?parentLink
      depth := fun hq => h.depth (unplace_some hq).2
      allocated := fun hq => hcut.next ▸ h.allocated (unplace_some hq).2
      freeHead := hcut.free
      freeChain := h.freeChain_cut hcut hup hnode hleaf
      freeNodup := List.nodup_cons.mpr
        ⟨fun hmem => h.freeDisjoint node hmem _ hnode, h.freeNodup⟩
      freeAllocated := ?freeAllocated
      freeDisjoint := ?freeDisjoint }
  case rootParent =>
    intro n hn
    rw [hcut.parents]
    exact h.rootParent (unplace_some hn).2
  case closed =>
    intro q c hq
    -- only the words below the leaf could lose their parent, and there are none
    by_cases hword : q ++ [c] = p ++ [b]
    · rw [hword, unplace, Function.update_self]
    · rw [unplace_ne loc hword]
      by_cases hqp : q = p ++ [b]
      · rw [hqp]
        exact hleaf c
      · rw [unplace_ne loc hqp] at hq
        exact h.closed c hq
  case parentLink =>
    intro q c n m hn hm
    rw [hcut.parents]
    exact h.parent (unplace_some hn).2 (unplace_some hm).2
  case freeAllocated =>
    intro f hf
    rw [hcut.next]
    rcases List.mem_cons.mp hf with rfl | hf
    · exact h.allocated hnode
    · exact h.freeAllocated f hf
  case freeDisjoint =>
    intro f hf q hq
    obtain ⟨hqne, hq⟩ := unplace_some hq
    rcases List.mem_cons.mp hf with rfl | hf
    · exact hqne (h.injective hq hnode)
    · exact h.freeDisjoint f hf q hq

end Cutting

end Shape
end Acl
end VermouthGateway
