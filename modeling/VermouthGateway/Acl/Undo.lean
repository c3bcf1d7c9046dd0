import VermouthGateway.Acl.Cidrs

/-!
# Deleting what was just added

`insert` hangs a chain of nodes without values below the last node of the tree
on the way to its network, and `delete` prunes upwards while it meets leaves
without values.  On a tree whose leaves all have values the second loop stops
where the first one started.

* `SameNodes` compares the nodes that are reached from the root.
* `Grafted` is a tree with such a chain on it, and `Grafted.prune` takes the
  chain away.
* `add_then_delete`: a network without a value, inserted and deleted, leaves the
  tree of a list of networks as it was.
-/

namespace VermouthGateway
namespace Acl

open Go LongestMatch
open RadixTree

/-- The node of a network is there and has a value. -/
def Live (t : RadixTree) (key : BitVec 32) (n : Nat) : Prop :=
  ∃ node, t.walk key (netMask n) 32 maxIpv4Bit t.root = some node ∧
    (t.heap node).value ≠ noValue

/-- The nodes below the root, and the root itself. -/
inductive Reaches (t : RadixTree) : Ptr → Prop
  | root {p : Ptr} (h : t.root = some p) : Reaches t p
  | child {p q : Ptr} (b : Bool) (hp : Reaches t p) (hq : t.child p b = some q) : Reaches t q

/-- The same nodes are reached, with the same links, parents and values. -/
structure SameNodes (t t' : RadixTree) : Prop where
  root : t'.root = t.root
  reaches : ∀ p, Reaches t' p ↔ Reaches t p
  nodes : ∀ p, Reaches t p → t'.heap p = t.heap p

/-- Every leaf that is reached, but for the root, has a value. -/
def NoEmptyLeaf (t : RadixTree) : Prop :=
  ∀ p, Reaches t p → t.root ≠ some p → t.child p true = none → t.child p false = none →
    (t.heap p).value ≠ noValue

namespace Shape

variable {t t' : RadixTree} {loc : Placement} {spare spare' : List Ptr}

theorem reaches_iff (h : Shape t loc spare none) (p : Ptr) :
    Reaches t p ↔ ∃ word, loc word = some p := by
  constructor
  · intro hreach
    induction hreach with
    | root hroot => exact ⟨[], h.root.trans hroot⟩
    | child b _ hq ih =>
        obtain ⟨word, hword⟩ := ih
        exact ⟨word ++ [b], (h.child b hword (by simp)).symm.trans hq⟩
  · rintro ⟨word, hword⟩
    induction word using List.reverseRecOn generalizing p with
    | nil => exact .root (h.root.symm.trans hword)
    | append_singleton word b ih =>
        cases hup : loc word with
        | none =>
            rw [h.closed b hup] at hword
            cases hword
        | some up => exact .child b (ih up hup) ((h.child b hup (by simp)).trans hword)

/-- The links of a tree are those of its words. -/
theorem heap_eq (h : Shape t loc spare none) (h' : Shape t' loc spare' none)
    {word : List Bool} {p : Ptr} (hword : loc word = some p)
    (hvalue : (t'.heap p).value = (t.heap p).value) : t'.heap p = t.heap p := by
  have hchild : ∀ b, t'.child p b = t.child p b := fun b =>
    (h'.child b hword (by simp)).trans (h.child b hword (by simp)).symm
  have hparent : (t'.heap p).parent = (t.heap p).parent := by
    induction word using List.reverseRecOn with
    | nil => rw [h'.rootParent hword, h.rootParent hword]
    | append_singleton word b _ =>
        cases hup : loc word with
        | none =>
            rw [h.closed b hup] at hword
            cases hword
        | some up => rw [h'.parent hup hword, h.parent hup hword]
  have hright : (t'.heap p).right = (t.heap p).right := hchild true
  have hleft : (t'.heap p).left = (t.heap p).left := hchild false
  cases hnew : t'.heap p with
  | mk right left parent value =>
      cases hold : t.heap p with
      | mk right₀ left₀ parent₀ value₀ =>
          rw [hnew, hold] at hright hleft hparent hvalue
          simp only at hright hleft hparent hvalue
          rw [hright, hleft, hparent, hvalue]

theorem sameNodes (h : Shape t loc spare none) (h' : Shape t' loc spare' none)
    (hvalues : ∀ word p, loc word = some p → (t'.heap p).value = (t.heap p).value) :
    SameNodes t t' where
  root := h'.root.symm.trans h.root
  reaches p := (h'.reaches_iff p).trans (h.reaches_iff p).symm
  nodes p hp := by
    obtain ⟨word, hword⟩ := (h.reaches_iff p).mp hp
    exact h.heap_eq h' hword (hvalues word p hword)

theorem noEmptyLeaf (h : Shape t loc spare none) (htrim : Trimmed t loc) : NoEmptyLeaf t := by
  intro p hp hroot hright hleft
  obtain ⟨word, hword⟩ := (h.reaches_iff p).mp hp
  refine htrim word p hword ?_ fun b => ?_
  · rintro rfl
    exact hroot (h.root.symm.trans hword)
  · rw [← h.child b hword (by simp)]
    cases b
    · exact hleft
    · exact hright

theorem live_iff (h : Shape t loc spare none) (key : BitVec 32) {n : Nat} (hn : n ≤ 32) :
    Live t key n ↔ (entry t loc (networkBits key n)).isSome := by
  rw [Live, h.walk_eq_loc key hn]
  cases hnode : loc (networkBits key n) with
  | none => simp [entry_of_none hnode]
  | some node => simp [entry_of_some hnode]

/-- Below every word of the tree there is a leaf. -/
theorem exists_leaf (h : Shape t loc spare none) {p : List Bool} (hp : (loc p).isSome) :
    ∃ q, (loc (p ++ q)).isSome ∧ ∀ b, loc (p ++ q ++ [b]) = none := by
  -- over the letters a word of the tree can still get
  induction hroom : 32 - p.length generalizing p with
  | zero =>
      refine ⟨[], by simpa using hp, fun b => ?_⟩
      cases hb : loc (p ++ [] ++ [b]) with
      | none => rfl
      | some n =>
          have hdepth := h.depth hb
          simp only [List.append_nil, List.length_append, List.length_singleton] at hdepth
          omega
  | succ room ih =>
      by_cases hleaf : ∀ b, loc (p ++ [b]) = none
      · exact ⟨[], by simpa using hp, by simpa using hleaf⟩
      · push Not at hleaf
        obtain ⟨b, hb⟩ := hleaf
        obtain ⟨q, hq, hqleaf⟩ := ih (p := p ++ [b]) (Option.isSome_iff_ne_none.mpr hb)
          (by simp only [List.length_append, List.length_singleton]; omega)
        exact ⟨b :: q, by simpa using hq, by simpa using hqleaf⟩

end Shape

theorem Represents.live_iff {t : RadixTree} {table : Table Bool String}
    (h : Represents t table) (key : BitVec 32) {n : Nat} (hn : n ≤ 32) :
    Live t key n ↔ (table (networkBits key n)).isSome := by
  obtain ⟨loc, spare, hshape, -, rfl⟩ := h
  exact hshape.live_iff key hn

/-- The new words of an insertion lead to its network. -/
theorem Shape.Extended.chain {t t' : RadixTree} {loc loc' : Placement} {spare spare' : List Ptr}
    {word p : List Bool} {node : Ptr} (h : Shape t loc spare none)
    (hext : Shape.Extended t loc word node t' loc' spare') (hold : loc p = none)
    (hnew : loc' p ≠ none) : p <+: word := by
  by_contra hoff
  obtain ⟨q, hq, hleaf⟩ := hext.shape.exists_leaf (Option.isSome_iff_ne_none.mpr hnew)
  have hne : p ++ q ≠ word := fun heq => hoff ⟨q, heq⟩
  -- the leaf below `p` was in the tree before, and with it `p`
  have hleafOld := hext.leaves (p ++ q) hne hq hleaf
  rw [h.none_append hold q] at hleafOld
  cases hleafOld

/-! ## Taking the chain away -/

/-- The words of `old`, whose leaves have values, and a chain up to `word` of
nodes without values but for the last. -/
structure Grafted (t : RadixTree) (loc old : Placement) (word : List Bool) : Prop where
  root : old [] ≠ none
  beyond : ∀ p q, old p = none → old (p ++ q) = none
  kept : ∀ p n, old p = some n → loc p = some n
  chain : ∀ p, old p = none → loc p ≠ none → p <+: word
  fresh : old word = none
  blank : ∀ p n, old p = none → p ≠ word → loc p = some n → (t.heap n).value = noValue
  trimmed : Trimmed t old

namespace Grafted

variable {t : RadixTree} {loc old : Placement} {spare : List Ptr} {word : List Bool} {b : Bool}
  {node : Ptr}

/-- Nothing hangs below the tip. -/
theorem tip_leaf {word : List Bool} (h : Grafted t loc old word) (c : Bool) :
    loc (word ++ [c]) = none := by
  by_contra hc
  have hlen := (h.chain _ (h.beyond word [c] h.fresh) hc).length_le
  rw [List.length_append, List.length_singleton] at hlen
  omega

/-- The tip of the chain cut off, and the chain goes on. -/
theorem detach (h : Grafted t loc old (word ++ [b])) {t₁ : RadixTree}
    (hdet : Shape.Detached t loc spare (word ++ [b]) node t₁) (hword : old word = none) :
    Grafted t₁ (Shape.unplace loc (word ++ [b])) old word where
  root := h.root
  beyond := h.beyond
  kept p n hp := by
    have hne : p ≠ word ++ [b] := by
      rintro rfl
      rw [h.fresh] at hp
      cases hp
    rw [Shape.unplace_ne loc hne]
    exact h.kept p n hp
  chain p hp hloc := by
    obtain ⟨n, hn⟩ := Option.ne_none_iff_exists'.mp hloc
    obtain ⟨hne, hn⟩ := Shape.unplace_some hn
    have hpre := h.chain p hp (by simp [hn])
    exact (List.prefix_concat_iff.mp hpre).resolve_left hne
  fresh := hword
  blank p n hp hne hloc := by
    obtain ⟨hpb, hloc⟩ := Shape.unplace_some hloc
    rw [hdet.values]
    exact h.blank p n hp hpb hloc
  trimmed p n hp hne hleaf := by
    rw [hdet.values]
    exact h.trimmed p n hp hne hleaf

/-- The last node of the chain cut off leaves the old words. -/
theorem unplace_eq (h : Grafted t loc old (word ++ [b])) (hword : old word ≠ none) :
    Shape.unplace loc (word ++ [b]) = old := by
  funext p
  by_cases hp : p = word ++ [b]
  · rw [hp, h.fresh, Shape.unplace, Function.update_self]
  · rw [Shape.unplace_ne loc hp]
    cases hold : old p with
    | some n => exact h.kept p n hold
    | none =>
        by_contra hloc
        have hpre := (List.prefix_concat_iff.mp (h.chain p hold hloc)).resolve_left hp
        obtain ⟨rest, rfl⟩ := hpre
        exact hword (h.beyond p rest hold)

/-- The pruning loop, started at the tip, takes the whole chain away. -/
theorem prune {fuel : Nat} (h : Grafted t loc old (word ++ [b])) (hshape : Shape t loc spare none)
    (hnode : loc (word ++ [b]) = some node) (hfuel : word.length < fuel) :
    ∃ t' spare', EStateM.run (prune fuel node) t = .ok () t' ∧ Shape t' old spare' none ∧
      ∀ q, (t'.heap q).value = (t.heap q).value := by
  -- over the fuel, as each round goes one letter up
  induction fuel generalizing t loc spare word b node with
  | zero => omega
  | succ fuel ih =>
      cases hup : loc word with
      | none =>
          rw [hshape.closed b hup] at hnode
          cases hnode
      | some up =>
      have hdet := hshape.detach hup hnode h.tip_leaf
      rw [Shape.run_prune_succ, hshape.parent hup hnode]
      dsimp only
      set t₁ := t.detach node up
      have hup₁ : Shape.unplace loc (word ++ [b]) word = some up := by
        rw [Shape.unplace_ne loc (by simp), hup]
      by_cases hword : old word = none
      · -- the chain goes on: the parent is a leaf without a value, and not the root
        have hne : word ≠ [] := fun hnil => h.root (hnil ▸ hword)
        have hchain := h.detach hdet hword
        have hblank : (t₁.heap up).value = noValue := by
          rw [hdet.values]
          exact h.blank word up hword (by simp) hup
        rw [if_neg fun hsome => (hdet.shape.hasChild_iff hup₁).mp hsome hchain.tip_leaf,
          if_neg (not_not.mpr hblank),
          if_neg fun hroot => hne ((hdet.shape.parent_eq_none_iff hup₁).mp hroot)]
        obtain ⟨init, c, hinit⟩ := List.eq_nil_or_concat word |>.resolve_left hne
        rw [List.concat_eq_append] at hinit
        subst hinit
        obtain ⟨t', spare', hrun, hshape', hvalues⟩ := ih hchain hdet.shape hup₁
          (by simp only [List.length_append, List.length_singleton] at hfuel; omega)
        exact ⟨t', spare', hrun, hshape', fun q => (hvalues q).trans (hdet.values q)⟩
      · -- the parent is an old node, and the loop stops here
        have hdone := h.unplace_eq hword
        have hshape₁ : Shape t₁ old (node :: spare) none := hdone ▸ hdet.shape
        by_cases hkids : ∀ c, old (word ++ [c]) = none
        swap
        · rw [if_pos ((hshape₁.hasChild_iff (hdone ▸ hup₁)).mpr hkids)]
          exact ⟨t₁, _, rfl, hshape₁, hdet.values⟩
        rw [if_neg fun hsome => (hshape₁.hasChild_iff (hdone ▸ hup₁)).mp hsome hkids]
        by_cases hvalue : (t₁.heap up).value ≠ noValue
        · rw [if_pos hvalue]
          exact ⟨t₁, _, rfl, hshape₁, hdet.values⟩
        -- an old leaf without a value is the root
        have hroot : word = [] := by
          by_contra hne
          rw [hdet.values] at hvalue
          exact hvalue (h.trimmed word up (hdone ▸ hup₁) hne hkids)
        rw [if_neg hvalue, if_pos ((hdet.shape.parent_eq_none_iff hup₁).mpr hroot)]
        exact ⟨t₁, _, rfl, hshape₁, hdet.values⟩

end Grafted

/-! ## Insertion and deletion -/

namespace Shape

variable {t t₀ : RadixTree} {loc loc' : Placement} {spare spare' : List Ptr} {word : List Bool}
  {node : Ptr}

/-- Writing the value at the end of an extension leaves the old values alone. -/
theorem Extended.values_kept (hext : Extended t loc word node t₀ loc' spare') (value : String)
    {p : List Bool} {m : Ptr} (hp : loc p = some m) (hne : p ≠ word) :
    ((t₀.setValue node value).heap m).value = (t.heap m).value := by
  obtain ⟨hp', hsame⟩ := hext.kept p m hp
  have hm : m ≠ node := fun heq => hne (hext.shape.injective hp' (heq ▸ hext.last))
  rw [heap_setValue_value, if_neg hm, hsame]

/-- A network that was in the tree extends it by nothing. -/
theorem Extended.loc_eq (h : Shape t loc spare none)
    (hext : Extended t loc word node t₀ loc' spare') (hold : loc word ≠ none) : loc' = loc := by
  funext p
  cases hp : loc p with
  | some k => exact (hext.kept p k hp).1
  | none =>
      by_contra hne
      obtain ⟨rest, rfl⟩ := Extended.chain h hext hp hne
      exact hold (h.none_append hp rest)

/-- A network that was not there hangs on a chain. -/
theorem Extended.grafted (h : Shape t loc spare none) (htrim : Trimmed t loc)
    (hext : Extended t loc word node t₀ loc' spare') (hold : loc word = none) (value : String) :
    Grafted (t₀.setValue node value) loc' loc word where
  root := by
    rw [h.root]
    exact Option.isSome_iff_ne_none.mp h.root_some
  beyond p q hp := h.none_append hp q
  kept p m hp := (hext.kept p m hp).1
  chain p hp hne := Extended.chain h hext hp hne
  fresh := hold
  blank p m hp hne hm := by
    have hmn : m ≠ node := fun heq => hne (hext.shape.injective hm (heq ▸ hext.last))
    have hentry := hext.entries p
    rw [entry_of_none hp, entry_of_some hm] at hentry
    rw [heap_setValue_value, if_neg hmn]
    by_contra hvalue
    rw [if_neg hvalue] at hentry
    cases hentry
  trimmed p m hp hne hleaf := by
    have hpw : p ≠ word := by
      rintro rfl
      rw [hold] at hp
      cases hp
    rw [hext.values_kept value hp hpw]
    exact htrim p m hp hne hleaf

/-- The deletion of a network that was there without a value takes the value away
again. -/
theorem Extended.run_delete_inner (h : Shape t loc spare none) (htrim : Trimmed t loc)
    (hext : Extended t loc word node t₀ loc' spare') {key : BitVec 32} {n : Nat} (hn : n ≤ 32)
    (hbits : networkBits key n = word) (hne : word ≠ []) {value : String} (hvalue : value ≠ noValue)
    {m : Ptr} (hold : loc word = some m) (hblank : (t.heap m).value = noValue) :
    ∃ t₂ spare₂, EStateM.run (delete key (netMask n)) (t₀.setValue node value) = .ok true t₂ ∧
      Shape t₂ loc spare₂ none ∧ ∀ p q, loc p = some q → (t₂.heap q).value = (t.heap q).value := by
  obtain rfl : m = node := Option.some.inj ((hext.kept word m hold).1.symm.trans hext.last)
  -- a leaf would have a value, so it is an inner node
  have hkids : ¬ ∀ b, loc (word ++ [b]) = none := fun hleaf => htrim word m hold hne hleaf hblank
  have hshape₁ := hext.shape.setValue m value
  rw [Extended.loc_eq h hext (by simp [hold])] at hshape₁
  have hset : ((t₀.setValue m value).heap m).value ≠ noValue := by
    rw [heap_setValue_value, if_pos rfl]
    exact hvalue
  refine ⟨_, spare', ?_, hshape₁.setValue m noValue, fun p q hp => ?_⟩
  · rw [hshape₁.run_delete_inner hn hbits hold hkids, if_pos hset]
  · rw [heap_setValue_value]
    by_cases hq : q = m
    · rw [if_pos hq, hq, hblank]
    · rw [if_neg hq]
      exact hext.values_kept value hp fun heq => hq (Option.some.inj (hp.symm.trans (heq ▸ hold)))

/-- The deletion of a network that was not there takes its chain away again. -/
theorem Extended.run_delete_grafted (h : Shape t loc spare none) (htrim : Trimmed t loc)
    (hext : Extended t loc word node t₀ loc' spare') {key : BitVec 32} {n : Nat} (hn : n ≤ 32)
    (hbits : networkBits key n = word) (hne : word ≠ []) (value : String)
    (hold : loc word = none) :
    ∃ t₂ spare₂, EStateM.run (delete key (netMask n)) (t₀.setValue node value) = .ok true t₂ ∧
      Shape t₂ loc spare₂ none ∧ ∀ p q, loc p = some q → (t₂.heap q).value = (t.heap q).value := by
  have hlen : word.length = n := hbits ▸ length_networkBits key hn
  have hshape₁ := hext.shape.setValue node value
  have hgraft := hext.grafted h htrim hold value
  obtain ⟨init, b, hinit⟩ := List.eq_nil_or_concat word |>.resolve_left hne
  rw [List.concat_eq_append] at hinit
  subst hinit
  have hfuel : init.length < 33 + 2 * (t₀.setValue node value).next := by
    simp only [List.length_append, List.length_singleton] at hlen
    omega
  obtain ⟨t₂, spare₂, hprune, hshape₂, hvalues⟩ := hgraft.prune hshape₁ hext.last hfuel
  refine ⟨t₂, spare₂, hshape₁.run_delete_leaf hn hbits hext.last hgraft.tip_leaf hprune, hshape₂,
    fun p q hp => ?_⟩
  have hpw : p ≠ init ++ [b] := by
    rintro rfl
    rw [hold] at hp
    cases hp
  rw [hvalues, hext.values_kept value hp hpw]

/-- A clean insertion of a network without a value, and its deletion. -/
theorem insert_delete (h : Shape t loc spare none) (htrim : Trimmed t loc) {key : BitVec 32}
    {n : Nat} (hpos : 1 ≤ n) (hn : n ≤ 32) {value : String} (hvalue : value ≠ noValue)
    (hclean : CleanAdd t key n) (hfree : entry t loc (networkBits key n) = none) :
    ∃ t₁ t₂ spare₂, EStateM.run (insert key (netMask n) value) t = .ok () t₁ ∧
      EStateM.run (delete key (netMask n)) t₁ = .ok true t₂ ∧ Shape t₂ loc spare₂ none ∧
      ∀ word p, loc word = some p → (t₂.heap p).value = (t.heap p).value := by
  obtain ⟨root, hroot⟩ := Option.isSome_iff_exists.mp h.root_some
  have hlen := length_networkBits key hn
  obtain ⟨node, t₀, loc', spare', hinsert, hext⟩ :=
    h.insertPath_spec hroot (hlen.trans_le hn) value (hclean root hroot)
  have hrun := RadixTree.run_insert t key hn value hroot
  rw [hinsert] at hrun
  generalize hbits : networkBits key n = word at hlen hfree hext
  have hne : word ≠ [] := by
    rintro rfl
    rw [List.length_nil] at hlen
    omega
  cases hold : loc word with
  | some m =>
      have hblank : (t.heap m).value = noValue := by
        by_contra hvalued
        rw [entry_of_some hold, if_neg hvalued] at hfree
        cases hfree
      obtain ⟨t₂, spare₂, hdelete, hshape₂, hvalues⟩ :=
        Extended.run_delete_inner h htrim hext hn hbits hne hvalue hold hblank
      exact ⟨_, t₂, spare₂, hrun, hdelete, hshape₂, hvalues⟩
  | none =>
      obtain ⟨t₂, spare₂, hdelete, hshape₂, hvalues⟩ :=
        Extended.run_delete_grafted h htrim hext hn hbits hne value hold
      exact ⟨_, t₂, spare₂, hrun, hdelete, hshape₂, hvalues⟩

end Shape

/-- On the tree of a list of networks, inserting a network without a value and
deleting it leaves every node as it was. -/
theorem add_then_delete (cs : List Cidr) (e : Entry) (value : String) (hvalue : value ≠ noValue)
    (t : RadixTree) (hrun : EStateM.run (addAll (cs.map Cidr.text)) newRadixTree = .ok () t)
    (hfree : ¬ Live t e.address e.cidr) :
    ∃ t₁ t₂, EStateM.run (insert e.address (netMask e.cidr) value) t = .ok () t₁ ∧
      EStateM.run (delete e.address (netMask e.cidr)) t₁ = .ok true t₂ ∧
      SameNodes t t₂ ∧ NoEmptyLeaf t₂ := by
  obtain ⟨t', hrun', hgrown⟩ := run_addAll_cidrs cs
  cases hrun.symm.trans hrun'
  obtain ⟨loc, spare, hshape, htrim, -⟩ := hgrown.represents
  rw [hshape.live_iff e.address e.le, Option.not_isSome_iff_eq_none] at hfree
  obtain ⟨t₁, t₂, spare₂, hinsert, hdelete, hshape₂, hvalues⟩ := hshape.insert_delete htrim e.pos
    e.le hvalue (cleanAdd_of_free hgrown.free e.address e.cidr) hfree
  refine ⟨t₁, t₂, hinsert, hdelete, hshape.sameNodes hshape₂ hvalues,
    hshape₂.noEmptyLeaf fun p m hp hne hleaf => ?_⟩
  rw [hvalues p m hp]
  exact htrim p m hp hne hleaf

/-- `64.0.0.0/2` on the tree of `0.0.0.0/2`: the chain hangs below an inner node. -/
theorem add_then_delete_sibling :
    ∃ t t₁ t₂, EStateM.run (addAll ([zero.toCidr].map Cidr.text)) newRadixTree = .ok () t ∧
      ¬ Live t sixtyFour.address sixtyFour.cidr ∧
      EStateM.run (insert sixtyFour.address (netMask sixtyFour.cidr) sixtyFour.text) t =
        .ok () t₁ ∧
      EStateM.run (delete sixtyFour.address (netMask sixtyFour.cidr)) t₁ = .ok true t₂ ∧
      SameNodes t t₂ ∧ NoEmptyLeaf t₂ := by
  obtain ⟨t, hrun, hgrown⟩ := run_addAll_cidrs [zero.toCidr]
  have hfree : ¬ Live t sixtyFour.address sixtyFour.cidr := by
    rw [hgrown.represents.live_iff sixtyFour.address sixtyFour.le, isSome_storedTable]
    rintro ⟨c, hc, hword⟩
    rw [List.mem_singleton.mp hc] at hword
    exact absurd hword (by decide +kernel)
  obtain ⟨t₁, t₂, hsame⟩ := add_then_delete [zero.toCidr] sixtyFour sixtyFour.text
    sixtyFour.text_ne t hrun hfree
  exact ⟨t, t₁, t₂, hrun, hfree, hsame⟩

end Acl
end VermouthGateway
