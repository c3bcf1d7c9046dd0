import VermouthGateway.Acl.Shape

/-!
# What the operations of the tree do to its table

With the shape of the tree in hand, each operation is described by what it does
to the table of values `entry`.

* `Shape.search_eq`: a lookup is the longest-prefix match in the table.
* `Shape.insertPath_spec`: an insertion writes one entry, provided that it is
  clean, that is, no recycled node keeps its old `right` link.
* `Shape.delete_spec`: a deletion erases one entry and says whether it was
  there.
-/

namespace VermouthGateway
namespace Acl

open Go LongestMatch
open RadixTree

/-! ## Clean insertions -/

/-- No node the insertion takes from the free list at `free` keeps a `right`
link: each of them is the last of the list, or gets a right child from the next
bit of the same insertion. -/
def CleanPath (t : RadixTree) : List Bool → Option Ptr → Prop
  | [], _ => True
  | _ :: _, none => True
  | _ :: bits, some f =>
      ((t.heap f).right = none ∨ bits.head? = some true) ∧ CleanPath t bits (t.heap f).right

def decidableCleanPath (t : RadixTree) :
    (bits : List Bool) → (free : Option Ptr) → Decidable (CleanPath t bits free)
  | [], _ => isTrue trivial
  | _ :: _, none => isTrue trivial
  | _ :: bits, some f =>
      have := decidableCleanPath t bits (t.heap f).right
      inferInstanceAs (Decidable (_ ∧ _))

instance (t : RadixTree) (bits : List Bool) (free : Option Ptr) :
    Decidable (CleanPath t bits free) := decidableCleanPath t bits free

/-- The same condition on the list of free nodes. -/
def CleanSpare : List Bool → List Ptr → Prop
  | [], _ => True
  | _ :: _, [] => True
  | _ :: bits, _ :: spare =>
      (spare.head? = none ∨ bits.head? = some true) ∧ CleanSpare bits spare

theorem FreeChain.cleanPath_iff {t : RadixTree} {spare : List Ptr} (h : FreeChain t spare)
    (bits : List Bool) : CleanPath t bits spare.head? ↔ CleanSpare bits spare := by
  induction spare generalizing bits with
  | nil => cases bits <;> simp [CleanPath, CleanSpare]
  | cons f spare ih =>
      obtain ⟨hright, -, hrest⟩ := h
      cases bits with
      | nil => simp [CleanPath, CleanSpare]
      | cons b bits =>
          simp only [List.head?_cons, CleanPath, CleanSpare, hright, ih hrest]

/-- The insertion of the first `n` bits of `key` is clean. -/
def CleanAdd (t : RadixTree) (key : BitVec 32) (n : Nat) : Prop :=
  ∀ root ∈ t.root, CleanPath t (t.descendPath (networkBits key n) root).1 t.free

instance (t : RadixTree) (key : BitVec 32) (n : Nat) : Decidable (CleanAdd t key n) :=
  inferInstanceAs (Decidable (∀ root ∈ t.root, _))

namespace Shape

variable {t : RadixTree} {loc : Placement} {spare : List Ptr}
  {hole : Option (Ptr × Bool)}

/-! ## Lookup -/

/-- The loop of `search` at a word of the tree goes on with the entries below
that word. -/
theorem searchLoop_spec (h : Shape t loc spare none) (key : BitVec 32) {fuel i : Nat}
    (hfuel : 33 ≤ fuel + i) (hi : i ≤ 32) (value : String) :
    t.searchLoop key fuel (maxIpv4Bit >>> i) (loc ((addressBits key).take i)) value =
      some (matchFrom (fun word => entry t loc ((addressBits key).take i ++ word)) value
        ((addressBits key).drop i)) := by
  -- over the fuel; `i` bits are behind, and the word they spell is where the loop stands
  induction fuel generalizing i value with
  | zero => omega
  | succ fuel ih =>
      cases hnode : loc ((addressBits key).take i) with
      | none =>
          rw [matchFrom_of_forall_none value _
            fun word => entry_of_none (h.none_append hnode word)]
          rfl
      | some node =>
          have hseen : (if (t.heap node).value ≠ noValue then (t.heap node).value else value)
              = (entry t loc ((addressBits key).take i)).getD value := by
            rw [entry_of_some hnode]
            by_cases hval : (t.heap node).value = noValue <;> simp [hval]
          rcases Nat.lt_or_ge i 32 with hlt | hge
          · have hnext : (addressBits key).take i ++ [key.getMsbD i] =
                (addressBits key).take (i + 1) := by
              rw [List.take_add_one]
              simp [addressBits, hlt]
            have hdrop : (addressBits key).drop i =
                key.getMsbD i :: (addressBits key).drop (i + 1) := by
              rw [List.drop_eq_getElem_cons (by simpa using hlt)]
              simp [addressBits]
            rw [searchLoop_eq t key hlt, h.child _ hnode (by simp), hnext, hseen,
              ih (by omega) (by omega), hdrop, matchFrom_cons]
            simp only [List.append_nil, ← hnext, List.append_assoc, List.singleton_append]
            rfl
          · -- all bits are used up: no node is deeper, so the loop ends below this one
            have hi32 : i = 32 := Nat.le_antisymm hi hge
            have hwhole : (addressBits key).take i = addressBits key :=
              List.take_of_length_le (by simp [hge])
            have hbelow : loc (addressBits key ++ [false]) = none := by
              cases hbot : loc (addressBits key ++ [false]) with
              | none => rfl
              | some m =>
                  have hlen := h.depth hbot
                  simp at hlen
            rw [searchLoop_left t key hge, h.child _ hnode (by simp), hseen, hwhole, hbelow,
              List.drop_eq_nil_of_le (by simp [hge]), matchFrom_nil, List.append_nil]
            cases fuel <;> rfl

/-- A lookup is the longest-prefix match in the table of the tree. -/
theorem search_eq (h : Shape t loc spare none) (key : BitVec 32) :
    t.search key = some (matchFrom (entry t loc) noValue (addressBits key)) := by
  have hloop := h.searchLoop_spec key (show 33 ≤ (33 + t.next) + 0 from Nat.le_add_right 33 t.next)
    (Nat.zero_le 32) noValue
  simpa [RadixTree.search, h.root] using hloop

/-! ## Insertion -/

/-- Where the first loop of `insert` stops: on a word of the tree whose next
letter leads out of it. -/
theorem descendPath_spec (h : Shape t loc spare none) {word : List Bool} {node : Ptr}
    (hnode : loc word = some node) (bits : List Bool) :
    ∃ done, bits = done ++ (t.descendPath bits node).1 ∧
      loc (word ++ done) = some (t.descendPath bits node).2.1 ∧
      ∀ b rest, (t.descendPath bits node).1 = b :: rest → loc (word ++ done ++ [b]) = none := by
  -- over the bits that are left; `done` is what the loop has eaten of them
  induction bits generalizing word node with
  | nil => exact ⟨[], by simp [descendPath, hnode]⟩
  | cons b bits ih =>
      have hchild : t.child node b = loc (word ++ [b]) := h.child b hnode (by simp)
      simp only [descendPath]
      cases hnext : loc (word ++ [b]) with
      | none =>
          rw [hchild, hnext]
          refine ⟨[], by simp, by simpa using hnode, ?_⟩
          intro c rest hrest
          cases hrest
          simpa using hnext
      | some next =>
          rw [hchild, hnext]
          obtain ⟨done, hbits, hlast, hout⟩ := ih hnext
          refine ⟨b :: done, by rw [List.cons_append, ← hbits], ?_, ?_⟩
          · simpa using hlast
          · simpa using hout

/-- What the second loop of `insert` leaves: a longer tree with the word in it,
whose new nodes have no value and, but for the last, are no leaves. -/
structure Extended (t : RadixTree) (loc : Placement) (word : List Bool) (node : Ptr)
    (t' : RadixTree) (loc' : Placement) (spare' : List Ptr) : Prop where
  shape : Shape t' loc' spare' none
  last : loc' word = some node
  entries : ∀ p, entry t' loc' p = entry t loc p
  kept : ∀ p n, loc p = some n → loc' p = some n ∧ (t'.heap n).value = (t.heap n).value
  leaves : ∀ p, p ≠ word → (loc' p).isSome → (∀ b, loc' (p ++ [b]) = none) → (loc p).isSome
  record : t'.record = t.record

theorem Attached.entries {p : List Bool} {next : Ptr} {t' : RadixTree}
    (h : Attached t loc spare p next t') (hnew : loc p = none) (q : List Bool) :
    entry t' (place loc p next) q = entry t loc q := by
  by_cases hq : q = p
  · subst hq
    rw [entry_of_none hnew, entry_of_some (n := next) (by simp [place]), if_pos h.blank]
  · have hplace : place loc p next q = loc q := by rw [place, Function.update_of_ne hq]
    cases hloc : loc q with
    | none => rw [entry_of_none hloc, entry_of_none (hplace.trans hloc)]
    | some n =>
        have hne : n ≠ next := fun heq => h.offTree q (heq ▸ hloc)
        rw [entry_of_some hloc, entry_of_some (hplace.trans hloc), h.values n hne]

/-- A round of the second loop followed by the rest of it. -/
theorem Attached.extended {word bits : List Bool} {b : Bool} {next last : Ptr}
    {t₁ t' : RadixTree} {loc' : Placement} {spare' : List Ptr}
    (h : Attached t loc spare (word ++ [b]) next t₁) (hnew : loc (word ++ [b]) = none)
    (hext : Extended t₁ (place loc (word ++ [b]) next) (word ++ [b] ++ bits) last
      t' loc' spare') :
    Extended t loc (word ++ [b] ++ bits) last t' loc' spare' where
  shape := hext.shape
  last := hext.last
  entries p := (hext.entries p).trans (h.entries hnew p)
  kept p n hp := by
    have hpw : p ≠ word ++ [b] := by
      rintro rfl
      rw [hnew] at hp
      cases hp
    have hne : n ≠ next := fun heq => h.offTree p (heq ▸ hp)
    obtain ⟨hp', hval⟩ := hext.kept p n (by rw [place, Function.update_of_ne hpw, hp])
    exact ⟨hp', hval.trans (h.values n hne)⟩
  leaves p hpw hsome hleaf := by
    by_cases hp : p = word ++ [b]
    · -- a new node that is not the last has the next one below it
      subst hp
      cases bits with
      | nil => exact absurd (by simp) hpw
      | cons c rest =>
          have hlast : (loc' (word ++ [b] ++ [c] ++ rest)).isSome := by
            have hl := hext.last
            rw [show word ++ [b] ++ c :: rest = word ++ [b] ++ [c] ++ rest by simp] at hl
            rw [hl]
            rfl
          rw [hext.shape.none_append (hleaf c) rest] at hlast
          cases hlast
    · have hloc := hext.leaves p hpw hsome hleaf
      rwa [place, Function.update_of_ne hp] at hloc
  record := hext.record.trans h.record

/-- A clean extension: every link a recycled node had is overwritten. -/
theorem extendPath_spec {bits word : List Bool} {node : Ptr}
    (h : Shape t loc spare hole) (hnode : loc word = some node)
    (hout : ∀ b rest, bits = b :: rest → loc (word ++ [b]) = none)
    (hhole : hole = none ∨ (hole = some (node, true) ∧ bits.head? = some true))
    (hclean : CleanSpare bits spare) (hdepth : (word ++ bits).length ≤ 32) :
    ∃ loc' spare', Extended t loc (word ++ bits) (extendPath bits node t).1
      (extendPath bits node t).2 loc' spare' := by
  -- over the bits that are left; the hole is the right link of the last new node
  induction bits generalizing t loc spare hole word node with
  | nil =>
      have hnone : hole = none := by simpa using hhole
      subst hnone
      refine ⟨loc, spare, ?_⟩
      exact
        { shape := h
          last := by simpa [extendPath] using hnode
          entries := fun _ => rfl
          kept := fun _ _ hp => ⟨hp, rfl⟩
          leaves := fun _ _ hp _ => hp
          record := rfl }
  | cons b bits ih =>
      have hnew : loc (word ++ [b]) = none := hout b bits rfl
      have hhole' : hole = none ∨ hole = some (node, b) := by
        rcases hhole with hnone | ⟨hsome, hbit⟩
        · exact Or.inl hnone
        · cases hbit
          exact Or.inr hsome
      have hattached := h.attach hnode hnew hhole'
        (by simp only [List.length_append, List.length_cons] at hdepth; omega)
      simp only [extendPath]
      set next := (t.attach node b).1
      set t₁ := (t.attach node b).2
      have hnext := place_self loc (word ++ [b]) next
      have hbelow : ∀ c, place loc (word ++ [b]) next (word ++ [b] ++ [c]) = none := by
        intro c
        rw [place_ne loc next (by simp)]
        exact h.closed c hnew
      -- the link the free list left in the new node is nil, or overwritten next
      have hspare : spare.tail.head? = none ∨ bits.head? = some true := by
        cases spare with
        | nil => exact Or.inl rfl
        | cons f spare => exact hclean.1
      have hrest : CleanSpare bits spare.tail := by
        cases spare with
        | nil => cases bits <;> trivial
        | cons f spare => exact hclean.2
      rw [show word ++ b :: bits = word ++ [b] ++ bits by simp] at hdepth ⊢
      rcases hspare with hnil | hbit
      · have hfilled := hattached.shape.fill fun p hp => by
          rw [hattached.right, hnil, hattached.shape.injective hp hnext, hbelow true]
        obtain ⟨loc', spare', hext⟩ :=
          ih hfilled hnext (fun c _ _ => hbelow c) (Or.inl rfl) hrest hdepth
        exact ⟨loc', spare', hattached.extended hnew hext⟩
      · obtain ⟨loc', spare', hext⟩ :=
          ih hattached.shape hnext (fun c _ _ => hbelow c) (Or.inr ⟨rfl, hbit⟩) hrest hdepth
        exact ⟨loc', spare', hattached.extended hnew hext⟩

/-- A clean insertion extends the tree to its word and writes the value there. -/
theorem insertPath_spec (h : Shape t loc spare none) {root : Ptr} (hroot : t.root = some root)
    {bits : List Bool} (hdepth : bits.length ≤ 32) (value : String)
    (hclean : CleanPath t (t.descendPath bits root).1 t.free) :
    ∃ node t₁ loc' spare', t.insertPath bits root value = t₁.setValue node value ∧
      Extended t loc bits node t₁ loc' spare' := by
  obtain ⟨done, hbits, hlast, hout⟩ := h.descendPath_spec (h.root.trans hroot) bits
  rw [h.freeHead, h.freeChain.cleanPath_iff] at hclean
  rcases hdescend : t.descendPath bits root with ⟨rest, last, next⟩
  rw [hdescend] at hbits hlast hout hclean
  dsimp only at hbits hlast hout hclean
  rw [List.nil_append] at hlast hout
  obtain ⟨loc', spare', hext⟩ := h.extendPath_spec hlast hout (Or.inl rfl) hclean
    (by rw [← hbits]; exact hdepth)
  rw [← hbits] at hext
  refine ⟨_, _, loc', spare', ?_, hext⟩
  simp only [RadixTree.insertPath, hdescend]

/-! ## Deletion -/

/-- The walk of `delete` ends at the node of its word. -/
theorem walkPath_spec (h : Shape t loc spare none) (bits word : List Bool) :
    t.walkPath bits (loc word) = loc (word ++ bits) := by
  induction bits generalizing word with
  | nil =>
      rw [List.append_nil]
      cases loc word <;> rfl
  | cons b bits ih =>
      cases hword : loc word with
      | none =>
          rw [h.none_append hword]
          rfl
      | some node =>
          simp only [walkPath, h.child b hword (by simp), ih, List.append_assoc,
            List.singleton_append]

/-- The walk of `delete` finds the node of the network. -/
theorem walk_eq_loc (h : Shape t loc spare none) (key : BitVec 32) {n : Nat} (hn : n ≤ 32) :
    t.walk key (netMask n) 32 maxIpv4Bit t.root = loc (networkBits key n) := by
  have heq := t.walk_eq key hn (show 32 + 0 = 32 from rfl) t.root
  rw [BitVec.ushiftRight_zero, List.drop_zero] at heq
  rw [heq, ← h.root]
  exact h.walkPath_spec _ []

/-- A word that lost its last child is the only new leaf. -/
theorem unplace_leaf {word p : List Bool} {b : Bool} (hp : p ≠ word)
    (hleaf : ∀ c, unplace loc (word ++ [b]) (p ++ [c]) = none) (c : Bool) :
    loc (p ++ [c]) = none := by
  have hne : p ++ [c] ≠ word ++ [b] := fun heq => hp (List.append_inj' heq rfl).1
  rw [← unplace_ne loc hne]
  exact hleaf c

theorem Detached.entries {p : List Bool} {node : Ptr} {t' : RadixTree}
    (h : Detached t loc spare p node t') {q : List Bool} (hq : q ≠ p) :
    entry t' (unplace loc p) q = entry t loc q := by
  have hplace := unplace_ne loc hq
  cases hloc : loc q with
  | none => rw [entry_of_none hloc, entry_of_none (hplace.trans hloc)]
  | some n => rw [entry_of_some hloc, entry_of_some (hplace.trans hloc), h.values n]

/-- Cutting a leaf off keeps every leaf valued, except perhaps the parent. -/
theorem Detached.trimmed {word : List Bool} {b : Bool} {node : Ptr} {t' : RadixTree}
    (h : Detached t loc spare (word ++ [b]) node t')
    (htrim : ∀ p n, loc p = some n → p ≠ [] → p ≠ word ++ [b] →
      (∀ c, loc (p ++ [c]) = none) → (t.heap n).value ≠ noValue)
    {p : List Bool} {n : Ptr} (hp : unplace loc (word ++ [b]) p = some n) (hne : p ≠ [])
    (hpw : p ≠ word) (hleaf : ∀ c, unplace loc (word ++ [b]) (p ++ [c]) = none) :
    (t'.heap n).value ≠ noValue := by
  obtain ⟨hpb, hp'⟩ := unplace_some hp
  rw [h.values]
  exact htrim p n hp' hne hpb (unplace_leaf hpw hleaf)

/-- What the pruning loop leaves: the word is gone, the other entries stay, and
every leaf has a value again. -/
structure Pruned (t : RadixTree) (loc : Placement) (word : List Bool)
    (t' : RadixTree) (loc' : Placement) (spare' : List Ptr) : Prop where
  shape : Shape t' loc' spare' none
  trimmed : Trimmed t' loc'
  erased : entry t' loc' word = none
  entries : ∀ p, p ≠ word → entry t' loc' p = entry t loc p
  record : t'.record = t.record

section Rounds

variable {word : List Bool} {b : Bool} {node up : Ptr} {t₁ : RadixTree}

theorem entry_unplace (t : RadixTree) (loc : Placement) (word : List Bool) :
    entry t (unplace loc word) word = none :=
  entry_of_none (by simp [unplace])

/-- The loop may stop when the parent is the root, no leaf, or has a value. -/
theorem Detached.pruned (h : Detached t loc spare (word ++ [b]) node t₁)
    (hword : loc word = some up)
    (htrim : ∀ p n, loc p = some n → p ≠ [] → p ≠ word ++ [b] →
      (∀ c, loc (p ++ [c]) = none) → (t.heap n).value ≠ noValue)
    (hparent : word ≠ [] → (∀ c, unplace loc (word ++ [b]) (word ++ [c]) = none) →
      (t₁.heap up).value ≠ noValue) :
    Pruned t loc (word ++ [b]) t₁ (unplace loc (word ++ [b])) (node :: spare) where
  shape := h.shape
  trimmed := by
    intro p n hp hne hpleaf
    by_cases hpw : p = word
    · subst hpw
      rw [unplace_ne loc (by simp), hword] at hp
      cases hp
      exact hparent hne hpleaf
    · exact h.trimmed htrim hp hne hpw hpleaf
  erased := entry_unplace t₁ loc (word ++ [b])
  entries := fun _ hp => h.entries hp
  record := h.record

/-- The rounds above a leaf whose parent had no value of its own. -/
theorem Detached.pruned_above (h : Detached t loc spare (word ++ [b]) node t₁)
    (hword : loc word = some up) (hblank : (t₁.heap up).value = noValue) {t' : RadixTree}
    {loc' : Placement} {spare' : List Ptr}
    (hpruned : Pruned t₁ (unplace loc (word ++ [b])) word t' loc' spare') :
    Pruned t loc (word ++ [b]) t' loc' spare' where
  shape := hpruned.shape
  trimmed := hpruned.trimmed
  erased := by rw [hpruned.entries _ (by simp), entry_unplace]
  entries := by
    intro p hp
    by_cases hpw : p = word
    · have hnone : entry t loc word = none := by
        rw [entry_of_some hword, if_pos]
        rw [← h.values]
        exact hblank
      rw [hpw, hpruned.erased, hnone]
    · rw [hpruned.entries p hpw, h.entries hp]
  record := hpruned.record.trans h.record

end Rounds

theorem run_prune_succ (t : RadixTree) (fuel : Nat) (node : Ptr) :
    EStateM.run (prune (fuel + 1) node) t =
      match (t.heap node).parent with
      | none => .error (.panic .nilDereference) t
      | some up =>
          if (t.detach node up).child up true ≠ none ∨
              (t.detach node up).child up false ≠ none then .ok () (t.detach node up)
          else if ((t.detach node up).heap up).value ≠ noValue then .ok () (t.detach node up)
          else if ((t.detach node up).heap up).parent = none then .ok () (t.detach node up)
          else EStateM.run (prune fuel up) (t.detach node up) := by
  rw [prune, EStateM.run_bind, EStateM.run_get]
  dsimp only
  cases (t.heap node).parent with
  | none => rfl
  | some up =>
      dsimp only
      rw [EStateM.run_bind, EStateM.run_set]
      simp only [run_ite, EStateM.run_pure]

/-- The pruning loop, started at a leaf, erases its word and stops at the first
word above it that is still needed. -/
theorem prune_spec {fuel : Nat} {word : List Bool} {b : Bool} {node : Ptr}
    (h : Shape t loc spare none) (hnode : loc (word ++ [b]) = some node)
    (hleaf : ∀ c, loc (word ++ [b] ++ [c]) = none)
    (htrim : ∀ p n, loc p = some n → p ≠ [] → p ≠ word ++ [b] →
      (∀ c, loc (p ++ [c]) = none) → (t.heap n).value ≠ noValue)
    (hfuel : word.length < fuel) :
    ∃ t' loc' spare', EStateM.run (prune fuel node) t = .ok () t' ∧
      Pruned t loc (word ++ [b]) t' loc' spare' := by
  -- over the fuel: each round goes one letter up, so the length of the word is enough
  induction fuel generalizing t loc spare word b node with
  | zero => omega
  | succ fuel ih =>
      cases hword : loc word with
      | none =>
          rw [h.closed b hword] at hnode
          cases hnode
      | some up =>
      have hdet := h.detach hword hnode hleaf
      rw [run_prune_succ, h.parent hword hnode]
      dsimp only
      set t₁ := t.detach node up
      have hword₁ : unplace loc (word ++ [b]) word = some up := by
        rw [unplace_ne loc (by simp), hword]
      by_cases hkids : ∀ c, unplace loc (word ++ [b]) (word ++ [c]) = none
      swap
      · -- the parent has another child
        rw [if_pos ((hdet.shape.hasChild_iff hword₁).mpr hkids)]
        exact ⟨t₁, _, _, rfl, hdet.pruned hword htrim fun _ hnone => absurd hnone hkids⟩
      rw [if_neg fun hsome => (hdet.shape.hasChild_iff hword₁).mp hsome hkids]
      by_cases hval : (t₁.heap up).value ≠ noValue
      · -- the parent has a value of its own
        rw [if_pos hval]
        exact ⟨t₁, _, _, rfl, hdet.pruned hword htrim fun _ _ => hval⟩
      rw [if_neg hval]
      by_cases hroot : (t₁.heap up).parent = none
      · -- the parent is the root
        rw [if_pos hroot]
        exact ⟨t₁, _, _, rfl, hdet.pruned hword htrim fun hne =>
          absurd ((hdet.shape.parent_eq_none_iff hword₁).mp hroot) hne⟩
      rw [if_neg hroot]
      -- the parent is a leaf without a value: go on with it
      have hne : word ≠ [] := fun hnil =>
        hroot ((hdet.shape.parent_eq_none_iff hword₁).mpr hnil)
      obtain ⟨init, c, hinit⟩ := List.eq_nil_or_concat word |>.resolve_left hne
      rw [List.concat_eq_append] at hinit
      subst hinit
      obtain ⟨t', loc', spare', hrun, hpruned⟩ := ih hdet.shape hword₁ hkids
        (fun _ _ hp hpne hpw hpleaf => hdet.trimmed htrim hp hpne hpw hpleaf)
        (by simp only [List.length_append, List.length_singleton] at hfuel; omega)
      exact ⟨t', loc', spare', hrun, hdet.pruned_above hword (not_not.mp hval) hpruned⟩

end Shape

/-! ## The tree as a table -/

/-- The tree is in shape, its leaves have values, and it stores the table. -/
def Represents (t : RadixTree) (table : Table Bool String) : Prop :=
  ∃ loc spare, Shape t loc spare none ∧ Trimmed t loc ∧ entry t loc = table

/-- The fresh tree is empty. -/
theorem represents_newRadixTree : Represents newRadixTree fun _ => none := by
  refine ⟨fun p => if p = [] then some 0 else none, [], ?_, ?_, ?_⟩
  · exact
      { root_some := rfl
        root := rfl
        rootParent := fun _ => rfl
        child := fun b _ _ => by cases b <;> simp [newRadixTree, RadixNode.blank, child]
        closed := fun _ _ => by simp
        injective := fun hp hq => by simp_all
        parent := fun _ hm => by simp at hm
        depth := fun hp => by
          obtain ⟨rfl, -⟩ : _ = [] ∧ _ := by simpa using hp
          exact Nat.zero_le 32
        allocated := fun hp => by simp_all [newRadixTree]
        freeHead := rfl
        freeChain := trivial
        freeNodup := List.nodup_nil
        freeAllocated := by simp
        freeDisjoint := by simp }
  · intro p n hp hne
    simp [hne] at hp
  · funext p
    by_cases hp : p = [] <;> simp [entry, hp, newRadixTree, RadixNode.blank]

namespace Represents

variable {t : RadixTree} {table : Table Bool String}

theorem setRecord (h : Represents t table) (record : GoMap String Bool) :
    Represents { t with record := record } table := by
  obtain ⟨loc, spare, hshape, htrim, hentry⟩ := h
  exact ⟨loc, spare, hshape.setRecord record, htrim, hentry⟩

theorem search_eq (h : Represents t table) (key : BitVec 32) :
    t.search key = some (matchFrom table noValue (addressBits key)) := by
  obtain ⟨loc, spare, hshape, -, rfl⟩ := h
  exact hshape.search_eq key

/-- A clean insertion writes one entry. -/
theorem insertPath (h : Represents t table) {root : Ptr} (hroot : t.root = some root)
    {bits : List Bool} (hdepth : bits.length ≤ 32) {value : String} (hvalue : value ≠ noValue)
    (hclean : CleanPath t (t.descendPath bits root).1 t.free) :
    Represents (t.insertPath bits root value) (Function.update table bits (some value)) ∧
      (t.insertPath bits root value).record = t.record := by
  obtain ⟨loc, spare, hshape, htrim, rfl⟩ := h
  obtain ⟨node, t₁, loc', spare', hinsert, hext⟩ :=
    hshape.insertPath_spec hroot hdepth value hclean
  rw [hinsert]
  refine ⟨⟨loc', spare', hext.shape.setValue _ value, ?_, ?_⟩, hext.record⟩
  · intro p n hp hne hleaf
    rw [heap_setValue_value]
    by_cases hpb : p = bits
    · subst hpb
      rw [hext.last] at hp
      rw [if_pos (Option.some.inj hp).symm]
      exact hvalue
    · -- another leaf was a leaf before, and kept its value
      have hn : n ≠ node := fun heq => hpb (hext.shape.injective hp (heq ▸ hext.last))
      rw [if_neg hn]
      obtain ⟨m, hm⟩ := Option.isSome_iff_exists.mp (hext.leaves p hpb (by simp [hp]) hleaf)
      obtain ⟨hm', hval⟩ := hext.kept p m hm
      rw [hm'] at hp
      cases hp
      rw [hval]
      refine htrim p n hm hne fun b => ?_
      cases hb : loc (p ++ [b]) with
      | none => rfl
      | some k =>
          have hk := (hext.kept _ k hb).1
          rw [hleaf b] at hk
          cases hk
  · rw [hext.shape.entry_setValue hext.last, if_neg hvalue, funext hext.entries]

theorem run_insert (h : Represents t table) (key : BitVec 32) {n : Nat} (hn : n ≤ 32)
    {value : String} (hvalue : value ≠ noValue) (hclean : CleanAdd t key n) :
    ∃ t', EStateM.run (insert key (netMask n) value) t = .ok () t' ∧
      Represents t' (Function.update table (networkBits key n) (some value)) ∧
      t'.record = t.record := by
  obtain ⟨root, hroot⟩ : ∃ root, t.root = some root := by
    obtain ⟨loc, spare, hshape, -, -⟩ := h
    exact Option.isSome_iff_exists.mp hshape.root_some
  refine ⟨_, RadixTree.run_insert t key hn value hroot, ?_⟩
  exact h.insertPath hroot (by rw [length_networkBits key hn]; exact hn) hvalue
    (hclean root hroot)

end Represents

/-- The root has a child, so that deleting the network of all addresses does not
prune it. -/
def RootHasChild (t : RadixTree) : Prop :=
  ∃ root ∈ t.root, t.child root true ≠ none ∨ t.child root false ≠ none

theorem run_delete_eq (t : RadixTree) (key mask : BitVec 32) :
    EStateM.run (delete key mask) t =
      match t.walk key mask 32 maxIpv4Bit t.root with
      | none => .ok false t
      | some node =>
          if t.child node true ≠ none ∨ t.child node false ≠ none then
            if (t.heap node).value ≠ noValue then .ok true (t.setValue node noValue)
            else .ok false t
          else
            match EStateM.run (prune (33 + 2 * t.next) node) t with
            | .ok _ t' => .ok true t'
            | .error e t' => .error e t' := by
  rw [delete, EStateM.run_bind, EStateM.run_get]
  dsimp only
  cases t.walk key mask 32 maxIpv4Bit t.root with
  | none => rfl
  | some node =>
      dsimp only
      rw [run_ite, run_ite]
      split
      · rfl
      · rw [EStateM.run_bind]
        cases EStateM.run (prune (33 + 2 * t.next) node) t <;> rfl

namespace Shape

variable {t t' : RadixTree} {loc : Placement} {spare : List Ptr} {key : BitVec 32} {n : Nat}
  {word : List Bool} {node : Ptr}

/-- A network without a node is not there. -/
theorem run_delete_missing (h : Shape t loc spare none) (hn : n ≤ 32)
    (hbits : networkBits key n = word) (hnode : loc word = none) :
    EStateM.run (delete key (netMask n)) t = .ok false t := by
  rw [run_delete_eq, h.walk_eq_loc key hn, hbits, hnode]

/-- An inner node loses its value, if it has one. -/
theorem run_delete_inner (h : Shape t loc spare none) (hn : n ≤ 32)
    (hbits : networkBits key n = word) (hnode : loc word = some node)
    (hkids : ¬ ∀ c, loc (word ++ [c]) = none) :
    EStateM.run (delete key (netMask n)) t =
      if (t.heap node).value ≠ noValue then .ok true (t.setValue node noValue)
      else .ok false t := by
  rw [run_delete_eq, h.walk_eq_loc key hn, hbits, hnode]
  dsimp only
  rw [if_pos ((h.hasChild_iff hnode).mpr hkids)]

/-- A leaf is pruned. -/
theorem run_delete_leaf (h : Shape t loc spare none) (hn : n ≤ 32)
    (hbits : networkBits key n = word) (hnode : loc word = some node)
    (hleaf : ∀ c, loc (word ++ [c]) = none)
    (hprune : EStateM.run (prune (33 + 2 * t.next) node) t = .ok () t') :
    EStateM.run (delete key (netMask n)) t = .ok true t' := by
  rw [run_delete_eq, h.walk_eq_loc key hn, hbits, hnode]
  dsimp only
  rw [if_neg fun hkids => (h.hasChild_iff hnode).mp hkids hleaf, hprune]

end Shape

namespace Represents

variable {t : RadixTree} {table : Table Bool String}

/-- A deletion erases one entry and returns whether it was there; the root itself
must not be pruned. -/
theorem run_delete_of (h : Represents t table) (key : BitVec 32) {n : Nat} (hn : n ≤ 32)
    (hroot : n = 0 → RootHasChild t) :
    ∃ t', EStateM.run (delete key (netMask n)) t =
        .ok (table (networkBits key n)).isSome t' ∧
      Represents t' (Function.update table (networkBits key n) none) ∧
      t'.record = t.record := by
  obtain ⟨loc, spare, hshape, htrim, rfl⟩ := h
  have hlen := length_networkBits key hn
  generalize hbits : networkBits key n = word at hlen ⊢
  cases hnode : loc word with
  | none =>
      -- the walk fell off the tree: no entry, and nothing changes
      have hentry : entry t loc word = none := entry_of_none hnode
      have hrun : EStateM.run (delete key (netMask n)) t = .ok false t :=
        hshape.run_delete_missing hn hbits hnode
      refine ⟨t, by rw [hrun, hentry]; rfl, ⟨loc, spare, hshape, htrim, ?_⟩, rfl⟩
      rw [← hentry, Function.update_eq_self]
  | some node =>
      by_cases hleaf : ∀ c, loc (word ++ [c]) = none
      swap
      · rw [hshape.run_delete_inner hn hbits hnode hleaf]
        by_cases hval : (t.heap node).value ≠ noValue
        · -- an inner node only loses its value
          rw [if_pos hval]
          have hentry : (entry t loc word).isSome = true := by
            rw [entry_of_some hnode, if_neg hval]
            rfl
          refine ⟨_, by rw [hentry], ⟨loc, spare, hshape.setValue node noValue, ?_, ?_⟩, rfl⟩
          · intro p m hp hne hpleaf
            have hm : m ≠ node := by
              rintro rfl
              exact hleaf (hshape.injective hp hnode ▸ hpleaf)
            rw [heap_setValue_value, if_neg hm]
            exact htrim p m hp hne hpleaf
          · rw [hshape.entry_setValue hnode, if_pos rfl]
        · -- an inner node without a value is no entry
          rw [if_neg hval]
          have hentry : entry t loc word = none := by
            rw [entry_of_some hnode, if_pos (not_not.mp hval)]
          refine ⟨t, by rw [hentry]; rfl, ⟨loc, spare, hshape, htrim, ?_⟩, rfl⟩
          rw [← hentry, Function.update_eq_self]
      · -- a leaf has a value, and is pruned
        have hword : word ≠ [] := by
          rintro rfl
          obtain ⟨root, hsome, hkids⟩ := hroot hlen.symm
          obtain rfl : root = node := Option.some.inj (hsome.symm.trans (hshape.root ▸ hnode))
          exact (hshape.hasChild_iff hnode).mp hkids hleaf
        have hentry : (entry t loc word).isSome = true := by
          rw [entry_of_some hnode, if_neg (htrim word node hnode hword hleaf)]
          rfl
        obtain ⟨init, b, hinit⟩ := List.eq_nil_or_concat word |>.resolve_left hword
        rw [List.concat_eq_append] at hinit
        subst hinit
        have hfuel : init.length < 33 + 2 * t.next := by
          simp only [List.length_append, List.length_singleton] at hlen
          omega
        obtain ⟨t', loc', spare', hrun, hpruned⟩ := hshape.prune_spec hnode hleaf
          (fun p m hp hne _ hl => htrim p m hp hne hl) hfuel
        refine ⟨t', by rw [hshape.run_delete_leaf hn hbits hnode hleaf hrun, hentry],
          ⟨loc', spare', hpruned.shape, hpruned.trimmed, ?_⟩, hpruned.record⟩
        funext p
        by_cases hp : p = init ++ [b]
        · rw [hp, Function.update_self, hpruned.erased]
        · rw [Function.update_of_ne hp, hpruned.entries p hp]

/-- A network of its own is never the root. -/
theorem run_delete (h : Represents t table) (key : BitVec 32) {n : Nat} (hpos : 1 ≤ n)
    (hn : n ≤ 32) :
    ∃ t', EStateM.run (delete key (netMask n)) t =
        .ok (table (networkBits key n)).isSome t' ∧
      Represents t' (Function.update table (networkBits key n) none) ∧
      t'.record = t.record :=
  h.run_delete_of key hn fun hzero => by omega

end Represents
end Acl
end VermouthGateway
