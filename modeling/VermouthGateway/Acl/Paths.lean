import VermouthGateway.Acl.RadixTree

/-!
# The loops of the tree as walks along words

A network `a.b.c.d/n` is the word of the first `n` bits of its address.  The
loops of `insert`, `delete` and `search` shift a single bit down the address
and test it against the mask; this file replaces each of them by a recursion
along the word, so that the rest of the development never meets a shift.

* `addressBits` and `networkBits` are the words of an address and a network.
* `descendPath`, `extendPath` and `walkPath` are the loops along a word.
* `descend_eq`, `extend_eq` and `walk_eq` say that they are the loops.
-/

namespace VermouthGateway
namespace Acl

open Go

/-- The bits of an address, most significant first. -/
def addressBits (key : BitVec 32) : List Bool :=
  (List.range 32).map key.getMsbD

/-- The word of the network with the first `n` bits of `key`. -/
def networkBits (key : BitVec 32) (n : Nat) : List Bool :=
  (addressBits key).take n

@[simp] theorem length_addressBits (key : BitVec 32) : (addressBits key).length = 32 := by
  simp [addressBits]

theorem length_networkBits (key : BitVec 32) {n : Nat} (hn : n ≤ 32) :
    (networkBits key n).length = n := by
  simp [networkBits, hn]

theorem networkBits_drop (key : BitVec 32) {n i : Nat} (hn : n ≤ 32) (hi : i < n) :
    (networkBits key n).drop i = key.getMsbD i :: (networkBits key n).drop (i + 1) := by
  have hlen : i < (networkBits key n).length := by rw [length_networkBits key hn]; exact hi
  rw [List.drop_eq_getElem_cons hlen]
  simp [networkBits, addressBits]

theorem networkBits_drop_of_le (key : BitVec 32) {n i : Nat} (hn : n ≤ 32) (hi : n ≤ i) :
    (networkBits key n).drop i = [] := by
  apply List.drop_eq_nil_of_le
  rw [length_networkBits key hn]
  exact hi

/-- Testing the shifted bit against the address reads one letter of its word. -/
theorem and_bit_ne_zero (key : BitVec 32) {i : Nat} (hi : i < 32) :
    (key &&& (maxIpv4Bit >>> i) != 0) = key.getMsbD i := by
  have hbit : maxIpv4Bit >>> i = BitVec.twoPow 32 (31 - i) := by
    have hall : ∀ j : Fin 32, maxIpv4Bit >>> j.val = BitVec.twoPow 32 (31 - j.val) := by
      decide
    exact hall ⟨i, hi⟩
  rw [hbit, BitVec.and_twoPow, BitVec.getMsbD_eq_getLsbD]
  have hindex : 32 - 1 - i = 31 - i := rfl
  rw [hindex]
  cases key.getLsbD (31 - i) with
  | false => simp
  | true =>
      have hnonzero : BitVec.twoPow 32 (31 - i) ≠ 0#32 := by
        have hall : ∀ j : Fin 32, BitVec.twoPow 32 (31 - j.val) ≠ 0#32 := by decide
        exact hall ⟨i, hi⟩
      simpa [hi] using hnonzero

/-- Testing the shifted bit against a mask tells whether the mask reaches it. -/
theorem bit_and_netMask {n i : Nat} (hn : n ≤ 32) (hi : i ≤ 32) :
    (maxIpv4Bit >>> i) &&& RadixTree.netMask n = 0 ↔ n ≤ i := by
  have hall : ∀ (m j : Fin 33),
      (maxIpv4Bit >>> j.val) &&& RadixTree.netMask m.val = 0 ↔ m.val ≤ j.val := by
    decide +kernel
  exact hall ⟨n, by omega⟩ ⟨i, by omega⟩

theorem shift_next (i : Nat) : (maxIpv4Bit >>> i) >>> 1 = maxIpv4Bit >>> (i + 1) :=
  (BitVec.shiftRight_add maxIpv4Bit i 1).symm

namespace RadixTree

/-- The first loop of `insert` along a word: the letters that are left, the
node reached and its missing or reached child. -/
def descendPath (t : RadixTree) : List Bool → Ptr → List Bool × Ptr × Option Ptr
  | [], node => ([], node, some node)
  | b :: bits, node =>
      match t.child node b with
      | none => (b :: bits, node, none)
      | some next => descendPath t bits next

/-- The second loop of `insert` along a word. -/
def extendPath : List Bool → Ptr → RadixTree → Ptr × RadixTree
  | [], node, t => (node, t)
  | b :: bits, node, t => extendPath bits (t.attach node b).1 (t.attach node b).2

/-- The walk of `delete` along a word. -/
def walkPath (t : RadixTree) : List Bool → Option Ptr → Option Ptr
  | _, none => none
  | [], some node => some node
  | b :: bits, some node => walkPath t bits (t.child node b)

theorem length_descendPath_le (t : RadixTree) (bits : List Bool) (node : Ptr) :
    (t.descendPath bits node).1.length ≤ bits.length := by
  induction bits generalizing node with
  | nil => simp [descendPath]
  | cons b bits ih =>
      simp only [descendPath]
      split
      · exact Nat.le_refl _
      · exact (ih _).trans (Nat.le_succ _)

theorem descend_eq (t : RadixTree) (key : BitVec 32) {n : Nat} (hn : n ≤ 32)
    {fuel i : Nat} (hfuel : fuel + i = 32) (node : Ptr) (hi : i ≤ n) :
    t.descend key (netMask n) fuel (maxIpv4Bit >>> i) node =
      let (rest, last, next) := t.descendPath ((networkBits key n).drop i) node
      (maxIpv4Bit >>> (n - rest.length), last, next) := by
  -- over the fuel, which is what is left of the 32 bits after `i` of them
  induction fuel generalizing i node with
  | zero =>
      have hi32 : i = 32 := by omega
      rw [networkBits_drop_of_le key hn (by omega)]
      have hn32 : n = i := by omega
      simp [descend, descendPath, hn32]
  | succ fuel ih =>
      rcases Nat.lt_or_ge i n with hlt | hge
      · have hmask : ¬ (maxIpv4Bit >>> i) &&& netMask n = 0 := by
          rw [bit_and_netMask hn (by omega)]
          omega
        rw [networkBits_drop key hn hlt]
        simp only [descend, if_neg hmask, descendPath, and_bit_ne_zero key (by omega : i < 32)]
        cases hchild : t.child node (key.getMsbD i) with
        | none =>
            have hrest : ((networkBits key n).drop (i + 1)).length = n - (i + 1) := by
              rw [List.length_drop, length_networkBits key hn]
            -- the `break` leaves `bit` where it is: it is read back from the length of the rest
            have hback : n - (n - (i + 1) + 1) = i := by omega
            simp only [List.length_cons, hrest, hback]
        | some next =>
            simp only [shift_next]
            exact ih (by omega) next (by omega)
      · have hmask : (maxIpv4Bit >>> i) &&& netMask n = 0 :=
          (bit_and_netMask hn (by omega)).mpr hge
        have hin : i = n := by omega
        subst hin
        rw [networkBits_drop_of_le key hn hge]
        simp only [descend, if_pos hmask, descendPath, List.length_nil, Nat.sub_zero]

theorem extend_eq (key : BitVec 32) {n : Nat} (hn : n ≤ 32) {fuel i : Nat}
    (hfuel : n ≤ fuel + i) (hi : i ≤ 32) (node : Ptr) (t : RadixTree) :
    extend key (netMask n) fuel (maxIpv4Bit >>> i) node t =
      extendPath ((networkBits key n).drop i) node t := by
  induction fuel generalizing i node t with
  | zero =>
      rw [networkBits_drop_of_le key hn (by omega)]
      rfl
  | succ fuel ih =>
      rcases Nat.lt_or_ge i n with hlt | hge
      · have hmask : ¬ (maxIpv4Bit >>> i) &&& netMask n = 0 := by
          rw [bit_and_netMask hn hi]
          omega
        rw [networkBits_drop key hn hlt]
        simp only [extend, if_neg hmask, extendPath, and_bit_ne_zero key (by omega : i < 32),
          shift_next]
        exact ih (i := i + 1) (by omega) (by omega) _ _
      · have hmask : (maxIpv4Bit >>> i) &&& netMask n = 0 :=
          (bit_and_netMask hn hi).mpr hge
        rw [networkBits_drop_of_le key hn hge]
        simp only [extend, if_pos hmask, extendPath]

theorem walk_eq (t : RadixTree) (key : BitVec 32) {n : Nat} (hn : n ≤ 32)
    {fuel i : Nat} (hfuel : fuel + i = 32) (node : Option Ptr) :
    t.walk key (netMask n) fuel (maxIpv4Bit >>> i) node =
      t.walkPath ((networkBits key n).drop i) node := by
  induction fuel generalizing i node with
  | zero =>
      rw [networkBits_drop_of_le key hn (by omega)]
      cases node <;> rfl
  | succ fuel ih =>
      cases node with
      | none => simp [walk, walkPath]
      | some p =>
          rcases Nat.lt_or_ge i n with hlt | hge
          · have hmask : ¬ (maxIpv4Bit >>> i) &&& netMask n = 0 := by
              rw [bit_and_netMask hn (by omega)]
              omega
            rw [networkBits_drop key hn hlt]
            simp only [walk, if_neg hmask, walkPath, and_bit_ne_zero key (by omega : i < 32),
              shift_next]
            exact ih (i := i + 1) (by omega) _
          · have hmask : (maxIpv4Bit >>> i) &&& netMask n = 0 :=
              (bit_and_netMask hn (by omega)).mpr hge
            rw [networkBits_drop_of_le key hn hge]
            simp only [walk, if_pos hmask, walkPath]

/-- `insert` along the word of its network. -/
def insertPath (t : RadixTree) (bits : List Bool) (root : Ptr) (value : String) : RadixTree :=
  let (rest, last, _) := t.descendPath bits root
  let (node, t) := extendPath rest last t
  t.setValue node value

/-- The letters left over are the end of the word. -/
theorem descendPath_rest (t : RadixTree) (bits : List Bool) (node : Ptr) :
    (t.descendPath bits node).1 =
      bits.drop (bits.length - (t.descendPath bits node).1.length) := by
  induction bits generalizing node with
  | nil => simp [descendPath]
  | cons b bits ih =>
      simp only [descendPath]
      split
      · simp
      · next next _ =>
          have hle := t.length_descendPath_le bits next
          have hsucc : (b :: bits).length - (t.descendPath bits next).1.length =
              bits.length - (t.descendPath bits next).1.length + 1 := by
            rw [List.length_cons]
            omega
          rw [hsucc, List.drop_succ_cons]
          exact ih next

/-- When the walk ends on a node, no letter is left over. -/
theorem descendPath_next (t : RadixTree) (bits : List Bool) (node : Ptr)
    (hnext : (t.descendPath bits node).2.2.isSome = true) :
    (t.descendPath bits node).1 = [] := by
  induction bits generalizing node with
  | nil => simp [descendPath]
  | cons b bits ih =>
      simp only [descendPath] at hnext ⊢
      split
      · next hchild => simp [hchild] at hnext
      · next next hchild =>
          rw [hchild] at hnext
          exact ih next hnext

theorem insertBelow_eq (t : RadixTree) (key : BitVec 32) {n : Nat} (hn : n ≤ 32)
    (value : String) (root : Ptr) :
    t.insertBelow key (netMask n) value root =
      t.insertPath (networkBits key n) root value := by
  have hdescend := t.descend_eq key hn (show 32 + 0 = 32 from rfl) root (Nat.zero_le n)
  rw [BitVec.ushiftRight_zero, List.drop_zero] at hdescend
  have hlen := length_networkBits key hn
  have hshort := t.length_descendPath_le (networkBits key n) root
  have hrest := t.descendPath_rest (networkBits key n) root
  have hempty := t.descendPath_next (networkBits key n) root
  rcases hwalk : t.descendPath (networkBits key n) root with ⟨rest, last, next⟩
  rw [hwalk] at hdescend hshort hrest hempty
  simp only [hlen] at hdescend hshort hrest hempty
  have hextend := extend_eq key hn
    (show n ≤ 32 + (n - rest.length) by omega) (by omega) last t
  rw [← hrest] at hextend
  rw [insertBelow, insertPath, hdescend, hwalk]
  by_cases hsome : next.isSome = true
  · rw [hempty hsome]
    simp only [hsome, if_true, extendPath]
  · simp only [hsome, hextend, Bool.false_eq_true, if_false]

theorem run_insert_eq (t : RadixTree) (key mask : BitVec 32) (value : String) :
    EStateM.run (insert key mask value) t =
      match t.root with
      | none => .error (.panic .nilDereference) t
      | some root => .ok () (t.insertBelow key mask value root) := by
  rw [insert, EStateM.run_bind, EStateM.run_get]
  dsimp only
  cases t.root <;> rfl

theorem run_insert (t : RadixTree) (key : BitVec 32) {n : Nat} (hn : n ≤ 32)
    (value : String) {root : Ptr} (hroot : t.root = some root) :
    EStateM.run (insert key (netMask n) value) t =
      .ok () (t.insertPath (networkBits key n) root value) := by
  rw [run_insert_eq, hroot, ← insertBelow_eq t key hn]

/-- The loop of `search` while there are letters left: the value carried along
is the last one seen. -/
theorem searchLoop_eq (t : RadixTree) (key : BitVec 32) {fuel i : Nat}
    (hi : i < 32) (node : Ptr) (value : String) :
    t.searchLoop key (fuel + 1) (maxIpv4Bit >>> i) (some node) value =
      t.searchLoop key fuel (maxIpv4Bit >>> (i + 1)) (t.child node (key.getMsbD i))
        (if (t.heap node).value ≠ noValue then (t.heap node).value else value) := by
  simp only [searchLoop, and_bit_ne_zero key hi, shift_next]

/-- After 32 letters the loop goes left. -/
theorem searchLoop_left (t : RadixTree) (key : BitVec 32) {fuel i : Nat}
    (hi : 32 ≤ i) (node : Ptr) (value : String) :
    t.searchLoop key (fuel + 1) (maxIpv4Bit >>> i) (some node) value =
      t.searchLoop key fuel (maxIpv4Bit >>> (i + 1)) (t.child node false)
        (if (t.heap node).value ≠ noValue then (t.heap node).value else value) := by
  have hzero : maxIpv4Bit >>> i = 0#32 := BitVec.ushiftRight_eq_zero hi
  have hside : (key &&& maxIpv4Bit >>> i != 0) = false := by simp [hzero]
  simp only [searchLoop, hside, shift_next]

end RadixTree
end Acl
end VermouthGateway
