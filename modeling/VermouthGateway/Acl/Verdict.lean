import VermouthGateway.Acl.Calls
import VermouthGateway.Acl.History

/-!
# The verdict on an address

`AccessControl` reads the address before the colon of a text and looks it up;
a black list says who is forbidden through its record.  `Enforces` compares the
two on every address.

* `accessControl_writes`: the verdict is a lookup of the address.
* `prefix_iff_masked`: a network contains an address when they agree under its
  mask.
* `Enforces.of_represents`: it is enough that the tree stores the recorded
  networks.
-/

namespace VermouthGateway
namespace Acl

open Go LongestMatch
open RadixTree

/-- The text writes the dotted quad of an address, a port may follow. -/
def Writes (text : String) (address : BitVec 32) : Prop :=
  ∃ a b c d rest : List Char, ∃ va vb vc vd : Nat,
    text.toList = Utils.dotted a b c d ++ rest ∧ (rest = [] ∨ rest.head? = some ':') ∧
    (Numeral a va ∧ va ≤ 255) ∧ (Numeral b vb ∧ vb ≤ 255) ∧
    (Numeral c vc ∧ vc ≤ 255) ∧ (Numeral d vd ∧ vd ≤ 255) ∧
    address = BitVec.ofNat 32 (va * 2 ^ 24 + vb * 2 ^ 16 + vc * 2 ^ 8 + vd)

/-- The network of an entry contains an address. -/
def Contains (entry : String) (key : BitVec 32) : Prop :=
  ∃ ip n, network entry = .ok (some (ip, n)) ∧ key &&& netMask n = ip &&& netMask n

/-- The tree forbids exactly the addresses of the recorded networks. -/
def Enforces (t : RadixTree) : Prop :=
  ∀ text key, Writes text key → ∃ verdict, t.accessControl text = .ok verdict ∧
    (verdict = true ↔ ∃ entry ∈ t.record, Contains entry key)

theorem Spells.network_eq {text : String} {address : BitVec 32} {cidr : Nat}
    (h : Spells text address cidr) (hle : cidr ≤ 32) :
    network text = .ok (some (address, cidr)) := by
  obtain ⟨host, mask, hpieces, hhost, hmask⟩ := h.parses hle
  have hrange : ¬ ((cidr : Int) < 0 ∨ (cidr : Int) > 32) := by omega
  rw [network, hpieces]
  simp only [List.headD_cons, hhost, List.getElem?_cons_succ, List.getElem?_cons_zero, hmask,
    if_neg hrange, Int.toNat_natCast]

theorem head_split_dotted {a b c d rest : List Char} {va vb vc vd : Nat}
    (ha : Numeral a va) (hb : Numeral b vb) (hc : Numeral c vc) (hd : Numeral d vd)
    (hrest : rest = [] ∨ rest.head? = some ':') :
    (split (String.ofList (Utils.dotted a b c d ++ rest)) ':').headD "" =
      String.ofList (Utils.dotted a b c d) := by
  have hcolon : ':' ∉ Utils.dotted a b c d := by
    simp only [Utils.dotted, List.mem_append, List.mem_cons, not_or]
    exact ⟨ha.notMem (by decide), by decide, hb.notMem (by decide), by decide,
      hc.notMem (by decide), by decide, hd.notMem (by decide)⟩
  rw [split, String.toList_ofList]
  cases rest with
  | nil =>
      rw [List.append_nil, splitChars_of_notMem hcolon]
      rfl
  | cons colon port =>
      obtain rfl : colon = ':' := by simpa using hrest
      rw [splitChars_append hcolon]
      rfl

/-- The verdict on an address is whether its lookup finds a value. -/
theorem accessControl_writes {text : String} {key : BitVec 32} (h : Writes text key)
    (t : RadixTree) :
    t.accessControl text =
      match t.search key with
      | none => .error .diverged
      | some value => .ok (value != noValue) := by
  obtain ⟨a, b, c, d, rest, va, vb, vc, vd, htext, hrest, ⟨ha, hva⟩, ⟨hb, hvb⟩, ⟨hc, hvc⟩,
    ⟨hd, hvd⟩, rfl⟩ := h
  have htext : text = String.ofList (Utils.dotted a b c d ++ rest) := by
    rw [← htext, String.ofList_toList]
  rw [accessControl, htext, head_split_dotted ha hb hc hd hrest, searchText,
    Utils.inetToi_dotted ha hb hc hd hva hvb hvc hvd]
  show (match t.search _ with
    | none => Except.error Halt.diverged
    | some value => Except.ok value) >>= _ = _
  rw [Option.getD_some]
  cases t.search (BitVec.ofNat 32 (va * 2 ^ 24 + vb * 2 ^ 16 + vc * 2 ^ 8 + vd)) <;> rfl

/-- A mask of length `n` keeps the first `n` bits. -/
theorem getMsbD_netMask {n i : Nat} (hn : n ≤ 32) (hi : i < 32) :
    (netMask n).getMsbD i = decide (i < n) := by
  have hall : ∀ (m : Fin 33) (j : Fin 32), (netMask m.val).getMsbD j.val =
      decide (j.val < m.val) := by
    decide +kernel
  exact hall ⟨n, by omega⟩ ⟨i, hi⟩

/-- The word of a network is a prefix of an address when their first bits
agree. -/
theorem prefix_iff_bits {ip key : BitVec 32} {n : Nat} (hn : n ≤ 32) :
    networkBits ip n <+: addressBits key ↔ ∀ i < n, key.getMsbD i = ip.getMsbD i := by
  rw [List.prefix_iff_eq_take, length_networkBits ip hn, networkBits]
  constructor
  · intro htake i hi
    have hget := congrArg (fun word => word[i]?) htake
    simpa [addressBits, hi, lt_of_lt_of_le hi hn] using hget.symm
  · intro hall
    apply List.ext_getElem?
    intro i
    by_cases hi : i < n
    · simp [addressBits, hi, lt_of_lt_of_le hi hn, hall i hi]
    · simp [hi]

/-- The word of a network is a prefix of an address when the two agree under
the mask. -/
theorem prefix_iff_masked {ip key : BitVec 32} {n : Nat} (hn : n ≤ 32) :
    networkBits ip n <+: addressBits key ↔ key &&& netMask n = ip &&& netMask n := by
  rw [prefix_iff_bits hn]
  constructor
  · intro hall
    apply BitVec.eq_of_getMsbD_eq
    intro i hi
    rw [BitVec.getMsbD_and, BitVec.getMsbD_and, getMsbD_netMask hn hi]
    by_cases hin : i < n
    · rw [hall i hin]
    · simp [hin]
  · intro hmask i hi
    have hget := congrArg (fun word => word.getMsbD i) hmask
    simpa [getMsbD_netMask hn (lt_of_lt_of_le hi hn), hi] using hget

/-- The same, as arithmetic on the two addresses. -/
theorem prefix_iff_div {ip key : BitVec 32} {n : Nat} (hn : n ≤ 32) :
    networkBits ip n <+: addressBits key ↔
      key.toNat / 2 ^ (32 - n) = ip.toNat / 2 ^ (32 - n) := by
  have hshift : key.toNat / 2 ^ (32 - n) = ip.toNat / 2 ^ (32 - n) ↔
      key >>> (32 - n) = ip >>> (32 - n) := by
    rw [← BitVec.toNat_inj, BitVec.toNat_ushiftRight, BitVec.toNat_ushiftRight,
      Nat.shiftRight_eq_div_pow, Nat.shiftRight_eq_div_pow]
  rw [prefix_iff_bits hn, hshift]
  constructor
  · intro hall
    apply BitVec.eq_of_getLsbD_eq
    intro j _
    rw [BitVec.getLsbD_ushiftRight, BitVec.getLsbD_ushiftRight]
    by_cases hj : j < n
    · -- bit `j` of what is left is letter `n - 1 - j` of the word
      have hbit := hall (n - 1 - j) (by omega)
      rw [BitVec.getMsbD_eq_getLsbD, BitVec.getMsbD_eq_getLsbD] at hbit
      have hindex : 32 - 1 - (n - 1 - j) = 32 - n + j := by omega
      have hinside : n - 1 - j < 32 := by omega
      simpa [hindex, hinside] using hbit
    · rw [BitVec.getLsbD_of_ge key _ (by omega), BitVec.getLsbD_of_ge ip _ (by omega)]
  · intro hall i hi
    have hbit := congrArg (fun word => word.getLsbD (n - 1 - i)) hall
    have hindex : 32 - n + (n - 1 - i) = 32 - 1 - i := by omega
    simp only [BitVec.getLsbD_ushiftRight, hindex] at hbit
    rw [BitVec.getMsbD_eq_getLsbD, BitVec.getMsbD_eq_getLsbD, hbit]

/-- A lookup finds a value when the table has one on a prefix of the address. -/
theorem Represents.search_cases {t : RadixTree} {table : Table Bool String}
    (h : Represents t table) (hvalues : ∀ word value, table word = some value → value ≠ noValue)
    (key : BitVec 32) :
    ∃ value, t.search key = some value ∧
      (value ≠ noValue ↔ ∃ word, word <+: addressBits key ∧ (table word).isSome) := by
  refine ⟨_, h.search_eq key, ?_⟩
  rcases selects_matchFrom table (addressBits key) with ⟨word, hword, hentry, -⟩ | ⟨hnone, hall⟩
  · exact ⟨fun _ => ⟨word, hword, by rw [hentry]; rfl⟩, fun _ => hvalues word _ hentry⟩
  · rw [hnone]
    refine ⟨fun hne => absurd rfl hne, ?_⟩
    rintro ⟨word, hword, hsome⟩
    rw [hall word hword] at hsome
    cases hsome

/-- A tree that stores a value on a word exactly when it is recorded enforces
its record. -/
theorem Enforces.of_represents {t : RadixTree} {table : Table Bool String}
    (h : Represents t table) (hvalues : ∀ word value, table word = some value → value ≠ noValue)
    (hcover : ∀ key, (∃ word, word <+: addressBits key ∧ (table word).isSome) ↔
      ∃ entry ∈ t.record, Contains entry key) : Enforces t := by
  intro text key htext
  obtain ⟨value, hsearch, hvalue⟩ := h.search_cases hvalues key
  rw [accessControl_writes htext, hsearch]
  refine ⟨_, rfl, ?_⟩
  rw [← hcover key, bne_iff_ne, hvalue]

theorem enforces_newRadixTree : Enforces newRadixTree := by
  refine Enforces.of_represents represents_newRadixTree (fun _ _ h => nomatch h) fun key => ?_
  constructor
  · rintro ⟨word, -, hsome⟩
    cases hsome
  · rintro ⟨entry, hentry, -⟩
    exact absurd hentry Finmap.notMem_empty

end Acl
end VermouthGateway
