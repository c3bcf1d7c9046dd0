import VermouthGateway.Go.Segments
import VermouthGateway.Utils.Net

/-!
# What the address parsers accept

`InetToi` and `ValidIPAddress` both cut a text at its dots and hand the groups
to `Atoi`, which takes a sign.  `InetToi` looks at nothing else.

* `inetToi_error_iff`, `inetToi_some_iff`: a fifth integer is a fault, and up
  to four integers are an address.
* `Ipv4` and `Ipv6` are the grammars of the two formats.
* `classifies_iff`: `ValidIPAddress` decides them but for a quad in which a
  group has a sign.
-/

namespace VermouthGateway
namespace Utils

open Go

/-! ## `InetToi` -/

/-- `k` more groups may follow when the next one is shifted by `8 * k - 8`. -/
theorem inetToiLoop_error_iff (segs : List String) (k : Nat) (ret : BitVec 32) :
    (∃ e, inetToiLoop segs (8 * (k : Int) - 8) ret = .error e) ↔
      k < segs.length ∧ ∀ g ∈ segs.take (k + 1), (atoi g).isSome := by
  induction segs generalizing k ret with
  | nil => simp [inetToiLoop]
  | cons g segs ih =>
      rw [inetToiLoop]
      cases hg : atoi g with
      | none => simp [hg]
      | some v =>
          cases k with
          | zero => simp [hg]
          | succ k =>
              have hpos : ¬ (8 * ((k + 1 : Nat) : Int) - 8 < 0) := by omega
              have hnext : (8 * ((k + 1 : Nat) : Int) - 8 - 8) = 8 * (k : Int) - 8 := by omega
              simp only [if_neg hpos, hnext, ih, List.length_cons, Nat.add_lt_add_iff_right,
                List.take_succ_cons, List.forall_mem_cons, hg, Option.isSome_some, true_and]

theorem inetToiLoop_some_iff (segs : List String) (k : Nat) (ret : BitVec 32) :
    (∃ ip, inetToiLoop segs (8 * (k : Int) - 8) ret = .ok (some ip)) ↔
      segs.length ≤ k ∧ ∀ g ∈ segs, (atoi g).isSome := by
  induction segs generalizing k ret with
  | nil => simp [inetToiLoop]
  | cons g segs ih =>
      rw [inetToiLoop]
      cases hg : atoi g with
      | none => simp [hg]
      | some v =>
          cases k with
          | zero => simp
          | succ k =>
              have hpos : ¬ (8 * ((k + 1 : Nat) : Int) - 8 < 0) := by omega
              have hnext : (8 * ((k + 1 : Nat) : Int) - 8 - 8) = 8 * (k : Int) - 8 := by omega
              simp only [if_neg hpos, hnext, ih, List.length_cons, Nat.add_le_add_iff_right,
                List.forall_mem_cons, hg, Option.isSome_some, true_and]

/-- A fifth integer is shifted by a negative count. -/
theorem inetToi_error_iff (ip : String) :
    (∃ e, inetToi ip = .error e) ↔
      5 ≤ (split ip '.').length ∧ ∀ g ∈ (split ip '.').take 5, (atoi g).isSome :=
  inetToiLoop_error_iff (split ip '.') 4 0

theorem inetToi_some_iff (ip : String) :
    (∃ address, inetToi ip = .ok (some address)) ↔
      (split ip '.').length ≤ 4 ∧ ∀ g ∈ split ip '.', (atoi g).isSome :=
  inetToiLoop_some_iff (split ip '.') 4 0

/-! ## Dotted quads as texts -/

theorem split_dotted {q : String} {a b c d : List Char} (h : q.toList = dotted a b c d)
    (ha : '.' ∉ a) (hb : '.' ∉ b) (hc : '.' ∉ c) (hd : '.' ∉ d) :
    split q '.' = [String.ofList a, String.ofList b, String.ofList c, String.ofList d] := by
  rw [split, h, dotted, splitChars_append ha, splitChars_append hb, splitChars_append hc,
    splitChars_of_notMem hd]
  rfl

/-- Four groups are joined by three dots. -/
theorem dotted_of_split {q : String} (h : (split q '.').length = 4) :
    ∃ a b c d : List Char, q.toList = dotted a b c d ∧
      split q '.' = [String.ofList a, String.ofList b, String.ofList c, String.ofList d] := by
  rw [split, List.length_map] at h
  obtain ⟨a, b, c, d, hpieces⟩ := List.length_eq_four.mp h
  have hjoin := joinSegments_splitChars '.' q.toList
  rw [hpieces] at hjoin
  refine ⟨a, b, c, d, ?_, by rw [split, hpieces]; rfl⟩
  simpa [dotted] using hjoin.symm

/-! ## The two formats -/

/-- A decimal octet without a superfluous leading zero. -/
structure Octet (cs : List Char) (v : Nat) : Prop where
  numeral : Numeral cs v
  le : v ≤ 255
  canonical : 1 < cs.length → cs.head? ≠ some '0'

/-- The text is the dotted quad of an address. -/
def Ipv4 (q : String) (address : BitVec 32) : Prop :=
  ∃ a b c d : List Char, ∃ va vb vc vd : Nat, q.toList = dotted a b c d ∧
    Octet a va ∧ Octet b vb ∧ Octet c vc ∧ Octet d vd ∧
    address = BitVec.ofNat 32 (va * 2 ^ 24 + vb * 2 ^ 16 + vc * 2 ^ 8 + vd)

/-- One to four hexadecimal digits. -/
structure HexGroup (cs : List Char) : Prop where
  pos : 1 ≤ cs.length
  le : cs.length ≤ 4
  digits : ∀ c ∈ cs, c ∈ "0123456789abcdefABCDEF".toList

/-- The text is eight groups with a colon between them. -/
def Ipv6 (q : String) : Prop :=
  ∃ groups : List (List Char), groups.length = 8 ∧ (∀ g ∈ groups, HexGroup g) ∧
    ':' :: q.toList = joinSegments ':' groups

/-- `ValidIPAddress` decides the two formats, and `InetToi` reads what it calls
an IPv4 address. -/
structure Classifies (q : String) : Prop where
  ipv4 : validIPAddress q = "IPv4" ↔ ∃ address, Ipv4 q address
  ipv6 : validIPAddress q = "IPv6" ↔ Ipv6 q
  neither : validIPAddress q ≠ "IPv4" → validIPAddress q ≠ "IPv6" → validIPAddress q = "Neither"
  value : validIPAddress q = "IPv4" → ∃ address, Ipv4 q address ∧ inetToi q = .ok (some address)

/-- Four groups that are integers up to 255 without a superfluous zero, and one of
them has a sign. -/
def SignedQuad (q : String) : Prop :=
  (split q '.').length = 4 ∧
    (∀ g ∈ split q '.', (∃ v ∈ atoi g, v ≤ 255) ∧ ¬ (1 < g.length ∧ g.front = '0')) ∧
    ∃ g ∈ split q '.', Signed g

theorem validDecimalGroup_iff (g : String) :
    validDecimalGroup g = true ↔
      (∃ v ∈ atoi g, v ≤ 255) ∧ ¬ (1 < g.length ∧ g.front = '0') := by
  rw [validDecimalGroup, Bool.and_eq_true, Bool.not_eq_eq_eq_not, Bool.not_true,
    ← Bool.decide_and, decide_eq_false_iff_not, and_comm]
  refine and_congr ?_ Iff.rfl
  cases atoi g <;> simp

theorem front_eq_zero_iff (g : String) : g.front = '0' ↔ g.toList.head? = some '0' := by
  rw [String.front_eq, String.front?_eq]
  cases g.toList with
  | nil => simp
  | cons c cs => simp

/-- A group that is accepted without a sign is an octet. -/
theorem exists_octet_iff (g : String) :
    (∃ v, Octet g.toList v) ↔ validDecimalGroup g = true ∧ ¬ Signed g := by
  rw [validDecimalGroup_iff, front_eq_zero_iff, String.length_toList.symm]
  constructor
  · rintro ⟨v, hnum, hle, hzero⟩
    have hatoi := hnum.atoi_eq (show v < 2 ^ 63 by omega)
    rw [String.ofList_toList] at hatoi
    exact ⟨⟨⟨v, hatoi, by omega⟩, fun h => hzero h.1 h.2⟩, hnum.not_signed⟩
  · rintro ⟨⟨⟨n, hatoi, hle⟩, hzero⟩, hsign⟩
    obtain ⟨v, rfl, hnum⟩ := numeral_of_atoi hatoi hsign
    exact ⟨v, hnum, by omega, fun hlen hhead => hzero ⟨hlen, hhead⟩⟩

theorem notMem_of_octet {cs : List Char} {v : Nat} (h : Octet cs v) : '.' ∉ cs :=
  h.numeral.notMem (by decide)

/-- The dotted quads are the four groups that are accepted without a sign. -/
theorem exists_ipv4_iff (q : String) :
    (∃ address, Ipv4 q address) ↔ (split q '.').length = 4 ∧
      ∀ g ∈ split q '.', validDecimalGroup g = true ∧ ¬ Signed g := by
  simp only [← exists_octet_iff]
  constructor
  · rintro ⟨address, a, b, c, d, va, vb, vc, vd, htext, ha, hb, hc, hd, -⟩
    rw [split_dotted htext (notMem_of_octet ha) (notMem_of_octet hb) (notMem_of_octet hc)
      (notMem_of_octet hd)]
    refine ⟨rfl, ?_⟩
    simp only [List.forall_mem_cons, String.toList_ofList]
    exact ⟨⟨va, ha⟩, ⟨vb, hb⟩, ⟨vc, hc⟩, ⟨vd, hd⟩, by simp⟩
  · rintro ⟨hlen, hgroups⟩
    obtain ⟨a, b, c, d, htext, hsplit⟩ := dotted_of_split hlen
    rw [hsplit] at hgroups
    simp only [List.forall_mem_cons, String.toList_ofList] at hgroups
    obtain ⟨⟨va, ha⟩, ⟨vb, hb⟩, ⟨vc, hc⟩, ⟨vd, hd⟩, -⟩ := hgroups
    exact ⟨_, a, b, c, d, va, vb, vc, vd, htext, ha, hb, hc, hd, rfl⟩

theorem inetToi_ipv4 {q : String} {address : BitVec 32} (h : Ipv4 q address) :
    inetToi q = .ok (some address) := by
  obtain ⟨a, b, c, d, va, vb, vc, vd, htext, ha, hb, hc, hd, rfl⟩ := h
  have hq : q = String.ofList (dotted a b c d) := by rw [← htext, String.ofList_toList]
  rw [hq, inetToi_dotted ha.numeral hb.numeral hc.numeral hd.numeral ha.le hb.le hc.le hd.le]

theorem validHexGroup_iff (g : String) : validHexGroup g = true ↔ HexGroup g.toList := by
  have hempty : g ≠ "" ↔ 1 ≤ g.toList.length := by
    rw [Nat.one_le_iff_ne_zero, Ne, Ne, List.length_eq_zero_iff, String.toList_eq_nil_iff]
  rw [validHexGroup, Bool.and_eq_true, Bool.and_eq_true, decide_eq_true_iff, decide_eq_true_iff,
    hempty, List.all_eq_true, ← String.length_toList]
  constructor
  · rintro ⟨⟨hle, hpos⟩, hdigits⟩
    exact ⟨hpos, hle, fun c hc => of_decide_eq_true (hdigits c hc)⟩
  · rintro ⟨hpos, hle, hdigits⟩
    exact ⟨⟨hle, hpos⟩, fun c hc => decide_eq_true (hdigits c hc)⟩

theorem ipv6_iff (q : String) :
    Ipv6 q ↔ (split q ':').length = 8 ∧ ∀ g ∈ split q ':', validHexGroup g = true := by
  simp only [validHexGroup_iff, split, List.length_map, List.forall_mem_map,
    String.toList_ofList]
  constructor
  · rintro ⟨groups, hlen, hgroups, hjoin⟩
    have hne : groups ≠ [] := by
      rintro rfl
      cases hlen
    have hsep : ∀ g ∈ groups, ':' ∉ g := fun g hg hcolon =>
      absurd ((hgroups g hg).digits ':' hcolon) (by decide)
    rw [splitChars_joinSegments hne hsep hjoin]
    exact ⟨hlen, hgroups⟩
  · rintro ⟨hlen, hgroups⟩
    exact ⟨_, hlen, hgroups, (joinSegments_splitChars ':' q.toList).symm⟩

/-- A text in hexadecimal groups has no dot. -/
theorem Ipv6.length_split {q : String} (h : Ipv6 q) : (split q '.').length ≠ 4 := by
  obtain ⟨groups, -, hgroups, hjoin⟩ := h
  have hdot : '.' ∉ q.toList := by
    intro hmem
    have hjoined : '.' ∈ joinSegments ':' groups := hjoin ▸ List.mem_cons_of_mem ':' hmem
    obtain ⟨g, hg, hin⟩ := List.mem_flatMap.mp hjoined
    rcases List.mem_cons.mp hin with hcolon | hin
    · exact absurd hcolon (by decide)
    · exact absurd ((hgroups g hg).digits '.' hin) (by decide)
  rw [split, splitChars_of_notMem hdot]
  simp

theorem validIPAddress_ipv4_iff (q : String) :
    validIPAddress q = "IPv4" ↔
      (split q '.').length = 4 ∧ ∀ g ∈ split q '.', validDecimalGroup g = true := by
  rw [validIPAddress, ← List.all_eq_true]
  split_ifs with hdots hgroups <;> simp [*]

theorem validIPAddress_ipv6_iff (q : String) : validIPAddress q = "IPv6" ↔ Ipv6 q := by
  constructor
  · intro h
    rw [validIPAddress] at h
    split_ifs at h with hdots hquad hcolons hgroups
    -- the other four branches give another answer
    · exact absurd h (by decide)
    · exact absurd h (by decide)
    · exact (ipv6_iff q).mpr ⟨hcolons, List.all_eq_true.mp hgroups⟩
    · exact absurd h (by decide)
    · exact absurd h (by decide)
  · intro h
    obtain ⟨hcolons, hgroups⟩ := (ipv6_iff q).mp h
    rw [validIPAddress, if_neg h.length_split, if_pos hcolons,
      if_pos (List.all_eq_true.mpr hgroups)]

theorem validIPAddress_neither (q : String) (h4 : validIPAddress q ≠ "IPv4")
    (h6 : validIPAddress q ≠ "IPv6") : validIPAddress q = "Neither" := by
  rw [validIPAddress] at h4 h6 ⊢
  split_ifs at h4 h6 ⊢ <;> first | rfl | exact absurd rfl h4 | exact absurd rfl h6

/-- The two formats are decided unless a group of a quad has a sign. -/
theorem classifies_iff (q : String) : Classifies q ↔ ¬ SignedQuad q := by
  have hsigned : SignedQuad q ↔ validIPAddress q = "IPv4" ∧ ∃ g ∈ split q '.', Signed g := by
    simp only [SignedQuad, validIPAddress_ipv4_iff, validDecimalGroup_iff, and_assoc]
  have hquad : (∃ address, Ipv4 q address) ↔
      validIPAddress q = "IPv4" ∧ ∀ g ∈ split q '.', ¬ Signed g := by
    simp only [exists_ipv4_iff, validIPAddress_ipv4_iff, forall_and, and_assoc]
  rw [hsigned]
  constructor
  · rintro h ⟨hcalled, g, hg, hsign⟩
    exact (hquad.mp (h.ipv4.mp hcalled)).2 g hg hsign
  · intro hunsigned
    have hipv4 : validIPAddress q = "IPv4" ↔ ∃ address, Ipv4 q address := by
      rw [hquad]
      exact ⟨fun h => ⟨h, fun g hg hsign => hunsigned ⟨h, g, hg, hsign⟩⟩, And.left⟩
    refine ⟨hipv4, validIPAddress_ipv6_iff q, validIPAddress_neither q, fun hcalled => ?_⟩
    obtain ⟨address, haddress⟩ := hipv4.mp hcalled
    exact ⟨address, haddress, inetToi_ipv4 haddress⟩

/-- `+1.2.3.4` is called an IPv4 address. -/
theorem signed_quad_accepted : ¬ ∀ q, Classifies q := by
  intro h
  have hquad := (h "+1.2.3.4").ipv4.mp (by decide)
  have hunsigned := ((exists_ipv4_iff "+1.2.3.4").mp hquad).2 "+1" (by decide)
  exact hunsigned.2 (by decide)

end Utils
end VermouthGateway
