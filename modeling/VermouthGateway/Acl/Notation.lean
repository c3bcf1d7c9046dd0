import VermouthGateway.Acl.Cidrs
import VermouthGateway.Utils.Addresses

/-!
# The texts that `Add` accepts

`Add` and `Delete` cut a text at its slashes, hand the first piece to `InetToi`
and the second to `Atoi`, and look at no other piece.

* `readable_iff`, `denotes_iff`: which texts are read without a fault, and which
  are read as a network.
* `exists_cidr_iff`: what is missing for such a text to be well formed.
* `adds_iff`: `Add` accepts the well-formed texts and no others, without a
  fault, outside two kinds of texts.
-/

namespace VermouthGateway
namespace Acl

open Go
open RadixTree

/-- The piece that is read as an address, in its groups. -/
def groups (s : String) : List String := split ((pieces s).headD "") '.'

/-- Five groups or more, and the first five are integers. -/
def FiveIntegers (s : String) : Prop :=
  5 ≤ (groups s).length ∧ ∀ g ∈ (groups s).take 5, (atoi g).isSome

/-- Up to four groups, all of them integers, and a length from 0 to 32 after the
first slash. -/
def Numeric (s : String) : Prop :=
  (groups s).length ≤ 4 ∧ (∀ g ∈ groups s, (atoi g).isSome) ∧
    ∃ mask ∈ (pieces s)[1]?, ∃ n ∈ atoi mask, 0 ≤ n ∧ n ≤ 32

/-- Four groups up to 255, one slash, and no signs. -/
def Proper (s : String) : Prop :=
  (groups s).length = 4 ∧ (∀ g ∈ groups s, ¬ Signed g ∧ ∀ v ∈ atoi g, v ≤ 255) ∧
    (pieces s).length = 2 ∧ ∀ mask ∈ (pieces s)[1]?, ¬ Signed mask

theorem readable_iff (s : String) : Readable s ↔ ¬ FiveIntegers s := by
  rw [FiveIntegers, groups, ← Utils.inetToi_error_iff]
  constructor
  · rintro ⟨net, hnet⟩ ⟨e, he⟩
    rw [network, he] at hnet
    cases hnet
  · intro hnone
    cases hnet : network s with
    | ok net => exact ⟨net, hnet⟩
    | error e => exact absurd ⟨e, network_fault hnet⟩ hnone

theorem denotes_iff (s : String) : Denotes s ↔ Numeric s := by
  rw [Numeric, groups, ← and_assoc, ← Utils.inetToi_some_iff]
  constructor
  · rintro ⟨⟨ip, n⟩, hnet⟩
    obtain ⟨hip, mask, cidr, hmask, hcidr, hrange, -⟩ := network_some hnet
    exact ⟨⟨ip, hip⟩, mask, hmask, cidr, hcidr, by omega, by omega⟩
  · rintro ⟨⟨ip, hip⟩, mask, hmask, cidr, hcidr, hlow, hhigh⟩
    have hrange : ¬ (cidr < 0 ∨ cidr > 32) := by omega
    refine ⟨(ip, cidr.toNat), ?_⟩
    rw [network, hip, Option.mem_def.mp hmask]
    dsimp only
    rw [Option.mem_def.mp hcidr]
    dsimp only
    rw [if_neg hrange]

/-- Two pieces are joined by one slash. -/
theorem exists_pieces {s : String} (h : (pieces s).length = 2) :
    ∃ host mask : List Char, s.toList = host ++ '/' :: mask ∧
      pieces s = [String.ofList host, String.ofList mask] := by
  rw [pieces, split, List.length_map] at h
  obtain ⟨host, mask, hpieces⟩ := List.length_eq_two.mp h
  have hjoin := joinSegments_splitChars '/' s.toList
  rw [hpieces] at hjoin
  refine ⟨host, mask, ?_, by rw [pieces, split, hpieces]; rfl⟩
  simpa using hjoin.symm

/-- The groups up to 255 without a sign are the numerals. -/
theorem numeral_iff (g : String) :
    (∃ v, Numeral g.toList v ∧ v ≤ 255) ↔
      (atoi g).isSome ∧ ¬ Signed g ∧ ∀ v ∈ atoi g, v ≤ 255 := by
  constructor
  · rintro ⟨v, hnum, hle⟩
    have hatoi := hnum.atoi_eq (show v < 2 ^ 63 by omega)
    rw [String.ofList_toList] at hatoi
    rw [hatoi]
    refine ⟨rfl, hnum.not_signed, fun n hn => ?_⟩
    cases hn
    omega
  · rintro ⟨hint, hsign, hle⟩
    obtain ⟨n, hn⟩ := Option.isSome_iff_exists.mp hint
    obtain ⟨v, rfl, hnum⟩ := numeral_of_atoi hn hsign
    have hv := hle v hn
    exact ⟨v, hnum, by omega⟩

/-- The well-formed texts. -/
theorem exists_cidr_iff (s : String) : (∃ c : Cidr, c.text = s) ↔ Numeric s ∧ Proper s := by
  constructor
  · rintro ⟨c, rfl⟩
    refine ⟨(denotes_iff c.text).mp ⟨_, c.network_eq⟩, ?_⟩
    obtain ⟨a, b, d, e, n, va, vb, vd, ve, htext, ⟨ha, hva⟩, ⟨hb, hvb⟩, ⟨hd, hvd⟩, ⟨he, hve⟩,
      hn, -⟩ := c.spells
    have hpieces := pieces_dotted htext ha hb hd he hn
    have hgroups : groups c.text =
        [String.ofList a, String.ofList b, String.ofList d, String.ofList e] := by
      rw [groups, hpieces]
      exact Utils.split_dotted String.toList_ofList (ha.notMem (by decide))
        (hb.notMem (by decide)) (hd.notMem (by decide)) (he.notMem (by decide))
    have hgroup : ∀ {cs : List Char} {v : Nat}, Numeral cs v → v ≤ 255 →
        ¬ Signed (String.ofList cs) ∧ ∀ n ∈ atoi (String.ofList cs), n ≤ 255 := by
      intro cs v hnum hle
      rw [← String.toList_ofList (l := cs)] at hnum
      exact ((numeral_iff (String.ofList cs)).mp ⟨v, hnum, hle⟩).2
    rw [Proper, hgroups, hpieces]
    simp only [List.forall_mem_cons, List.getElem?_cons_succ, List.getElem?_cons_zero,
      Option.mem_some_iff, forall_eq']
    rw [← String.toList_ofList (l := n)] at hn
    exact ⟨rfl, ⟨hgroup ha hva, hgroup hb hvb, hgroup hd hvd, hgroup he hve, by simp⟩, rfl,
      hn.not_signed⟩
  · rintro ⟨⟨-, hints, mask, hmask, n, hn, hlow, hhigh⟩, hlen, hgroups, hpieces, hunsigned⟩
    obtain ⟨host, tail, htext, hsplit⟩ := exists_pieces hpieces
    have hnumeral : ∀ g ∈ groups s, ∃ v, Numeral g.toList v ∧ v ≤ 255 := fun g hg =>
      (numeral_iff g).mpr ⟨hints g hg, hgroups g hg⟩
    rw [hsplit] at hmask hunsigned
    obtain rfl : String.ofList tail = mask := by simpa using hmask
    have hsign : ¬ Signed (String.ofList tail) := hunsigned _ (by simp)
    obtain ⟨len, rfl, hlength⟩ := numeral_of_atoi hn hsign
    rw [groups, hsplit] at hlen hnumeral
    obtain ⟨a, b, d, e, hdotted, hfour⟩ := Utils.dotted_of_split hlen
    rw [hfour] at hnumeral
    simp only [List.forall_mem_cons, String.toList_ofList] at hnumeral
    obtain ⟨⟨va, ha⟩, ⟨vb, hb⟩, ⟨vd, hd⟩, ⟨ve, he⟩, -⟩ := hnumeral
    rw [List.headD_cons, String.toList_ofList] at hdotted
    rw [String.toList_ofList] at hlength
    refine ⟨⟨s, _, len, ⟨a, b, d, e, tail, va, vb, vd, ve, ?_, ha, hb, hd, he, hlength, rfl⟩,
      by omega⟩, rfl⟩
    rw [htext, hdotted]

/-- What is asked of `Add(s, s)`: it returns; it accepts the well-formed texts,
inserts below their number and mask, and records them; it refuses the others
and leaves the tree alone. -/
def AddsExactly (t : RadixTree) (s : String) : Prop :=
  ∃ answer t', EStateM.run (add s s) t = .ok answer t' ∧
    (answer = none ↔ ∃ c : Cidr, c.text = s) ∧
    (∀ c : Cidr, c.text = s → ∃ root ∈ t.root,
      t' = { t.insertBelow c.address (netMask c.length) s root with
        record := t.record.insert s true }) ∧
    (answer ≠ none → t' = t)

section Read

variable {t : RadixTree} {s : String} {ip : BitVec 32} {n : Nat}

/-- Of the texts that are read as a network the properly written ones are well
formed. -/
theorem proper_iff_of_network (hnet : network s = .ok (some (ip, n))) :
    Proper s ↔ ∃ c : Cidr, c.text = s := by
  rw [exists_cidr_iff]
  exact ⟨fun hproper => ⟨(denotes_iff s).mp ⟨_, hnet⟩, hproper⟩, And.right⟩

/-- A text that is read as a network is accepted on every tree with a root, be it well
formed or not. -/
theorem adds_network_iff (hnet : network s = .ok (some (ip, n))) :
    AddsExactly t s ↔ Proper s ∧ t.root.isSome := by
  rw [proper_iff_of_network hnet]
  have hrun := @run_add_network t s s _ _ hnet
  cases hroot : t.root with
  | none =>
      rw [hroot] at hrun
      refine iff_of_false ?_ fun h => Bool.false_ne_true h.2
      rintro ⟨answer, t', hrun', -⟩
      cases hrun.symm.trans hrun'
  | some root =>
      rw [hroot] at hrun
      constructor
      · rintro ⟨answer, t', hrun', haccepted, -, -⟩
        cases hrun.symm.trans hrun'
        exact ⟨haccepted.mp rfl, rfl⟩
      · rintro ⟨hcidr, -⟩
        refine ⟨none, _, hrun, iff_of_true rfl hcidr, ?_, fun h => absurd rfl h⟩
        rintro c rfl
        cases c.network_eq.symm.trans hnet
        exact ⟨root, hroot, rfl⟩

end Read

/-- `Add` meets it when no fifth integer is read, and when a text that is read as a
network is written properly and finds a root. -/
theorem adds_iff (t : RadixTree) (s : String) :
    AddsExactly t s ↔ ¬ FiveIntegers s ∧ (Numeric s → Proper s ∧ t.root.isSome) := by
  rw [← readable_iff]
  cases hnet : network s with
  | error e =>
      constructor
      · rintro ⟨answer, t', hrun, -⟩
        rw [run_add_fault hnet] at hrun
        cases hrun
      · rintro ⟨⟨net, hread⟩, -⟩
        rw [hnet] at hread
        cases hread
  | ok net =>
      have hreadable : Readable s := ⟨net, hnet⟩
      cases net with
      | none =>
          have hrefused : ¬ Numeric s := by
            rw [← denotes_iff]
            rintro ⟨net, hread⟩
            rw [hnet] at hread
            cases hread
          have hmalformed : ¬ ∃ c : Cidr, c.text = s := fun h =>
            hrefused ((exists_cidr_iff s).mp h).1
          obtain ⟨e, hrun⟩ := run_add_refused hnet s t
          refine iff_of_true ⟨some e, t, hrun, ?_, ?_, fun _ => rfl⟩
            ⟨hreadable, fun h => absurd h hrefused⟩
          · exact iff_of_false (by simp) hmalformed
          · exact fun c hc => absurd ⟨c, hc⟩ hmalformed
      | some net =>
          have hnumeric : Numeric s := (denotes_iff s).mp ⟨net, hnet⟩
          rw [adds_network_iff hnet]
          exact ⟨fun h => ⟨hreadable, fun _ => h⟩, fun h => h.2 hnumeric⟩

/-- `1.2.3.4.5/8` is no error value: the fifth group is shifted by -8. -/
theorem fifth_group_added : ¬ ∀ t s, AddsExactly t s := by
  intro h
  obtain ⟨answer, t', hrun, -⟩ := h newRadixTree "1.2.3.4.5/8"
  have hfault : network "1.2.3.4.5/8" = .error (.panic .negativeShift) := by decide +kernel
  rw [run_add_fault hfault] at hrun
  cases hrun

end Acl
end VermouthGateway
