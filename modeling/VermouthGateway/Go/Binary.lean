import Mathlib.Data.UInt
import VermouthGateway.Go.Effect

/-!
# Binary data

Two functions of `encoding/binary` in big-endian order, and the slice of a byte
string from an index on.  Reading past the end of a byte string panics.

* `uint16_putUint16`: what was put is read back.
* `putUint16_of_uint16`: only what is put reads as a number.
-/

namespace VermouthGateway
namespace Go

/-- `binary.BigEndian.PutUint16` on two bytes. -/
def putUint16 (v : UInt16) : List UInt8 := [(v >>> 8).toUInt8, v.toUInt8]

/-- `binary.BigEndian.Uint16`: it looks at the first two bytes. -/
def uint16 : List UInt8 → Except Halt UInt16
  | high :: low :: _ => .ok (low.toUInt16 ||| high.toUInt16 <<< 8)
  | _ => .error (.panic .sliceBounds)

/-- `data[n:]`. -/
def sliceFrom (n : Nat) (data : List UInt8) : Except Halt (List UInt8) :=
  if n ≤ data.length then .ok (data.drop n) else .error (.panic .sliceBounds)

theorem toNat_uint16 (high low : UInt8) :
    (low.toUInt16 ||| high.toUInt16 <<< 8).toNat = 256 * high.toNat + low.toNat := by
  have hhigh := high.toNat_lt
  have hlow := low.toNat_lt
  have hshift : (high.toUInt16 <<< 8).toNat = high.toNat <<< 8 := by
    rw [UInt16.toNat_shiftLeft, UInt8.toNat_toUInt16]
    have hlt : high.toNat <<< 8 < 2 ^ 16 := by
      rw [Nat.shiftLeft_eq]
      omega
    exact Nat.mod_eq_of_lt hlt
  rw [UInt16.toNat_or, hshift, UInt8.toNat_toUInt16, Nat.or_comm,
    ← Nat.shiftLeft_add_eq_or_of_lt hlow, Nat.shiftLeft_eq]
  omega

/-- What was put is read back, whatever follows it. -/
theorem uint16_putUint16 (v : UInt16) (rest : List UInt8) :
    uint16 (putUint16 v ++ rest) = .ok v := by
  have hv := v.toNat_lt
  have hread : ((v.toUInt8).toUInt16 ||| ((v >>> 8).toUInt8).toUInt16 <<< 8) = v := by
    apply UInt16.toNat.inj
    have hhigh : ((v >>> 8).toUInt8).toNat = v.toNat / 256 := by
      rw [UInt16.toNat_toUInt8, UInt16.toNat_shiftRight]
      show v.toNat >>> 8 % 2 ^ 8 = v.toNat / 256
      rw [Nat.shiftRight_eq_div_pow]
      omega
    have hlow : (v.toUInt8).toNat = v.toNat % 256 := UInt16.toNat_toUInt8 v
    rw [toNat_uint16, hhigh, hlow]
    omega
  exact congrArg Except.ok hread

/-- Bytes that read as a number start with what is put for it. -/
theorem putUint16_of_uint16 {data : List UInt8} {v : UInt16} (h : uint16 data = .ok v) :
    ∃ rest, data = putUint16 v ++ rest := by
  match data, h with
  | high :: low :: rest, h =>
      refine ⟨rest, ?_⟩
      have hv : v.toNat = 256 * high.toNat + low.toNat := by
        rw [← toNat_uint16, Except.ok.inj h]
      have hbound := high.toNat_lt
      have hbound' := low.toNat_lt
      have hhigh : (v >>> 8).toUInt8 = high := by
        apply UInt8.toNat.inj
        rw [UInt16.toNat_toUInt8, UInt16.toNat_shiftRight]
        show v.toNat >>> 8 % 2 ^ 8 = high.toNat
        rw [Nat.shiftRight_eq_div_pow]
        omega
      have hlow : v.toUInt8 = low := by
        apply UInt8.toNat.inj
        rw [UInt16.toNat_toUInt8]
        omega
      show high :: low :: rest = (v >>> 8).toUInt8 :: v.toUInt8 :: rest
      rw [hhigh, hlow]

end Go
end VermouthGateway
