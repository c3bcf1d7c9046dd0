import VermouthGateway.Go.Text

/-!
# Addresses

`InetToi` turns the text of an IPv4 address into a 32-bit number and `RemoteIp`
picks the address of a client out of a request.

`InetToi` shifts the value of each `.`-separated group left by 24, 16, 8, 0 and
then by a negative amount, which Go turns into a panic.  Its result is
therefore a fault, an error value (`none`) or a number.
-/

namespace VermouthGateway
namespace Utils

open Go

/-- The loop of `InetToi` over the remaining groups; `pos` is the shift of the
next one. -/
def inetToiLoop : List String → Int → BitVec 32 → Except Halt (Option (BitVec 32))
  | [], _, ret => .ok (some ret)
  | ipSeg :: ipSegs, pos, ret =>
      match atoi ipSeg with
      | none => .ok none
      | some tempInt =>
          -- a fifth segment shifts by a negative count
          if pos < 0 then .error (.panic .negativeShift)
          else
            -- no check that the segment is a byte: its word is shifted, then cut to 32 bits
            let shifted := BitVec.ofInt 64 tempInt <<< pos.toNat
            inetToiLoop ipSegs (pos - 8) (ret ||| shifted.setWidth 32)

/-- `utils.InetToi`; the error value is `none`. -/
def inetToi (ip : String) : Except Halt (Option (BitVec 32)) :=
  inetToiLoop (split ip '.') 24 0

/-- A group that `ValidIPAddress` takes for a part of an IPv4 address. -/
def validDecimalGroup (s : String) : Bool :=
  !(s.length > 1 && s.front = '0') && (atoi s).any (· ≤ 255)

/-- A group that `ValidIPAddress` takes for a part of an IPv6 address. -/
def validHexGroup (s : String) : Bool :=
  s.length ≤ 4 && s ≠ "" && s.toList.all fun c => c ∈ "0123456789abcdefABCDEF".toList

/-- `ValidIPAddress`. -/
def validIPAddress (queryIP : String) : String :=
  if (split queryIP '.').length = 4 then
    if (split queryIP '.').all validDecimalGroup then "IPv4" else "Neither"
  else if (split queryIP ':').length = 8 then
    if (split queryIP ':').all validHexGroup then "IPv6" else "Neither"
  else "Neither"

/-- What the gateway reads of an incoming request.  `header` is
`http.Header.Get`: the empty string for a missing header. -/
structure Request where
  path : String
  remoteAddr : String
  header : String → String

/-- `utils.RemoteIp`. -/
def remoteIp (req : Request) : String :=
  if req.remoteAddr ≠ "" then req.remoteAddr
  else if req.header "ipv4" ≠ "" then req.header "ipv4"
  else if req.header "XForwardedFor" ≠ "" then req.header "XForwardedFor"
  else if req.header "X-Forwarded-For" ≠ "" then req.header "X-Forwarded-For"
  else if req.header "X-Real-Ip" ≠ "" then req.header "X-Real-Ip"
  else "127.0.0.1"

/-- The only halt `InetToi` can raise is the negative shift of a fifth group. -/
theorem inetToiLoop_error {segs : List String} {pos : Int} {ret : BitVec 32}
    {e : Halt} (h : inetToiLoop segs pos ret = .error e) :
    e = .panic .negativeShift := by
  induction segs generalizing pos ret with
  | nil => cases h
  | cons seg segs ih =>
      simp only [inetToiLoop] at h
      split at h
      · cases h
      · split at h
        · cases h
          rfl
        · exact ih h

theorem inetToi_error {ip : String} {e : Halt} (h : inetToi ip = .error e) :
    e = .panic .negativeShift :=
  inetToiLoop_error h

/-! ## Dotted quads -/

/-- The text `a.b.c.d`. -/
def dotted (a b c d : List Char) : List Char :=
  a ++ '.' :: (b ++ '.' :: (c ++ '.' :: d))

/-- The shifted octet of one group, as `InetToi` computes it. -/
theorem shifted_octet {v pos : Nat} (hv : v ≤ 255) (hpos : pos ≤ 24) :
    (BitVec.ofInt 64 (v : Int) <<< pos).setWidth 32 = BitVec.ofNat 32 (v <<< pos) := by
  apply BitVec.eq_of_toNat_eq
  have hsmall : v <<< pos < 2 ^ 32 := by
    rw [Nat.shiftLeft_eq]
    calc v * 2 ^ pos ≤ 255 * 2 ^ 24 := Nat.mul_le_mul hv (Nat.pow_le_pow_right (by omega) hpos)
      _ < 2 ^ 32 := by decide
  have hv64 : v % 2 ^ 64 = v := Nat.mod_eq_of_lt (by omega)
  simp only [BitVec.ofInt_natCast, BitVec.toNat_setWidth, BitVec.toNat_shiftLeft,
    BitVec.toNat_ofNat, hv64]
  omega

/-- The octets do not overlap. -/
theorem or_octets {va vb vc vd : Nat} (hb : vb ≤ 255) (hc : vc ≤ 255) (hd : vd ≤ 255) :
    va <<< 24 ||| vb <<< 16 ||| vc <<< 8 ||| vd <<< 0 =
      va * 2 ^ 24 + vb * 2 ^ 16 + vc * 2 ^ 8 + vd := by
  have hstep : ∀ (high low pos : Nat), low ≤ 255 →
      high <<< (8 + pos) ||| low <<< pos = (high * 2 ^ 8 + low) <<< pos := by
    intro high low pos hlow
    rw [Nat.shiftLeft_add, ← Nat.shiftLeft_or_distrib,
      ← Nat.shiftLeft_add_eq_or_of_lt (by omega), Nat.shiftLeft_eq high]
  rw [hstep va vb 16 hb, hstep _ vc 8 hc, hstep _ vd 0 hd, Nat.shiftLeft_zero]
  omega

/-- `InetToi` reads a dotted quad as the number it denotes. -/
theorem inetToi_dotted {a b c d : List Char} {va vb vc vd : Nat}
    (ha : Numeral a va) (hb : Numeral b vb) (hc : Numeral c vc) (hd : Numeral d vd)
    (hva : va ≤ 255) (hvb : vb ≤ 255) (hvc : vc ≤ 255) (hvd : vd ≤ 255) :
    inetToi (String.ofList (dotted a b c d)) =
      .ok (some (BitVec.ofNat 32 (va * 2 ^ 24 + vb * 2 ^ 16 + vc * 2 ^ 8 + vd))) := by
  have hsplit : split (String.ofList (dotted a b c d)) '.' =
      [String.ofList a, String.ofList b, String.ofList c, String.ofList d] := by
    rw [split, String.toList_ofList, dotted, splitChars_append (ha.notMem (by decide)),
      splitChars_append (hb.notMem (by decide)), splitChars_append (hc.notMem (by decide)),
      splitChars_of_notMem (hd.notMem (by decide))]
    rfl
  have hrange : ∀ {v : Nat}, v ≤ 255 → v < 2 ^ 63 := by omega
  rw [inetToi, hsplit, ← or_octets hvb hvc hvd]
  simp only [inetToiLoop, ha.atoi_eq (hrange hva), hb.atoi_eq (hrange hvb),
    hc.atoi_eq (hrange hvc), hd.atoi_eq (hrange hvd)]
  simp only [show ¬ (24 : Int) < 0 by decide, show ¬ (24 - 8 : Int) < 0 by decide,
    show ¬ (24 - 8 - 8 : Int) < 0 by decide, show ¬ (24 - 8 - 8 - 8 : Int) < 0 by decide,
    if_false]
  rw [show (24 : Int).toNat = 24 from rfl, show (24 - 8 : Int).toNat = 16 from rfl,
    show (24 - 8 - 8 : Int).toNat = 8 from rfl, show (24 - 8 - 8 - 8 : Int).toNat = 0 from rfl,
    shifted_octet hva (by omega), shifted_octet hvb (by omega), shifted_octet hvc (by omega),
    shifted_octet hvd (by omega)]
  simp [BitVec.ofNat_or]

end Utils
end VermouthGateway
