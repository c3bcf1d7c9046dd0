import VermouthGateway.Go.Effect
import Mathlib.Algebra.Group.Int.Defs
import Mathlib.Algebra.Group.Nat.Defs
import Mathlib.Data.List.Basic
import Mathlib.Data.List.Infix

/-!
# Strings and numerals

The parts of `strings` and `strconv` the gateway uses, on the characters of a
string.  Separators and digits are ASCII, so cutting a string at them gives the
same pieces by bytes and by characters.
-/

namespace VermouthGateway
namespace Go

/-- Cut a list of characters at every `sep`. -/
def splitChars (sep : Char) : List Char → List (List Char)
  | [] => [[]]
  | c :: rest =>
      if c = sep then [] :: splitChars sep rest
      else
        match splitChars sep rest with
        | [] => [[c]]
        | piece :: pieces => (c :: piece) :: pieces

/-- `strings.Split(s, sep)` for a one-character separator. -/
def split (s : String) (sep : Char) : List String :=
  (splitChars sep s.toList).map String.ofList

theorem splitChars_ne_nil (sep : Char) (cs : List Char) : splitChars sep cs ≠ [] := by
  cases cs with
  | nil => exact List.cons_ne_nil _ _
  | cons c rest =>
      rw [splitChars]
      split
      · exact List.cons_ne_nil _ _
      · split <;> exact List.cons_ne_nil _ _

/-- A text without the separator is one piece. -/
theorem splitChars_of_notMem {sep : Char} {cs : List Char} (hsep : sep ∉ cs) :
    splitChars sep cs = [cs] := by
  induction cs with
  | nil => rfl
  | cons c rest ih =>
      rw [List.mem_cons, not_or] at hsep
      simp only [splitChars, if_neg (Ne.symm hsep.1), ih hsep.2]

/-- Cutting at one separator first cuts the two sides on their own. -/
theorem splitChars_append_sep (sep : Char) (left right : List Char) :
    splitChars sep (left ++ sep :: right) = splitChars sep left ++ splitChars sep right := by
  induction left with
  | nil => simp [splitChars]
  | cons c left ih =>
      rw [List.cons_append, splitChars, splitChars, ih]
      split
      · rfl
      · cases hsplit : splitChars sep left with
        | nil => exact absurd hsplit (splitChars_ne_nil sep left)
        | cons piece pieces => rfl

/-- The first separator ends the first piece. -/
theorem splitChars_append {sep : Char} {piece : List Char} (hsep : sep ∉ piece)
    (rest : List Char) :
    splitChars sep (piece ++ sep :: rest) = piece :: splitChars sep rest := by
  rw [splitChars_append_sep, splitChars_of_notMem hsep]
  rfl

/-- What precedes the first separator is determined, and so is what follows it. -/
theorem append_sep_inj {sep : Char} {left left' right right' : List Char} (hleft : sep ∉ left)
    (hleft' : sep ∉ left') (h : left ++ sep :: right = left' ++ sep :: right') :
    left = left' ∧ right = right' := by
  have hsplit := congrArg (splitChars sep) h
  rw [splitChars_append hleft, splitChars_append hleft'] at hsplit
  obtain ⟨rfl, -⟩ := List.cons.inj hsplit
  exact ⟨rfl, (List.cons.inj (List.append_cancel_left h)).2⟩

/-- The part of a text before the last `c`, as `s[:strings.LastIndex(s, c)]`;
`none` is the index -1. -/
def beforeLast (s : String) (c : Char) : Option String :=
  match s.toList.reverse.dropWhile (· != c) with
  | [] => none
  | _ :: init => some (String.ofList init.reverse)

/-- `strings.Contains`. -/
def contains (s sub : String) : Bool := sub.toList <:+: s.toList

/-- `strings.Trim` with one character in the cut set. -/
def trim (s : String) (c : Char) : String :=
  String.ofList ((s.toList.dropWhile (· == c)).reverse.dropWhile (· == c)).reverse

/-- The value of a run of decimal digits, most significant first. -/
def digitsValue (cs : List Char) : Nat :=
  cs.foldl (fun n c => 10 * n + (c.toNat - '0'.toNat)) 0

/-- A non-empty run of decimal digits. -/
def parseDigits (cs : List Char) : Option Nat :=
  if cs ≠ [] ∧ cs.all Char.isDigit then some (digitsValue cs) else none

/-- `strconv.Atoi` on a 64-bit machine: an optional sign, then decimal digits
whose value fits the signed range; `none` stands for any error. -/
def atoi (s : String) : Option Int :=
  match s.toList with
  | '-' :: ds => (parseDigits ds).bind fun n => if n ≤ 2 ^ 63 then some (-(n : Int)) else none
  | '+' :: ds => (parseDigits ds).bind fun n => if n < 2 ^ 63 then some (n : Int) else none
  | ds => (parseDigits ds).bind fun n => if n < 2 ^ 63 then some (n : Int) else none

/-- `cs` writes the number `n` in decimal digits, leading zeros allowed. -/
structure Numeral (cs : List Char) (n : Nat) : Prop where
  nonempty : cs ≠ []
  digits : cs.all Char.isDigit = true
  value : digitsValue cs = n

instance (cs : List Char) (n : Nat) : Decidable (Numeral cs n) :=
  decidable_of_iff (cs ≠ [] ∧ cs.all Char.isDigit = true ∧ digitsValue cs = n)
    ⟨fun ⟨h₁, h₂, h₃⟩ => ⟨h₁, h₂, h₃⟩, fun ⟨h₁, h₂, h₃⟩ => ⟨h₁, h₂, h₃⟩⟩

/-- No digit is a separator or a sign. -/
theorem Numeral.notMem {cs : List Char} {n : Nat} (hnum : Numeral cs n) {c : Char}
    (hc : c.isDigit = false) : c ∉ cs := by
  intro hmem
  have hdigit := List.all_eq_true.mp hnum.digits c hmem
  rw [hc] at hdigit
  cases hdigit

theorem Numeral.parseDigits_eq {cs : List Char} {n : Nat} (hnum : Numeral cs n) :
    parseDigits cs = some n := by
  rw [parseDigits, if_pos ⟨hnum.nonempty, hnum.digits⟩, hnum.value]

/-- A numeral in the signed 64-bit range is read as its value. -/
theorem Numeral.atoi_eq {cs : List Char} {n : Nat} (hnum : Numeral cs n)
    (hn : n < 2 ^ 63) : atoi (String.ofList cs) = some (n : Int) := by
  have hminus : '-' ∉ cs := hnum.notMem (by decide)
  have hplus : '+' ∉ cs := hnum.notMem (by decide)
  rw [atoi, String.toList_ofList]
  split
  · exact absurd List.mem_cons_self hminus
  · exact absurd List.mem_cons_self hplus
  · rw [hnum.parseDigits_eq, Option.bind_some, if_pos hn]

/-- `cs` writes the integer `n` in decimal digits, after a sign or without one. -/
inductive Decimal : List Char → Int → Prop
  | unsigned {cs : List Char} {n : Nat} (hnum : Numeral cs n) : Decimal cs n
  | plus {cs : List Char} {n : Nat} (hnum : Numeral cs n) : Decimal ('+' :: cs) n
  | minus {cs : List Char} {n : Nat} (hnum : Numeral cs n) : Decimal ('-' :: cs) (-n)

/-- Only digits and signs are written. -/
theorem Decimal.notMem {cs : List Char} {n : Int} (hdec : Decimal cs n) {c : Char}
    (hc : c.isDigit = false) (hplus : c ≠ '+') (hminus : c ≠ '-') : c ∉ cs := by
  cases hdec with
  | unsigned hnum => exact hnum.notMem hc
  | plus hnum => exact List.not_mem_cons_of_ne_of_not_mem hplus (hnum.notMem hc)
  | minus hnum => exact List.not_mem_cons_of_ne_of_not_mem hminus (hnum.notMem hc)

/-- An integer that fits 64 signed bits is read as it was written. -/
theorem Decimal.atoi_eq {cs : List Char} {n : Int} (hdec : Decimal cs n)
    (hlow : -2 ^ 63 ≤ n) (hhigh : n < 2 ^ 63) : atoi (String.ofList cs) = some n := by
  cases hdec with
  | unsigned hnum => exact hnum.atoi_eq (by omega)
  | plus hnum =>
      rw [atoi, String.toList_ofList]
      show (parseDigits _).bind _ = _
      rw [hnum.parseDigits_eq, Option.bind_some, if_pos (by omega)]
  | minus hnum =>
      rw [atoi, String.toList_ofList]
      show (parseDigits _).bind _ = _
      rw [hnum.parseDigits_eq, Option.bind_some, if_pos (by omega)]

/-- A text in decimal digits writes one number. -/
theorem Decimal.unique {cs : List Char} {n m : Int} (hn : Decimal cs n) (hm : Decimal cs m) :
    n = m := by
  cases hn with
  | unsigned hnum =>
      cases hm with
      | unsigned hnum' => rw [← hnum.value, ← hnum'.value]
      | plus hnum' => exact absurd List.mem_cons_self (hnum.notMem (by decide))
      | minus hnum' => exact absurd List.mem_cons_self (hnum.notMem (by decide))
  | plus hnum =>
      cases hm with
      | unsigned hnum' => exact absurd List.mem_cons_self (hnum'.notMem (by decide))
      | plus hnum' => rw [← hnum.value, ← hnum'.value]
  | minus hnum =>
      cases hm with
      | unsigned hnum' => exact absurd List.mem_cons_self (hnum'.notMem (by decide))
      | minus hnum' => rw [← hnum.value, ← hnum'.value]

theorem numeral_repr (n : Nat) : Numeral n.repr.toList n where
  nonempty := by
    rw [Nat.toList_repr]
    exact Nat.toDigits_ne_nil
  digits := by
    rw [Nat.toList_repr, List.all_eq_true]
    exact fun c hc => Nat.isDigit_of_mem_toDigits (by decide) (by decide) hc
  value := by
    rw [Nat.toList_repr]
    exact Nat.ofDigitChars_ten_toDigits

/-- What `%d` prints. -/
theorem decimal_toString (n : Int) : Decimal (toString n).toList n := by
  rw [Int.toString_eq_repr, Int.repr_eq_if]
  split
  · next hn =>
      have hdec := Decimal.unsigned (numeral_repr n.toNat)
      rwa [Int.toNat_of_nonneg hn] at hdec
  · next hn =>
      have hdec := Decimal.minus (numeral_repr (-n).toNat)
      rw [Int.toNat_of_nonneg (by omega), Int.neg_neg] at hdec
      rw [String.toList_append]
      exact hdec

theorem numeral_of_parseDigits {cs : List Char} {n : Nat} (h : parseDigits cs = some n) :
    Numeral cs n := by
  rw [parseDigits] at h
  split at h
  · next hdigits => exact ⟨hdigits.1, hdigits.2, Option.some.inj h⟩
  · cases h

/-- `Atoi` reads the integers of 64 bits and nothing else. -/
theorem atoi_eq_some_iff {s : String} {n : Int} :
    atoi s = some n ↔ Decimal s.toList n ∧ -2 ^ 63 ≤ n ∧ n < 2 ^ 63 := by
  constructor
  · intro h
    rw [atoi] at h
    split at h
    all_goals
      obtain ⟨v, hdigits, hv⟩ := Option.bind_eq_some_iff.mp h
      have hnum := numeral_of_parseDigits hdigits
      split at hv <;> cases hv
    · next htext _ => exact ⟨htext ▸ .minus hnum, by omega, by omega⟩
    · next htext _ => exact ⟨htext ▸ .plus hnum, by omega, by omega⟩
    · exact ⟨.unsigned hnum, by omega, by omega⟩
  · rintro ⟨hdec, hlow, hhigh⟩
    have hatoi := hdec.atoi_eq hlow hhigh
    rwa [String.ofList_toList] at hatoi

/-- The text starts with a sign. -/
def Signed (s : String) : Prop := s.toList.head? = some '+' ∨ s.toList.head? = some '-'

instance : DecidablePred Signed := fun _ => inferInstanceAs (Decidable (_ ∨ _))

theorem Numeral.not_signed {s : String} {n : Nat} (h : Numeral s.toList n) : ¬ Signed s := by
  rintro (hplus | hminus)
  · exact h.notMem (by decide) (List.mem_of_mem_head? hplus)
  · exact h.notMem (by decide) (List.mem_of_mem_head? hminus)

/-- Without a sign `Atoi` reads a numeral. -/
theorem numeral_of_atoi {s : String} {n : Int} (h : atoi s = some n) (hsign : ¬ Signed s) :
    ∃ v : Nat, n = v ∧ Numeral s.toList v := by
  obtain ⟨hdec, -, -⟩ := atoi_eq_some_iff.mp h
  generalize htext : s.toList = cs at hdec
  cases hdec with
  | unsigned hnum => exact ⟨_, rfl, hnum⟩
  | plus hnum => exact absurd (Or.inl (by rw [htext]; rfl)) hsign
  | minus hnum => exact absurd (Or.inr (by rw [htext]; rfl)) hsign

end Go
end VermouthGateway
