import VermouthGateway.Go.Text
import Mathlib.Data.List.DropRight

/-!
# Calendar times and their layouts

The part of `time` that prints a time.  A layout is a text in which the pieces
of the reference time stand for the pieces of the time to print; everything else
is copied.

* `DateTime` is a reading of the calendar and of the clock on the wall.
* `parseLayout` finds the elements of a layout, and `format` prints them.
* `appendInt_inj` and `append_appendInt_inj`: padded numbers can be read back.
* `appendNano_inj`: a fraction without its trailing zeros gives back the digits
  that were kept.
-/

namespace VermouthGateway
namespace Go

/-- What `Time.Date`, `Time.Clock` and `Time.Nanosecond` return. -/
structure DateTime where
  year : Int
  month : Nat
  day : Nat
  hour : Nat
  minute : Nat
  second : Nat
  nanosecond : Nat
  month_range : 1 ≤ month ∧ month ≤ 12
  day_range : 1 ≤ day ∧ day ≤ 31
  hour_lt : hour < 24
  minute_lt : minute < 60
  second_lt : second < 60
  nanosecond_lt : nanosecond < 10 ^ 9

/-- The clock in UTC for an instant of the first day of 1970, in nanoseconds. -/
def firstDay (t : Int) : DateTime where
  year := 1970
  month := 1
  day := 1
  hour := (t / (3600 * 10 ^ 9) % 24).toNat
  minute := (t / (60 * 10 ^ 9) % 60).toNat
  second := (t / 10 ^ 9 % 60).toNat
  nanosecond := (t % 10 ^ 9).toNat
  month_range := by decide
  day_range := by decide
  hour_lt := by omega
  minute_lt := by omega
  second_lt := by omega
  nanosecond_lt := by omega

/-- `appendInt`: the digits of a number, padded with zeros after its sign. -/
def appendInt (x : Int) (width : Nat) : List Char :=
  (if x < 0 then ['-'] else []) ++ (Nat.toDigits 10 x.natAbs).leftpad width '0'

/-- A fraction of a second in a layout that drops trailing zeros: the first `digits`
of nine, and no point when nothing is left. -/
def appendNano (digits nanosec : Nat) : List Char :=
  if digits = 0 ∨ nanosec = 0 then []
  else
    let kept := ((appendInt nanosec 9).take digits).rdropWhile (· == '0')
    if kept = [] then [] else '.' :: kept

/-- The elements that the layouts of the gateway use. -/
inductive Element
  | longYear
  | year
  | zeroMonth
  | zeroDay
  | hour
  | zeroHour12
  | zeroMinute
  | zeroSecond
  | fracSecond9 (digits : Nat)
deriving DecidableEq, Repr

def Element.print (t : DateTime) : Element → List Char
  | .longYear => appendInt t.year 4
  | .year => appendInt ((if t.year < 0 then 0 else t.year) % 100) 2
  | .zeroMonth => appendInt t.month 2
  | .zeroDay => appendInt t.day 2
  | .hour => appendInt t.hour 2
  -- noon is 12 and so is midnight: the hour alone does not tell them apart
  | .zeroHour12 => appendInt ((if t.hour % 12 = 0 then 12 else t.hour % 12 : Nat) : Int) 2
  | .zeroMinute => appendInt t.minute 2
  | .zeroSecond => appendInt t.second 2
  | .fracSecond9 digits => appendNano digits t.nanosecond

/-- The element a text begins with, and how long it is. -/
def elementAt : List Char → Option (Element × Nat)
  | '2' :: '0' :: '0' :: '6' :: _ => some (.longYear, 4)
  | '0' :: '1' :: _ => some (.zeroMonth, 2)
  | '0' :: '2' :: _ => some (.zeroDay, 2)
  | '0' :: '3' :: _ => some (.zeroHour12, 2)
  | '0' :: '4' :: _ => some (.zeroMinute, 2)
  | '0' :: '5' :: _ => some (.zeroSecond, 2)
  | '0' :: '6' :: _ => some (.year, 2)
  | '1' :: '5' :: _ => some (.hour, 2)
  | '.' :: '9' :: rest =>
      let nines := rest.takeWhile (· == '9')
      -- the nines must not run on into other digits
      if ((rest.drop nines.length).head?.map Char.isDigit).getD false then none
      else some (.fracSecond9 (nines.length + 1), nines.length + 2)
  | _ => none

/-- The elements of a layout and the characters between them; the first argument
counts the characters of the last element that are still to be passed. -/
def parseLayout : Nat → List Char → List (Element ⊕ Char)
  | _, [] => []
  | skip + 1, _ :: rest => parseLayout skip rest
  | 0, c :: rest =>
      match elementAt (c :: rest) with
      | some (element, length) => .inl element :: parseLayout (length - 1) rest
      | none => .inr c :: parseLayout 0 rest

def printPiece (t : DateTime) : Element ⊕ Char → List Char
  | .inl element => element.print t
  | .inr c => [c]

/-- `Time.Format`. -/
def DateTime.format (t : DateTime) (layout : String) : String :=
  String.ofList ((parseLayout 0 layout.toList).flatMap (printPiece t))

example : parseLayout 0 "2006010206".toList =
    [.inl .longYear, .inl .zeroMonth, .inl .zeroDay, .inl .year] := by decide

theorem DateTime.toList_format {layout : String} {pieces : List (Element ⊕ Char)}
    (hlayout : parseLayout 0 layout.toList = pieces) (t : DateTime) :
    (t.format layout).toList = pieces.flatMap (printPiece t) := by
  rw [DateTime.format, String.toList_ofList, hlayout]

/-! ## Padded numbers -/

theorem digitsValue_append (cs ds : List Char) :
    digitsValue (cs ++ ds) = digitsValue cs * 10 ^ ds.length + digitsValue ds := by
  induction ds using List.reverseRecOn with
  | nil => simp [digitsValue]
  | append_singleton ds d ih =>
      have hlast : ∀ es : List Char,
          digitsValue (es ++ [d]) = 10 * digitsValue es + (d.toNat - '0'.toNat) := by
        intro es
        rw [digitsValue, List.foldl_append, List.foldl_cons, List.foldl_nil, digitsValue]
      rw [← List.append_assoc, hlast, hlast, ih, List.length_append, List.length_singleton,
        pow_succ, Nat.mul_add, ← Nat.mul_assoc, Nat.mul_comm 10, Nat.add_assoc, Nat.mul_assoc,
        Nat.mul_comm 10]

theorem digitsValue_replicate_zero (n : Nat) : digitsValue (List.replicate n '0') = 0 := by
  induction n with
  | zero => rfl
  | succ n ih =>
      rw [List.replicate_succ', digitsValue_append, ih]
      rfl

/-- The value of one digit. -/
theorem digit_toNat {c : Char} (hdigit : c.isDigit = true) :
    c.toNat = digitsValue [c] + 48 ∧ digitsValue [c] < 10 := by
  simp only [Char.isDigit, Bool.and_eq_true, decide_eq_true_eq] at hdigit
  have hlow : 48 ≤ c.toNat := hdigit.1
  have hhigh : c.toNat ≤ 57 := hdigit.2
  have hvalue : digitsValue [c] = c.toNat - 48 := by
    rw [digitsValue, List.foldl_cons, List.foldl_nil]
    exact Nat.zero_add _
  omega

theorem digitsValue_lt {cs : List Char} (hdigits : cs.all Char.isDigit = true) :
    digitsValue cs < 10 ^ cs.length := by
  induction cs using List.reverseRecOn with
  | nil => exact Nat.one_pos
  | append_singleton cs c ih =>
      rw [List.all_append, Bool.and_eq_true, List.all_cons, List.all_nil, Bool.and_true] at hdigits
      have hc := (digit_toNat hdigits.2).2
      have hinit := ih hdigits.1
      rw [digitsValue_append, List.length_append, List.length_singleton, pow_one, pow_succ]
      omega

/-- Digits of one length and one value are the same. -/
theorem eq_of_digitsValue_eq {cs ds : List Char} (hcs : cs.all Char.isDigit = true)
    (hds : ds.all Char.isDigit = true) (hlen : cs.length = ds.length)
    (hvalue : digitsValue cs = digitsValue ds) : cs = ds := by
  induction cs using List.reverseRecOn generalizing ds with
  | nil => exact (List.length_eq_zero_iff.mp hlen.symm).symm
  | append_singleton cs c ih =>
      obtain ⟨init, d, rfl⟩ := List.eq_nil_or_concat ds |>.resolve_left (by
        rintro rfl
        simp at hlen)
      rw [List.concat_eq_append] at hds hlen hvalue ⊢
      rw [List.all_append, Bool.and_eq_true, List.all_cons, List.all_nil, Bool.and_true] at hcs hds
      rw [List.length_append, List.length_append, List.length_singleton, List.length_singleton]
        at hlen
      rw [digitsValue_append, digitsValue_append, List.length_singleton, List.length_singleton,
        pow_one] at hvalue
      obtain ⟨hc, hc10⟩ := digit_toNat hcs.2
      obtain ⟨hd, hd10⟩ := digit_toNat hds.2
      have hinit : cs = init := ih hcs.1 hds.1 (by omega) (by omega)
      have hlast : c = d := Char.toNat_inj.mp (by omega)
      rw [hinit, hlast]

theorem numeral_leftpad (n width : Nat) :
    Numeral ((Nat.toDigits 10 n).leftpad width '0') n where
  nonempty := by
    rw [List.leftpad]
    exact List.append_ne_nil_of_right_ne_nil _ Nat.toDigits_ne_nil
  digits := by
    rw [List.leftpad, List.all_append, Bool.and_eq_true]
    refine ⟨?_, ?_⟩
    · rw [List.all_eq_true]
      intro c hc
      rw [List.eq_of_mem_replicate hc]
      decide
    · rw [← Nat.toList_repr]
      exact (numeral_repr n).digits
  value := by
    rw [List.leftpad, digitsValue_append, digitsValue_replicate_zero, Nat.zero_mul, Nat.zero_add,
      ← Nat.toList_repr, (numeral_repr n).value]

theorem decimal_appendInt (x : Int) (width : Nat) : Decimal (appendInt x width) x := by
  rw [appendInt]
  have hnum := numeral_leftpad x.natAbs width
  split
  · next hneg =>
      have hdec := Decimal.minus hnum
      rwa [show -(x.natAbs : Int) = x by omega] at hdec
  · next hpos =>
      have hdec := Decimal.unsigned hnum
      rwa [show (x.natAbs : Int) = x by omega] at hdec

theorem appendInt_inj {x y : Int} {width : Nat} :
    appendInt x width = appendInt y width ↔ x = y := by
  constructor
  · intro h
    have hy := decimal_appendInt y width
    rw [← h] at hy
    exact (decimal_appendInt x width).unique hy
  · rintro rfl
    rfl

theorem numeral_appendInt (n width : Nat) : Numeral (appendInt n width) n := by
  rw [appendInt, if_neg (by omega), List.nil_append, Int.natAbs_natCast]
  exact numeral_leftpad n width

theorem length_appendInt {n width : Nat} (hwidth : 0 < width) (hn : n < 10 ^ width) :
    (appendInt n width).length = width := by
  rw [appendInt, if_neg (by omega), List.nil_append, Int.natAbs_natCast, List.length_leftpad]
  exact Nat.max_eq_left ((Nat.length_toDigits_le_iff (by omega) hwidth).mpr hn)

/-- A number of fixed width at the end of a text can be told from the rest. -/
theorem append_appendInt_inj {cs ds : List Char} {n m width : Nat} (hwidth : 0 < width)
    (hn : n < 10 ^ width) (hm : m < 10 ^ width) :
    cs ++ appendInt n width = ds ++ appendInt m width ↔ cs = ds ∧ n = m := by
  constructor
  · intro h
    have hlen : (appendInt n width).length = (appendInt m width).length := by
      rw [length_appendInt hwidth hn, length_appendInt hwidth hm]
    obtain ⟨hcs, hnum⟩ := List.append_inj' h hlen
    exact ⟨hcs, by exact_mod_cast appendInt_inj.mp hnum⟩
  · rintro ⟨rfl, rfl⟩
    rfl

/-! ## Fractions -/

/-- Trailing characters that were dropped can be put back when it is known how many. -/
theorem eq_of_rdropWhile_eq {α : Type} [DecidableEq α] {x : α} {cs ds : List α}
    (hlen : cs.length = ds.length)
    (h : cs.rdropWhile (· == x) = ds.rdropWhile (· == x)) : cs = ds := by
  have hback : ∀ es : List α, es.rdropWhile (· == x) ++
      List.replicate (es.length - (es.rdropWhile (· == x)).length) x = es := by
    intro es
    have hsplit := List.rdropWhile_append_rtakeWhile (p := (· == x)) (l := es)
    have htail : es.rtakeWhile (· == x) =
        List.replicate (es.rtakeWhile (· == x)).length x :=
      List.eq_replicate_of_mem fun y hy => by simpa using List.mem_rtakeWhile_imp hy
    have hlength := congrArg List.length hsplit
    rw [List.length_append] at hlength
    rw [show es.length - (es.rdropWhile (· == x)).length =
      (es.rtakeWhile (· == x)).length by omega, ← htail, hsplit]
  rw [← hback cs, ← hback ds, h, hlen]

/-- The first digits of a nine-digit number. -/
theorem numeral_take_nano {digits nanosec : Nat} (hdigits : 0 < digits) (hle : digits ≤ 9)
    (hnano : nanosec < 10 ^ 9) :
    Numeral ((appendInt nanosec 9).take digits) (nanosec / 10 ^ (9 - digits)) := by
  have hnum := numeral_appendInt nanosec 9
  have hlen := length_appendInt (by decide : 0 < 9) hnano
  have hall := hnum.digits
  rw [← List.take_append_drop digits (appendInt nanosec 9), List.all_append,
    Bool.and_eq_true] at hall
  refine ⟨?_, hall.1, ?_⟩
  · intro hnil
    have hzero := congrArg List.length hnil
    rw [List.length_take, hlen, List.length_nil] at hzero
    omega
  · have hvalue := hnum.value
    rw [← List.take_append_drop digits (appendInt nanosec 9), digitsValue_append,
      List.length_drop, hlen] at hvalue
    have hrest := digitsValue_lt hall.2
    rw [List.length_drop, hlen] at hrest
    generalize digitsValue ((appendInt nanosec 9).take digits) = kept at hvalue ⊢
    generalize digitsValue ((appendInt nanosec 9).drop digits) = rest at hvalue hrest
    rw [← hvalue, Nat.mul_comm, Nat.mul_add_div (Nat.pow_pos (by decide)),
      Nat.div_eq_of_lt hrest, Nat.add_zero]

/-- Nothing is printed of a fraction whose kept digits are zeros. -/
theorem appendNano_eq {digits nanosec : Nat} (hdigits : 0 < digits) :
    appendNano digits nanosec =
      if ((appendInt nanosec 9).take digits).rdropWhile (· == '0') = [] then []
      else '.' :: ((appendInt nanosec 9).take digits).rdropWhile (· == '0') := by
  rw [appendNano]
  by_cases hzero : nanosec = 0
  · rw [if_pos (Or.inr hzero), if_pos]
    rw [List.rdropWhile_eq_nil_iff]
    intro c hc
    have hmem := List.mem_of_mem_take hc
    rw [hzero, show appendInt ((0 : Nat) : Int) 9 = List.replicate 9 '0' by decide] at hmem
    rw [List.eq_of_mem_replicate hmem]
    rfl
  · rw [if_neg (by omega)]

/-- The kept digits of a fraction can be read back. -/
theorem appendNano_inj {digits nanosec nanosec' : Nat} (hdigits : 0 < digits) (hle : digits ≤ 9)
    (hnano : nanosec < 10 ^ 9) (hnano' : nanosec' < 10 ^ 9) :
    appendNano digits nanosec = appendNano digits nanosec' ↔
      nanosec / 10 ^ (9 - digits) = nanosec' / 10 ^ (9 - digits) := by
  have hnum := numeral_take_nano hdigits hle hnano
  have hnum' := numeral_take_nano hdigits hle hnano'
  have hlen : ((appendInt nanosec 9).take digits).length =
      ((appendInt nanosec' 9).take digits).length := by
    rw [List.length_take, List.length_take, length_appendInt (by decide) hnano,
      length_appendInt (by decide) hnano']
  constructor
  · intro h
    have hkept : ((appendInt nanosec 9).take digits).rdropWhile (· == '0') =
        ((appendInt nanosec' 9).take digits).rdropWhile (· == '0') := by
      rw [appendNano_eq hdigits, appendNano_eq hdigits] at h
      split at h <;> split at h
      · next hnil hnil' => rw [hnil, hnil']
      · cases h
      · cases h
      · exact (List.cons.inj h).2
    have hsame := eq_of_rdropWhile_eq hlen hkept
    rw [← hnum.value, hsame, hnum'.value]
  · intro h
    rw [appendNano_eq hdigits, appendNano_eq hdigits]
    have hvalue := hnum.value.trans (h.trans hnum'.value.symm)
    rw [eq_of_digitsValue_eq hnum.digits hnum'.digits hlen hvalue]

end Go
end VermouthGateway
