import VermouthGateway.Logger.FileWriter
import Mathlib.Tactic.NormNum.Basic

/-!
# Archive names

An archive is named after a time: the start of the file for date slicing, the
reading of the clock for the other two rules.  `Stamp` is what the name shows of
that time.

* `format_date_eq_iff`: the layouts of date slicing show the unit, but for the hour
  they show the day.
* `name_eq_iff`: two rotations give one name exactly when they have one stamp.
* `name_ne`: no archive is named like the current file.
-/

namespace VermouthGateway
namespace Logger

open Go

/-- The three reasons to make an archive. -/
inductive Rule
  | date
  | line
  | size
deriving DecidableEq, Repr

/-- An archive is made: why, and the time it is named after. -/
structure Rotation where
  rule : Rule
  time : DateTime

/-- What an archive name shows of a time. -/
inductive Stamp
  | date (year : Int) (month day : Nat)
  | clock (year : Int) (month day hour minute second fraction : Nat)
deriving DecidableEq, Repr

/-- The calendar unit a date slice is named after; for the hour this is the day. -/
def dateStamp (dateSlice : String) (t : DateTime) : Stamp :=
  if dateSlice = "y" then .date t.year 0 0
  else if dateSlice = "m" then .date t.year t.month 0
  else .date t.year t.month t.day

/-- The time on a clock with twelve hours, and a fraction of the second. -/
def clockStamp (t : DateTime) (fraction : Nat) : Stamp :=
  .clock t.year t.month t.day (t.hour % 12) t.minute t.second fraction

namespace Rotation

def stamp (dateSlice : String) (r : Rotation) : Stamp :=
  match r.rule with
  | .date => dateStamp dateSlice r.time
  | .line => clockStamp r.time (r.time.nanosecond / 10 ^ 5)
  | .size => clockStamp r.time 0

/-- The layout of a unit. -/
def dateLayout (dateSlice : String) : String :=
  if dateSlice = "y" then "2006"
  else if dateSlice = "m" then "200601"
  else if dateSlice = "d" then "20060102"
  else "2006010206"

/-- The name the archive gets. -/
def name (fileName dateSlice : String) (r : Rotation) : String :=
  match r.rule with
  | .date => archiveName fileName "_" (r.time.format (dateLayout dateSlice))
  | .line => archiveName fileName "." (r.time.format "2006-01-02-03.04.05.9999")
  | .size => archiveName fileName "." (r.time.format "2006-01-02-03.04.05")

end Rotation

/-! ## What the layouts show -/

section Layouts

variable (t t' : DateTime)

theorem format_year_eq_iff : t.format "2006" = t'.format "2006" ↔ t.year = t'.year := by
  have hlayout : parseLayout 0 "2006".toList = [.inl .longYear] := by decide
  rw [← String.toList_inj, t.toList_format hlayout, t'.toList_format hlayout]
  simp only [List.flatMap_cons, List.flatMap_nil, List.append_nil, printPiece, Element.print]
  exact appendInt_inj

theorem format_month_eq_iff :
    t.format "200601" = t'.format "200601" ↔ t.year = t'.year ∧ t.month = t'.month := by
  have hlayout : parseLayout 0 "200601".toList = [.inl .longYear, .inl .zeroMonth] := by decide
  rw [← String.toList_inj, t.toList_format hlayout, t'.toList_format hlayout]
  simp only [List.flatMap_cons, List.flatMap_nil, List.append_nil, printPiece, Element.print]
  have hm := t.month_range
  have hm' := t'.month_range
  rw [append_appendInt_inj (by decide) (by omega) (by omega), appendInt_inj]

theorem format_day_eq_iff :
    t.format "20060102" = t'.format "20060102" ↔
      (t.year = t'.year ∧ t.month = t'.month) ∧ t.day = t'.day := by
  have hlayout : parseLayout 0 "20060102".toList =
      [.inl .longYear, .inl .zeroMonth, .inl .zeroDay] := by decide
  rw [← String.toList_inj, t.toList_format hlayout, t'.toList_format hlayout]
  simp only [List.flatMap_cons, List.flatMap_nil, List.append_nil, printPiece, Element.print]
  have hm := t.month_range
  have hm' := t'.month_range
  have hd := t.day_range
  have hd' := t'.day_range
  rw [← List.append_assoc, ← List.append_assoc,
    append_appendInt_inj (by decide) (by omega) (by omega),
    append_appendInt_inj (by decide) (by omega) (by omega), appendInt_inj]

theorem length_print_year : (Element.year.print t).length = 2 := by
  obtain ⟨n, hn⟩ : ∃ n : Nat, (if t.year < 0 then 0 else t.year) % 100 = n :=
    ⟨((if t.year < 0 then 0 else t.year) % 100).toNat, by split <;> omega⟩
  rw [Element.print, hn]
  exact length_appendInt (by decide) (by split at hn <;> omega)

/-- The layout of the hour shows the day, and then two digits of the year again. -/
theorem format_hour_eq_iff :
    t.format "2006010206" = t'.format "2006010206" ↔
      (t.year = t'.year ∧ t.month = t'.month) ∧ t.day = t'.day := by
  have hlayout : parseLayout 0 "2006010206".toList =
      [.inl .longYear, .inl .zeroMonth, .inl .zeroDay, .inl .year] := by decide
  have hday : parseLayout 0 "20060102".toList =
      [.inl .longYear, .inl .zeroMonth, .inl .zeroDay] := by decide
  have hsplit : ∀ u : DateTime, (u.format "2006010206").toList =
      (u.format "20060102").toList ++ Element.year.print u := by
    intro u
    rw [u.toList_format hlayout, u.toList_format hday]
    simp only [List.flatMap_cons, List.flatMap_nil, List.append_nil, printPiece,
      List.append_assoc]
  rw [← format_day_eq_iff]
  constructor
  · intro h
    rw [← String.toList_inj, hsplit, hsplit] at h
    rw [← String.toList_inj]
    exact (List.append_inj' h (by rw [length_print_year, length_print_year])).1
  · intro h
    have hyear := ((format_day_eq_iff t t').mp h).1.1
    rw [← String.toList_inj, hsplit, hsplit, h, Element.print, Element.print, hyear]

/-- The hour on the dial of a clock. -/
theorem dial_eq_iff (h h' : Nat) :
    (if h % 12 = 0 then 12 else h % 12) = (if h' % 12 = 0 then 12 else h' % 12) ↔
      h % 12 = h' % 12 := by
  split <;> split <;> omega

/-- The clock layout up to its first point. -/
def beforePoint : List Char :=
  appendInt t.year 4 ++ ['-'] ++ appendInt t.month 2 ++ ['-'] ++ appendInt t.day 2 ++ ['-'] ++
    appendInt ((if t.hour % 12 = 0 then 12 else t.hour % 12 : Nat) : Int) 2

theorem toList_format_clock : (t.format "2006-01-02-03.04.05").toList =
    beforePoint t ++ '.' :: (appendInt t.minute 2 ++ '.' :: appendInt t.second 2) := by
  have hlayout : parseLayout 0 "2006-01-02-03.04.05".toList =
      [.inl .longYear, .inr '-', .inl .zeroMonth, .inr '-', .inl .zeroDay, .inr '-',
        .inl .zeroHour12, .inr '.', .inl .zeroMinute, .inr '.', .inl .zeroSecond] := by decide
  rw [t.toList_format hlayout, beforePoint]
  simp only [List.flatMap_cons, List.flatMap_nil, List.append_nil, printPiece, Element.print,
    List.append_assoc, List.cons_append, List.nil_append]

theorem toList_format_fraction : (t.format "2006-01-02-03.04.05.9999").toList =
    (t.format "2006-01-02-03.04.05").toList ++ appendNano 4 t.nanosecond := by
  have hlayout : parseLayout 0 "2006-01-02-03.04.05".toList =
      [.inl .longYear, .inr '-', .inl .zeroMonth, .inr '-', .inl .zeroDay, .inr '-',
        .inl .zeroHour12, .inr '.', .inl .zeroMinute, .inr '.', .inl .zeroSecond] := by decide
  have hfraction : parseLayout 0 "2006-01-02-03.04.05.9999".toList =
      [.inl .longYear, .inr '-', .inl .zeroMonth, .inr '-', .inl .zeroDay, .inr '-',
        .inl .zeroHour12, .inr '.', .inl .zeroMinute, .inr '.', .inl .zeroSecond,
        .inl (.fracSecond9 4)] := by decide
  rw [t.toList_format hlayout, t.toList_format hfraction]
  simp only [List.flatMap_cons, List.flatMap_nil, List.append_nil, printPiece, Element.print,
    List.append_assoc]

/-- A point is no digit of a number. -/
theorem notMem_appendInt {c : Char} (hdigit : c.isDigit = false) (hplus : c ≠ '+')
    (hminus : c ≠ '-') (x : Int) (width : Nat) : c ∉ appendInt x width :=
  (decimal_appendInt x width).notMem hdigit hplus hminus

theorem point_notMem_beforePoint : '.' ∉ beforePoint t := by
  have hnum : ∀ x width, '.' ∉ appendInt x width :=
    notMem_appendInt (by decide) (by decide) (by decide)
  simp only [beforePoint, List.mem_append, List.mem_singleton, not_or]
  exact ⟨⟨⟨⟨⟨⟨hnum _ _, by decide⟩, hnum _ _⟩, by decide⟩, hnum _ _⟩, by decide⟩, hnum _ _⟩

theorem beforePoint_eq_iff :
    beforePoint t = beforePoint t' ↔
      ((t.year = t'.year ∧ t.month = t'.month) ∧ t.day = t'.day) ∧
        t.hour % 12 = t'.hour % 12 := by
  have hm := t.month_range
  have hm' := t'.month_range
  have hd := t.day_range
  have hd' := t'.day_range
  rw [beforePoint, beforePoint, append_appendInt_inj (by decide) (by split <;> omega)
      (by split <;> omega), dial_eq_iff, List.append_left_inj,
    append_appendInt_inj (by decide) (by omega) (by omega), List.append_left_inj,
    append_appendInt_inj (by decide) (by omega) (by omega), List.append_left_inj, appendInt_inj]

/-- The layout of the clock shows everything but the half of the day. -/
theorem clock_append_eq_iff {n n' : Nat} (hn : n < 10 ^ 9) (hn' : n' < 10 ^ 9) :
    (t.format "2006-01-02-03.04.05").toList ++ appendNano 4 n =
        (t'.format "2006-01-02-03.04.05").toList ++ appendNano 4 n' ↔
      clockStamp t (n / 10 ^ 5) = clockStamp t' (n' / 10 ^ 5) := by
  have hpoint : ∀ x width, '.' ∉ appendInt x width :=
    notMem_appendInt (by decide) (by decide) (by decide)
  have hsecond : (appendInt t.second 2).length = (appendInt t'.second 2).length := by
    have hs := t.second_lt
    have hs' := t'.second_lt
    rw [length_appendInt (by decide) (by omega), length_appendInt (by decide) (by omega)]
  have hfraction := appendNano_inj (show 0 < 4 by decide) (show 4 ≤ 9 by decide) hn hn'
  rw [toList_format_clock, toList_format_clock]
  simp only [List.append_assoc, List.cons_append, clockStamp, Stamp.clock.injEq]
  constructor
  · intro h
    obtain ⟨hbefore, hafter⟩ :=
      append_sep_inj (point_notMem_beforePoint t) (point_notMem_beforePoint t') h
    obtain ⟨hminute, hrest⟩ := append_sep_inj (hpoint _ _) (hpoint _ _) hafter
    obtain ⟨hsec, hnano⟩ := List.append_inj hrest hsecond
    obtain ⟨⟨⟨hy, hmo⟩, hd⟩, hh⟩ := (beforePoint_eq_iff t t').mp hbefore
    refine ⟨hy, hmo, hd, hh, ?_, ?_, hfraction.mp hnano⟩
    · exact_mod_cast appendInt_inj.mp hminute
    · exact_mod_cast appendInt_inj.mp hsec
  · rintro ⟨hy, hmo, hd, hh, hi, hs, hf⟩
    rw [(beforePoint_eq_iff t t').mpr ⟨⟨⟨hy, hmo⟩, hd⟩, hh⟩, hi, hs, hfraction.mpr hf]

end Layouts

theorem format_date_eq_iff (dateSlice : String) (t t' : DateTime) :
    t.format (Rotation.dateLayout dateSlice) = t'.format (Rotation.dateLayout dateSlice) ↔
      dateStamp dateSlice t = dateStamp dateSlice t' := by
  rw [Rotation.dateLayout, dateStamp, dateStamp]
  split
  · rw [format_year_eq_iff]
    simp
  split
  · rw [format_month_eq_iff]
    simp
  split
  · rw [format_day_eq_iff]
    simp [and_assoc]
  · rw [format_hour_eq_iff]
    simp [and_assoc]

/-! ## Names -/

theorem toList_archiveName (fileName mark time : String) :
    (archiveName fileName mark time).toList =
      (replace fileName (ext fileName) "").toList ++ mark.toList ++ time.toList ++
        (ext fileName).toList := by
  rw [archiveName, String.toList_append, String.toList_append, String.toList_append]

theorem archiveName_inj (fileName mark : String) {time time' : String} :
    archiveName fileName mark time = archiveName fileName mark time' ↔ time = time' := by
  rw [← String.toList_inj, toList_archiveName, toList_archiveName, List.append_left_inj,
    List.append_right_inj, String.toList_inj]

/-- Date slices and the other archives are marked differently. -/
theorem archiveName_mark_ne (fileName time time' : String) :
    archiveName fileName "_" time ≠ archiveName fileName "." time' := by
  intro h
  rw [← String.toList_inj, toList_archiveName, toList_archiveName] at h
  simp only [List.append_assoc, List.append_right_inj] at h
  have hmark : '_' = '.' := (List.cons.inj h).1
  exact absurd hmark (by decide)

/-- Nothing is lost of the name of the file, and a mark is put in. -/
theorem archiveName_ne (fileName time : String) {mark : String} (hmark : mark ≠ "") :
    archiveName fileName mark time ≠ fileName := by
  intro h
  have hlen := congrArg (fun s => s.toList.length) h
  have hkept := length_le_replaceFirst (ext fileName).toList "".toList fileName.toList
  have hpos : 0 < mark.toList.length := by
    rw [List.length_pos_iff]
    exact fun hnil => hmark (String.toList_inj.mp hnil)
  simp only [toList_archiveName, List.length_append, replace, String.toList_ofList] at hlen
  omega

namespace Rotation

variable (fileName dateSlice : String)

/-- The archives of the other two rules, as one: the size rule shows no fraction. -/
theorem exists_fraction {r : Rotation} (hrule : r.rule ≠ .date) :
    ∃ time n, r.name fileName dateSlice = archiveName fileName "." time ∧
      time.toList = (r.time.format "2006-01-02-03.04.05").toList ++ appendNano 4 n ∧
      n < 10 ^ 9 ∧ r.stamp dateSlice = clockStamp r.time (n / 10 ^ 5) := by
  obtain ⟨rule, t⟩ := r
  cases rule with
  | date => exact absurd rfl hrule
  | line => exact ⟨_, t.nanosecond, rfl, toList_format_fraction t, t.nanosecond_lt, rfl⟩
  | size => exact ⟨_, 0, rfl, (List.append_nil _).symm, by decide, rfl⟩

theorem name_of_date {r : Rotation} (hrule : r.rule = .date) :
    r.name fileName dateSlice =
        archiveName fileName "_" (r.time.format (dateLayout dateSlice)) ∧
      r.stamp dateSlice = dateStamp dateSlice r.time := by
  obtain ⟨rule, t⟩ := r
  subst hrule
  exact ⟨rfl, rfl⟩

theorem dateStamp_ne_clockStamp (t t' : DateTime) (fraction : Nat) :
    dateStamp dateSlice t ≠ clockStamp t' fraction := by
  rw [dateStamp, clockStamp]
  split
  · exact Stamp.noConfusion
  split
  · exact Stamp.noConfusion
  · exact Stamp.noConfusion

/-- Two rotations give one name exactly when the names show one stamp. -/
theorem name_eq_iff (r r' : Rotation) :
    r.name fileName dateSlice = r'.name fileName dateSlice ↔
      r.stamp dateSlice = r'.stamp dateSlice := by
  by_cases hrule : r.rule = .date
  · obtain ⟨hname, hstamp⟩ := name_of_date fileName dateSlice hrule
    by_cases hrule' : r'.rule = .date
    · obtain ⟨hname', hstamp'⟩ := name_of_date fileName dateSlice hrule'
      rw [hname, hname', hstamp, hstamp', archiveName_inj, format_date_eq_iff]
    · obtain ⟨time', n', hname', -, -, hstamp'⟩ := exists_fraction fileName dateSlice hrule'
      rw [hname, hname', hstamp, hstamp']
      exact iff_of_false (archiveName_mark_ne _ _ _) (dateStamp_ne_clockStamp _ _ _ _)
  · obtain ⟨time, n, hname, htime, hn, hstamp⟩ := exists_fraction fileName dateSlice hrule
    by_cases hrule' : r'.rule = .date
    · obtain ⟨hname', hstamp'⟩ := name_of_date fileName dateSlice hrule'
      rw [hname, hname', hstamp, hstamp']
      exact iff_of_false (archiveName_mark_ne _ _ _).symm (dateStamp_ne_clockStamp _ _ _ _).symm
    · obtain ⟨time', n', hname', htime', hn', hstamp'⟩ :=
        exists_fraction fileName dateSlice hrule'
      rw [hname, hname', hstamp, hstamp', archiveName_inj, ← String.toList_inj, htime, htime',
        clock_append_eq_iff r.time r'.time hn hn']

/-- No archive is named like the current file. -/
theorem name_ne (r : Rotation) : r.name fileName dateSlice ≠ fileName := by
  by_cases hrule : r.rule = .date
  · rw [(name_of_date fileName dateSlice hrule).1]
    exact archiveName_ne fileName _ (by decide)
  · obtain ⟨time, n, hname, -⟩ := exists_fraction fileName dateSlice hrule
    rw [hname]
    exact archiveName_ne fileName _ (by decide)

end Rotation

/-- `sliceByDate` archives when the stamps of the two times differ, under the name of
the start time. -/
theorem dateArchive_eq (fileName dateSlice : String) (start t : DateTime) :
    dateArchive fileName dateSlice start t =
      if dateSlice ∈ ["y", "m", "d", "h"] ∧ dateStamp dateSlice start ≠ dateStamp dateSlice t then
        some (Rotation.name fileName dateSlice ⟨.date, start⟩)
      else none := by
  simp only [ne_eq, ← format_date_eq_iff, Rotation.name, Rotation.dateLayout, dateArchive]
  by_cases hy : dateSlice = "y"
  · subst hy
    simp [format_year_eq_iff]
  by_cases hm : dateSlice = "m"
  · subst hm
    simp
  by_cases hd : dateSlice = "d"
  · subst hd
    simp
  · simp [hy, hm, hd]

theorem dateArchive_name {fileName dateSlice name : String} {start t : DateTime}
    (harchive : dateArchive fileName dateSlice start t = some name) :
    name = Rotation.name fileName dateSlice ⟨.date, start⟩ := by
  rw [dateArchive_eq] at harchive
  split at harchive
  · exact (Option.some.inj harchive).symm
  · cases harchive

end Logger
end VermouthGateway
