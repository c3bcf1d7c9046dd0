import VermouthGateway.Logger.Archives

/-!
# Slicing by date

A file is archived when its start and the present lie in different units of the
calendar.  The code compares the printed times.  The layouts of the year, the month
and the day show the unit; the layout of the hour shows the day.

* `SameUnit` is what the units are, on the calendar.
* `sliceByDate_atUnits_iff`: the slices are made at the units, but for the hours of
  one day.
-/

namespace VermouthGateway
namespace Logger

open Go

/-- The units of `DateSlice`. -/
inductive SliceUnit
  | year
  | month
  | day
  | hour
deriving DecidableEq, Repr

namespace SliceUnit

/-- The values of `FILE_DATE_SLICE_YEAR`, `FILE_DATE_SLICE_MONTH`, `FILE_DATE_SLICE_DAY`
and `FILE_DATE_SLICE_HOUR`. -/
def text : SliceUnit → String
  | .year => "y"
  | .month => "m"
  | .day => "d"
  | .hour => "h"

/-- Two times lie in one calendar year, month, day or hour. -/
def SameUnit (t t' : DateTime) : SliceUnit → Prop
  | .year => t.year = t'.year
  | .month => t.year = t'.year ∧ t.month = t'.month
  | .day => t.year = t'.year ∧ t.month = t'.month ∧ t.day = t'.day
  | .hour => t.year = t'.year ∧ t.month = t'.month ∧ t.day = t'.day ∧ t.hour = t'.hour

/-- The unit that the layout shows. -/
def shown : SliceUnit → SliceUnit
  | .hour => .day
  | u => u

variable (u : SliceUnit) (t t' : DateTime)

theorem text_mem : u.text ∈ ["y", "m", "d", "h"] := by
  cases u <;> decide

theorem dateStamp_eq_iff :
    dateStamp u.text t = dateStamp u.text t' ↔ u.shown.SameUnit t t' := by
  cases u <;> simp [dateStamp, text, shown, SameUnit]

/-- Times of one unit look the same. -/
theorem sameUnit_shown {t t' : DateTime} (hsame : u.SameUnit t t') : u.shown.SameUnit t t' := by
  cases u with
  | hour => exact ⟨hsame.1, hsame.2.1, hsame.2.2.1⟩
  | year => exact hsame
  | month => exact hsame
  | day => exact hsame

/-- Only hours look the same though they are not. -/
theorem shown_imp_iff :
    (u.shown.SameUnit t t' → u.SameUnit t t') ↔
      ¬ (u = .hour ∧ SameUnit t t' .day ∧ t.hour ≠ t'.hour) := by
  cases u with
  | hour =>
      simp only [shown, SameUnit, true_and, not_and, not_not]
      constructor
      · rintro h hday
        exact (h hday).2.2.2
      · rintro h hday
        exact ⟨hday.1, hday.2.1, hday.2.2, h hday⟩
  | year => simp [shown]
  | month => simp [shown]
  | day => simp [shown]

end SliceUnit

section Slices

variable (clock : Nat → Int) (zone : Int → DateTime) (u : SliceUnit) (w : World)

/-- The start of the current file on the calendar, and the present. -/
def startOf : DateTime := zone (w.fw.startTime * 10 ^ 9)

def nowOf : DateTime := zone (clock w.ticks)

/-- The slices of `u` are made at the units of the calendar: the file is archived when its
start and the present lie in different ones, and archives of different ones have different
names. -/
structure SlicesAtUnits : Prop where
  archives : ∃ w', EStateM.run (sliceByDate clock zone u.text) w = .ok () w' ∧
    ((∃ name, w'.renamed = w.renamed ++ [(name, w.files.get w.fw.fileName [])]) ↔
      ¬ u.SameUnit (startOf zone w) (nowOf clock zone w))
  names : ¬ u.SameUnit (startOf zone w) (nowOf clock zone w) → ∀ later later' name name',
    dateArchive w.fw.fileName u.text (startOf zone w) later = some name →
    dateArchive w.fw.fileName u.text (nowOf clock zone w) later' = some name' → name ≠ name'

variable {u}

theorem dateArchive_same (fileName : String) {start t : DateTime}
    (hsame : u.shown.SameUnit start t) : dateArchive fileName u.text start t = none := by
  rw [dateArchive_eq, if_neg]
  exact fun h => h.2 ((u.dateStamp_eq_iff start t).mpr hsame)

theorem dateArchive_other (fileName : String) {start t : DateTime}
    (hother : ¬ u.shown.SameUnit start t) :
    dateArchive fileName u.text start t = some (Rotation.name fileName u.text ⟨.date, start⟩) := by
  rw [dateArchive_eq, if_pos]
  exact ⟨u.text_mem, fun h => hother ((u.dateStamp_eq_iff start t).mp h)⟩

/-- Archives are named differently when the layout shows different units. -/
theorem name_date_ne (fileName : String) {start t : DateTime}
    (hother : ¬ u.shown.SameUnit start t) :
    Rotation.name fileName u.text ⟨.date, start⟩ ≠ Rotation.name fileName u.text ⟨.date, t⟩ := by
  rw [ne_eq, Rotation.name_eq_iff]
  exact fun h => hother ((u.dateStamp_eq_iff start t).mp h)

/-- A file is archived exactly when the layout shows that the unit has changed. -/
theorem sliceByDate_archives_iff {content : List String}
    (hcontent : w.files.lookup w.fw.fileName = some content) :
    ∃ w', EStateM.run (sliceByDate clock zone u.text) w = .ok () w' ∧
      ((∃ name, w'.renamed = w.renamed ++ [(name, w.files.get w.fw.fileName [])]) ↔
        ¬ u.shown.SameUnit (startOf zone w) (nowOf clock zone w)) := by
  refine ⟨_, run_sliceByDate clock zone u.text hcontent, ?_⟩
  rw [GoMap.get_of_lookup hcontent]
  by_cases hsame : u.shown.SameUnit (startOf zone w) (nowOf clock zone w)
  · have hnone := dateArchive_same w.fw.fileName hsame
    rw [startOf, nowOf] at hnone
    rw [hnone]
    refine iff_of_false ?_ (fun h => h hsame)
    rintro ⟨name, hname⟩
    exact absurd (congrArg List.length hname) (by simp)
  · have hsome := dateArchive_other w.fw.fileName hsame
    rw [startOf, nowOf] at hsome
    rw [hsome]
    exact iff_of_true ⟨_, rfl⟩ hsame

/-- Date slicing keeps to the units of the calendar, but for the hours of one day. -/
theorem sliceByDate_atUnits_iff (u : SliceUnit) {content : List String}
    (hcontent : w.files.lookup w.fw.fileName = some content) :
    SlicesAtUnits clock zone u w ↔
      ¬ (u = .hour ∧ SliceUnit.SameUnit (startOf zone w) (nowOf clock zone w) .day ∧
        (startOf zone w).hour ≠ (nowOf clock zone w).hour) := by
  rw [← SliceUnit.shown_imp_iff]
  obtain ⟨w', hrun, hiff⟩ := sliceByDate_archives_iff clock zone w (u := u) hcontent
  constructor
  · intro h hshown
    by_contra hother
    obtain ⟨w'', hrun', harchives⟩ := h.archives
    rw [hrun] at hrun'
    cases hrun'
    exact hiff.mp (harchives.mpr hother) hshown
  · intro himp
    have hshown : ¬ u.shown.SameUnit (startOf zone w) (nowOf clock zone w) ↔
        ¬ u.SameUnit (startOf zone w) (nowOf clock zone w) :=
      not_congr ⟨himp, u.sameUnit_shown⟩
    refine ⟨⟨w', hrun, hiff.trans hshown⟩, ?_⟩
    intro hother later later' name name' hname hname'
    rw [dateArchive_name hname, dateArchive_name hname']
    exact name_date_ne w.fw.fileName (hshown.mpr hother)

end Slices

/-- The present, at a given hour of the first day of 1970. -/
def atHour (hour : Nat) (_ : Nat) : Int := hour * 3600 * 10 ^ 9

/-- The clock in UTC for an instant of the first four weeks of 1970. -/
def firstWeeks (t : Int) : DateTime :=
  { firstDay t with
    day := (t / (24 * 3600 * 10 ^ 9) % 28).toNat + 1
    day_range := by omega }

/-- A file of eleven at night is archived at midnight. -/
theorem sliceByDate_at_midnight :
    SlicesAtUnits (atHour 24) firstWeeks .hour (started (atHour 23) "vermouth.log") ∧
      ∃ w' name, EStateM.run (sliceByDate (atHour 24) firstWeeks SliceUnit.hour.text)
        (started (atHour 23) "vermouth.log") = .ok () w' ∧ w'.renamed = [(name, [])] := by
  have hcontent : (started (atHour 23) "vermouth.log").files.lookup
      (started (atHour 23) "vermouth.log").fw.fileName = some [] := by decide +kernel
  have hother : (startOf firstWeeks (started (atHour 23) "vermouth.log")).day ≠
      (nowOf (atHour 24) firstWeeks (started (atHour 23) "vermouth.log")).day := by decide +kernel
  have hslices : SlicesAtUnits (atHour 24) firstWeeks .hour (started (atHour 23) "vermouth.log") :=
    (sliceByDate_atUnits_iff (atHour 24) firstWeeks _ .hour hcontent).mpr
      fun h => hother h.2.1.2.2
  obtain ⟨w', hrun, harchives⟩ := hslices.archives
  obtain ⟨name, hname⟩ := harchives.mpr fun h => hother h.2.2.1
  exact ⟨hslices, w', name, hrun, hname⟩

/-- A file of ten o'clock is not archived at eleven. -/
theorem hour_not_archived :
    ¬ ∀ (clock : Nat → Int) (zone : Int → DateTime) (u : SliceUnit) (w : World)
      (content : List String), w.files.lookup w.fw.fileName = some content →
      SlicesAtUnits clock zone u w := by
  intro hall
  have hslices := hall (atHour 11) firstDay .hour (started (atHour 10) "vermouth.log") []
    (by decide +kernel)
  obtain ⟨w', hrun, harchives⟩ := hslices.archives
  have hother : ¬ SliceUnit.SameUnit (startOf firstDay (started (atHour 10) "vermouth.log"))
      (nowOf (atHour 11) firstDay (started (atHour 10) "vermouth.log")) .hour := by
    rw [SliceUnit.SameUnit]
    decide +kernel
  obtain ⟨name, hname⟩ := harchives.mpr hother
  have hnone : (after (sliceByDate (atHour 11) firstDay SliceUnit.hour.text)
      (started (atHour 10) "vermouth.log")).renamed = [] := by decide +kernel
  rw [after, hrun] at hnone
  rw [hnone] at hname
  exact absurd hname.symm (List.append_ne_nil_of_right_ne_nil _ (List.cons_ne_nil _ _))

end Logger
end VermouthGateway
