import Mathlib.Data.List.Basic
import Mathlib.Data.List.Infix
import Mathlib.Data.Nat.Find

/-!
# Searching and replacing in texts

`strings.Index`, `strings.Replace` with a count of one, and `path.Ext`.

* `index_eq_some_iff` and `index_eq_none_iff` say what a search finds.
* `exists_cut` cuts a text at an occurrence.
-/

namespace VermouthGateway
namespace Go

section Lists

variable {α : Type} [DecidableEq α]

/-- `strings.Index`: where `old` occurs first; `none` is the index -1. -/
def index (old : List α) : List α → Option Nat
  | [] => if old = [] then some 0 else none
  | c :: cs => if old <+: c :: cs then some 0 else (index old cs).map (· + 1)

/-- `strings.Replace(s, old, new, 1)`. -/
def replaceFirst (old new cs : List α) : List α :=
  match index old cs with
  | none => cs
  | some k => cs.take k ++ new ++ cs.drop (k + old.length)

theorem index_eq_some_iff {old cs : List α} {k : Nat} :
    index old cs = some k ↔
      k ≤ cs.length ∧ old <+: cs.drop k ∧ ∀ j < k, ¬ old <+: cs.drop j := by
  induction cs generalizing k with
  | nil =>
      rw [index]
      by_cases hold : old = []
      · rw [if_pos hold, Option.some.injEq]
        constructor
        · rintro rfl
          exact ⟨Nat.le_refl 0, by simp [hold], fun j hj => absurd hj (Nat.not_lt_zero j)⟩
        · rintro ⟨hk, -, -⟩
          exact (Nat.le_zero.mp hk).symm
      · rw [if_neg hold]
        refine ⟨(by intro h; cases h), ?_⟩
        rintro ⟨-, hpre, -⟩
        rw [List.drop_nil] at hpre
        exact absurd (List.prefix_nil.mp hpre) hold
  | cons c cs ih =>
      rw [index]
      by_cases hhere : old <+: c :: cs
      · rw [if_pos hhere, Option.some.injEq]
        constructor
        · rintro rfl
          exact ⟨Nat.zero_le _, hhere, fun j hj => absurd hj (Nat.not_lt_zero j)⟩
        · rintro ⟨-, -, hfirst⟩
          by_contra hk
          exact hfirst 0 (Nat.pos_of_ne_zero fun h => hk h.symm) hhere
      · rw [if_neg hhere]
        cases k with
        | zero =>
            constructor
            · intro h
              obtain ⟨j, -, hj⟩ := Option.map_eq_some_iff.mp h
              cases hj
            · rintro ⟨-, hpre, -⟩
              exact absurd hpre hhere
        | succ k =>
            have hshift : (index old cs).map (· + 1) = some (k + 1) ↔ index old cs = some k := by
              rw [Option.map_eq_some_iff]
              constructor
              · rintro ⟨j, hj, hjk⟩
                rw [hj, Nat.succ.inj hjk]
              · exact fun h => ⟨k, h, rfl⟩
            rw [hshift, ih]
            constructor
            · rintro ⟨hlen, hpre, hfirst⟩
              refine ⟨Nat.succ_le_succ hlen, hpre, fun j hj => ?_⟩
              cases j with
              | zero => exact hhere
              | succ j => exact hfirst j (Nat.lt_of_succ_lt_succ hj)
            · rintro ⟨hlen, hpre, hfirst⟩
              exact ⟨Nat.le_of_succ_le_succ hlen, hpre,
                fun j hj => hfirst (j + 1) (Nat.succ_lt_succ hj)⟩

theorem index_eq_none_iff {old cs : List α} :
    index old cs = none ↔ ∀ k ≤ cs.length, ¬ old <+: cs.drop k := by
  constructor
  · intro hnone k hk hpre
    -- the first occurrence would have been found
    obtain ⟨j, ⟨hj, hpre'⟩, hfirst⟩ : ∃ j, (j ≤ cs.length ∧ old <+: cs.drop j) ∧
        ∀ i < j, ¬ (i ≤ cs.length ∧ old <+: cs.drop i) := by
      have hex : ∃ j, j ≤ cs.length ∧ old <+: cs.drop j := ⟨k, hk, hpre⟩
      exact ⟨Nat.find hex, Nat.find_spec hex, fun i hi => Nat.find_min hex hi⟩
    have hsome : index old cs = some j := index_eq_some_iff.mpr
      ⟨hj, hpre', fun i hi hocc => hfirst i hi ⟨Nat.le_of_lt (Nat.lt_of_lt_of_le hi hj), hocc⟩⟩
    rw [hnone] at hsome
    cases hsome
  · intro hall
    cases hindex : index old cs with
    | none => rfl
    | some k =>
        obtain ⟨hk, hpre, -⟩ := index_eq_some_iff.mp hindex
        exact absurd hpre (hall k hk)

/-- A replacement takes away no more than what it replaces. -/
theorem length_le_replaceFirst (old new cs : List α) :
    cs.length ≤ (replaceFirst old new cs).length + old.length := by
  rw [replaceFirst]
  cases hindex : index old cs with
  | none => exact Nat.le_add_right _ _
  | some k =>
      obtain ⟨hk, -, -⟩ := index_eq_some_iff.mp hindex
      simp only [List.length_append, List.length_take, List.length_drop]
      omega

end Lists

/-- An occurrence, as a cut of the text into three. -/
theorem exists_cut {α : Type} {old cs : List α} {k : Nat} (hk : k ≤ cs.length)
    (hpre : old <+: cs.drop k) :
    ∃ before after, cs = before ++ old ++ after ∧ before.length = k := by
  obtain ⟨after, hafter⟩ := hpre
  refine ⟨cs.take k, after, ?_, List.length_take_of_le hk⟩
  rw [List.append_assoc, hafter, List.take_append_drop]

/-- `strings.Replace(s, old, new, 1)` on strings. -/
def replace (s old new : String) : String :=
  String.ofList (replaceFirst old.toList new.toList s.toList)

/-- `path.Ext`: the last element of the path from its last point on. -/
def ext (path : String) : String :=
  let base := path.toList.reverse.takeWhile (· != '/')
  if '.' ∈ base then String.ofList ('.' :: (base.takeWhile (· != '.')).reverse) else ""

end Go
end VermouthGateway
