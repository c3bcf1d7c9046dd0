import Mathlib.Data.List.Rotate

/-!
# Picking in turn

A counter that is reduced modulo the length of a list picks the elements of the
list in turn, from wherever it stands.

* `picks_length`: one round of picks is a rotation of the list.
* `count_picks`: so whole rounds pick every element equally often.
-/

namespace VermouthGateway
namespace Rotation

universe u

variable {α : Type u}

/-- The element under a counter. -/
def pick (l : List α) (counter : Nat) : Option α := l[counter % l.length]?

/-- The elements under `n` consecutive values of the counter. -/
def picks (l : List α) (counter : Nat) : Nat → List α
  | 0 => []
  | n + 1 => (pick l counter).toList ++ picks l (counter + 1) n

theorem picks_add (l : List α) (counter m n : Nat) :
    picks l counter (m + n) = picks l counter m ++ picks l (counter + m) n := by
  induction m generalizing counter with
  | zero => rw [Nat.zero_add, Nat.add_zero, picks, List.nil_append]
  | succ m ih =>
      rw [Nat.succ_add, picks, ih, picks, List.append_assoc, Nat.add_right_comm, Nat.add_assoc]

/-- The first picks of a round are the first elements of the rotated list. -/
theorem picks_eq_take (l : List α) (counter : Nat) {n : Nat} (hn : n ≤ l.length) :
    picks l counter n = (l.rotate counter).take n := by
  induction n with
  | zero => rw [List.take_zero, picks]
  | succ n ih =>
      have hlast : (l.rotate counter)[n]? = pick l (counter + n) := by
        rw [List.getElem?_rotate hn, pick, Nat.add_comm]
      rw [picks_add, ih (Nat.le_of_succ_le hn), List.take_add_one, hlast, picks, picks,
        List.append_nil]

/-- One round is a rotation, so it picks the elements of the list. -/
theorem picks_length (l : List α) (counter : Nat) :
    picks l counter l.length = l.rotate counter := by
  rw [picks_eq_take l counter le_rfl, ← List.length_rotate l counter, List.take_length]

/-- `k` rounds pick an element `k` times as often as it occurs. -/
theorem count_picks [DecidableEq α] (l : List α) (counter k : Nat) (a : α) :
    (picks l counter (k * l.length)).count a = k * l.count a := by
  induction k generalizing counter with
  | zero => rw [Nat.zero_mul, Nat.zero_mul, picks, List.count_nil]
  | succ k ih =>
      rw [Nat.succ_mul, Nat.add_comm, picks_add, List.count_append, ih, picks_length,
        (List.rotate_perm l counter).count_eq, Nat.succ_mul, Nat.add_comm]

end Rotation
end VermouthGateway
