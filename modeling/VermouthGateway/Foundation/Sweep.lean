import Mathlib.Data.List.Chain
import Mathlib.Data.List.Nodup
import Mathlib.Data.List.TakeDrop

/-!
# Sweeping a list that shifts under the loop

A loop visits the cells of an array from left to right and removes from a list
every element it does not want to keep.  The list is kept in the first cells of
the same array, and a removal shifts the cells behind it to the left, so the
loop meets a moving list.

* `sweep` is the loop, `survivors` what it leaves in the list.
* `list_sweep`: without duplicates the loop leaves the survivors.
* `survivors_eq_filter_iff`: these are the wanted elements exactly when no two
  neighbours before the last element are both unwanted.
-/

namespace VermouthGateway
namespace Sweep

variable {α : Type} [DecidableEq α] {keep : α → Bool}

/-- An array, and how many of its cells make up the list. -/
structure State (α : Type) where
  cells : List α
  len : Nat

namespace State

/-- The list itself. -/
def list (s : State α) : List α := s.cells.take s.len

/-- Remove one position of the list: the cells behind it move to the left, and
the last cell of the list stays as it was. -/
def shiftOut (s : State α) (i : Nat) : State α :=
  ⟨s.cells.take i ++ (s.list.drop (i + 1) ++ s.cells.drop (s.len - 1)), s.len - 1⟩

/-- Remove a value, at its first position, if it is in the list. -/
def remove (s : State α) (v : α) : State α :=
  match s.list.idxOf? v with
  | none => s
  | some i => s.shiftOut i

/-- One round of the loop: what is read is decided by the array, what is
removed by the list. -/
def visit (keep : α → Bool) (s : State α) (i : Nat) : State α :=
  match s.cells[i]? with
  | none => s
  | some v => if keep v then s else s.remove v

end State

/-- The loop over the cells of the list it starts with. -/
def sweep (keep : α → Bool) (xs : List α) : State α :=
  (List.range xs.length).foldl (State.visit keep) ⟨xs, xs.length⟩

/-- What the loop leaves: the element behind a removed one is not looked at,
unless it is the last one, which is met again in the cells that are left. -/
def survivors (keep : α → Bool) : List α → List α
  | x :: y :: z :: rest =>
      if keep x then x :: survivors keep (y :: z :: rest) else y :: survivors keep (z :: rest)
  | rest => rest.filter keep

namespace State

section Shift

omit [DecidableEq α]

variable {s : State α} {i : Nat}

/-- The cells of a shifted array: moved by one inside the list, left alone
from its last cell on. -/
theorem getElem?_cells_shiftOut (h : s.len ≤ s.cells.length) (hi : i < s.len) (j : Nat) :
    (s.shiftOut i).cells[j]? =
      if j < i then s.cells[j]? else if j < s.len - 1 then s.cells[j + 1]? else s.cells[j]? := by
  have hfront : (s.cells.take i).length = i := List.length_take_of_le (by omega)
  have hback : (s.list.drop (i + 1)).length = s.len - 1 - i := by
    rw [List.length_drop, list, List.length_take_of_le h]
    omega
  rw [shiftOut]
  dsimp only
  split
  · next hj => rw [List.getElem?_append_left (by omega), List.getElem?_take_of_lt hj]
  · next hj =>
      rw [List.getElem?_append_right (by omega), hfront]
      split
      · next hlen =>
          rw [List.getElem?_append_left (by omega), List.getElem?_drop, list,
            List.getElem?_take_of_lt (by omega)]
          congr 1
          omega
      · next hlen =>
          rw [List.getElem?_append_right (by omega), List.getElem?_drop, hback]
          congr 1
          omega

theorem list_shiftOut (h : s.len ≤ s.cells.length) (hi : i < s.len) :
    (s.shiftOut i).list = s.list.eraseIdx i := by
  apply List.ext_getElem?
  intro j
  rw [list, list, List.getElem?_eraseIdx]
  by_cases hj : j < s.len - 1
  · have hlen : j < (s.shiftOut i).len := hj
    rw [List.getElem?_take_of_lt hlen, getElem?_cells_shiftOut h hi,
      List.getElem?_take_of_lt (by omega), List.getElem?_take_of_lt (by omega), if_pos hj]
  · have hlen : (s.shiftOut i).len ≤ j := Nat.not_lt.mp hj
    rw [List.getElem?_take_eq_none hlen, if_neg (by omega), List.getElem?_take_eq_none (by omega)]

end Shift

variable {s : State α} {v : α}

theorem lt_of_idxOf?_list {i : Nat} (h : s.len ≤ s.cells.length)
    (hi : s.list.idxOf? v = some i) : i < s.len := by
  obtain ⟨hlt, -⟩ := List.findIdx?_eq_some_iff_findIdx_eq.mp hi
  rwa [list, List.length_take_of_le h] at hlt

theorem list_remove (h : s.len ≤ s.cells.length) : (s.remove v).list = s.list.erase v := by
  rw [remove, List.erase_eq_eraseIdx]
  cases hi : s.list.idxOf? v with
  | none => rfl
  | some i => exact list_shiftOut h (lt_of_idxOf?_list h hi)

/-- The cells from the last one of the list on are not touched. -/
theorem getElem?_cells_remove (h : s.len ≤ s.cells.length) {j : Nat} (hj : s.len - 1 ≤ j) :
    (s.remove v).cells[j]? = s.cells[j]? := by
  rw [remove]
  cases hi : s.list.idxOf? v with
  | none => rfl
  | some i =>
      have hlt := lt_of_idxOf?_list h hi
      dsimp only
      rw [getElem?_cells_shiftOut h hlt, if_neg (by omega), if_neg (by omega)]

theorem remove_of_notMem (hv : v ∉ s.list) : s.remove v = s := by
  rw [remove, List.idxOf?_eq_none_iff.mpr hv]

theorem visit_keep {i : Nat} (hi : s.cells[i]? = some v) (hv : keep v = true) :
    s.visit keep i = s := by
  rw [visit, hi]
  exact if_pos hv

theorem visit_drop {i : Nat} (hi : s.cells[i]? = some v) (hv : ¬ keep v = true) :
    s.visit keep i = s.remove v := by
  rw [visit, hi]
  exact if_neg hv

/-! ## The cells behind the list -/

/-- `k` rounds from position `i` on. -/
def visits (keep : α → Bool) (s : State α) (i k : Nat) : State α :=
  (List.range' i k).foldl (visit keep) s

theorem visits_succ (i k : Nat) :
    s.visits keep i (k + 1) = (s.visit keep i).visits keep (i + 1) k := rfl

/-- Cells that hold a wanted value, or one that is gone, change nothing. -/
theorem visits_settled {i k : Nat} (hcells : ∀ j, i ≤ j → j < i + k → s.cells[j]? = some v)
    (hv : keep v = true ∨ v ∉ s.list) : s.visits keep i k = s := by
  induction k generalizing i with
  | zero => rfl
  | succ k ih =>
      have hhere : s.visit keep i = s := by
        have hi := hcells i (Nat.le_refl i) (by omega)
        by_cases hkeep : keep v = true
        · exact visit_keep hi hkeep
        · rw [visit_drop hi hkeep, remove_of_notMem (hv.resolve_left hkeep)]
      rw [visits_succ, hhere]
      exact ih fun j hj hlt => hcells j (by omega) (by omega)

/-- From the last cell of the list on all cells hold one value: it is decided
once. -/
theorem list_visits_stale {i k : Nat} (h : s.len ≤ s.cells.length) (hi : s.len ≤ i + 1)
    (hcells : ∀ j, i ≤ j → j < i + (k + 1) → s.cells[j]? = some v) (hnodup : s.list.Nodup) :
    (s.visits keep i (k + 1)).list = if keep v then s.list else s.list.erase v := by
  by_cases hv : keep v = true
  · rw [visits_settled hcells (Or.inl hv), if_pos hv]
  · have hgone : v ∉ (s.remove v).list := by
      rw [list_remove h]
      exact hnodup.not_mem_erase
    have hlater : ∀ j, i + 1 ≤ j → j < i + 1 + k → (s.remove v).cells[j]? = some v := by
      intro j hj hlt
      rw [getElem?_cells_remove h (by omega)]
      exact hcells j (by omega) (by omega)
    rw [visits_succ, visit_drop (hcells i (Nat.le_refl i) (by omega)) hv,
      visits_settled hlater (Or.inr hgone), if_neg hv, list_remove h]

end State

open State

/-! ## The loop -/

/-- The state in the middle of the loop: `front` is decided, `rest` is the list
that is left and the cells in `stale` are copies of its last element. -/
def middle (front rest stale : List α) : State α :=
  ⟨front ++ (rest ++ stale), front.length + rest.length⟩

section Middle

variable {front rest stale : List α} {x z : α}

omit [DecidableEq α] in
theorem list_middle : (middle front rest stale).list = front ++ rest := by
  rw [middle, list, ← List.append_assoc, ← List.length_append, List.take_left]

omit [DecidableEq α] in
theorem len_middle_le : (middle front rest stale).len ≤ (middle front rest stale).cells.length := by
  simp [middle]

omit [DecidableEq α] in
theorem cells_middle_here : (middle front (x :: rest) stale).cells[front.length]? = some x := by
  simp [middle]

omit [DecidableEq α] in
theorem middle_next : middle front (x :: rest) stale = middle (front ++ [x]) rest stale := by
  simp [middle, Nat.add_comm, Nat.add_left_comm]

/-- The element of the round is removed: the rest moves to the left, and its
last element is now there twice. -/
theorem remove_middle (hx : x ∉ front) (hlast : rest.getLast? = some z) :
    (middle front (x :: rest) stale).remove x = middle front rest (z :: stale) := by
  obtain ⟨ys, rfl⟩ := List.getLast?_eq_some_iff.mp hlast
  have hindex : (front ++ x :: (ys ++ [z])).idxOf? x = some front.length := by
    have hnone : List.findIdx? (· == x) front = none := List.idxOf?_eq_none_iff.mpr hx
    rw [List.idxOf?, List.findIdx?_append, hnone]
    simp [List.findIdx?_cons]
  have hfront : (middle front (x :: (ys ++ [z])) stale).cells.take front.length = front :=
    List.take_left
  have hmoved : (front ++ x :: (ys ++ [z])).drop (front.length + 1) = ys ++ [z] := by
    rw [List.drop_append, List.drop_of_length_le (Nat.le_succ _), Nat.add_sub_cancel_left]
    rfl
  have hlen : (middle front (x :: (ys ++ [z])) stale).len - 1 =
      front.length + (ys.length + 1) := by
    simp [middle, Nat.add_assoc]
  have hbehind : (middle front (x :: (ys ++ [z])) stale).cells.drop
      (front.length + (ys.length + 1)) = z :: stale := by
    rw [middle, List.drop_append, List.drop_of_length_le (Nat.le_add_right _ _),
      Nat.add_sub_cancel_left]
    simp
  rw [remove, list_middle, hindex]
  dsimp only
  rw [shiftOut, list_middle, hfront, hmoved, hlen, hbehind, middle]
  simp

/-- Before the last element of the list: from here on, or from the next cell on,
there is nothing else to read. -/
theorem list_visits_last {i k : Nat} (hnodup : (front ++ [z]).Nodup) (hstale : ∀ t ∈ stale, t = z)
    (hi : front.length ≤ i) (hk : i + (k + 1) ≤ front.length + (stale.length + 1)) :
    ((middle front [z] stale).visits keep i (k + 1)).list = front ++ [z].filter keep := by
  have hcells : ∀ j, i ≤ j → j < i + (k + 1) → (middle front [z] stale).cells[j]? = some z := by
    intro j hj hlt
    rw [middle, List.getElem?_append_right (hi.trans hj)]
    have hlength : j - front.length < ([z] ++ stale).length := by
      rw [List.length_append, List.length_singleton]
      omega
    rw [List.getElem?_eq_getElem hlength]
    congr 1
    rcases List.mem_cons.mp (List.getElem_mem hlength) with heq | hmem
    · exact heq
    · exact hstale _ hmem
  have hlen : (middle front [z] stale).len ≤ i + 1 := Nat.succ_le_succ hi
  rw [list_visits_stale len_middle_le hlen hcells (by rwa [list_middle]), list_middle]
  have hz : z ∉ front := fun hmem =>
    (List.nodup_append.mp hnodup).2.2 z hmem z (List.mem_singleton_self z) rfl
  split
  · next hkeep => rw [List.filter_cons_of_pos hkeep, List.filter_nil]
  · next hkeep =>
      rw [List.filter_cons_of_neg hkeep, List.erase_append_right _ hz, List.erase_cons_head]
      rfl

end Middle

/-- The loop from the middle on. -/
theorem list_visits_middle {front rest stale : List α} {z : α} (hnodup : (front ++ rest).Nodup)
    (hlast : rest.getLast? = some z) (hstale : ∀ t ∈ stale, t = z) :
    ((middle front rest stale).visits keep front.length (rest.length + stale.length)).list =
      front ++ survivors keep rest := by
  induction rest using survivors.induct keep generalizing front stale with
  | case1 x y w rest hx ih =>
      rw [survivors, if_pos hx, List.length_cons, Nat.add_right_comm, visits_succ,
        visit_keep cells_middle_here hx, middle_next]
      have hnext := @ih (front ++ [x]) stale (by simpa using hnodup) (by simpa using hlast) hstale
      simpa using hnext
  | case2 x y w rest hx ih =>
      -- the cell now holds `y`, and the loop goes on behind it
      have hlast' : (y :: w :: rest).getLast? = some z := by simpa using hlast
      have hx' : x ∉ front := fun hmem =>
        (List.nodup_append.mp hnodup).2.2 x hmem x List.mem_cons_self rfl
      have hnodup' : (front ++ y :: w :: rest).Nodup :=
        hnodup.sublist ((List.sublist_cons_self _ _).append_left _)
      rw [survivors, if_neg hx, List.length_cons, Nat.add_right_comm, visits_succ,
        visit_drop cells_middle_here hx, remove_middle hx' hlast', middle_next]
      have hnext := @ih (front ++ [y]) (z :: stale) (by simpa using hnodup')
        (by simpa using hlast) (by simpa using hstale)
      simpa [Nat.add_assoc, Nat.add_comm, Nat.add_left_comm] using hnext
  | case3 rest hrest =>
      rw [survivors.eq_2 keep rest hrest]
      match rest, hrest, hlast, hnodup with
      | [x], _, hlast, hnodup =>
          obtain rfl : x = z := by simpa using hlast
          rw [List.length_singleton, Nat.add_comm]
          exact list_visits_last hnodup hstale (Nat.le_refl _) (Nat.le_refl _)
      | [x, y], _, hlast, hnodup =>
          obtain rfl : y = z := by simpa using hlast
          have hx : x ∉ front := fun hmem =>
            (List.nodup_append.mp hnodup).2.2 x hmem x List.mem_cons_self rfl
          rw [List.length_cons, Nat.add_right_comm, visits_succ, List.length_singleton,
            Nat.add_comm 1]
          by_cases hkeep : keep x = true
          · have hlast : ((middle (front ++ [x]) [y] stale).visits keep (front.length + 1)
                (stale.length + 1)).list = front ++ [x] ++ [y].filter keep :=
              list_visits_last (by simpa using hnodup) hstale (by simp)
                (by simp [Nat.add_comm, Nat.add_left_comm])
            rw [visit_keep cells_middle_here hkeep, middle_next, hlast, List.append_assoc,
              List.filter_cons_of_pos hkeep, List.singleton_append]
          · rw [visit_drop cells_middle_here hkeep, remove_middle hx rfl,
              List.filter_cons_of_neg hkeep]
            exact list_visits_last (hnodup.sublist ((List.sublist_cons_self _ _).append_left _))
              (by simpa using hstale) (Nat.le_succ _)
              (by simp [Nat.add_comm, Nat.add_left_comm])
      | x :: y :: w :: rest, hrest, _, _ => exact absurd rfl (hrest x y w rest)

/-- Without duplicates the loop leaves the survivors. -/
theorem list_sweep {xs : List α} (hnodup : xs.Nodup) :
    (sweep keep xs).list = survivors keep xs := by
  cases hlast : xs.getLast? with
  | none =>
      obtain rfl := List.getLast?_eq_none_iff.mp hlast
      rfl
  | some z =>
      have hmiddle : ((middle [] xs []).visits keep 0 (xs.length + 0)).list =
          [] ++ survivors keep xs := list_visits_middle hnodup hlast (by simp)
      simpa [middle, visits, sweep, List.range_eq_range'] using hmiddle

/-! ## What the loop misses -/

omit [DecidableEq α] in
/-- A wanted element in front of a chain never breaks it. -/
theorem isChain_cons_of_keep {x : α} {xs : List α} (hx : keep x = true) :
    (x :: xs).IsChain (fun x y => keep x = true ∨ keep y = true) ↔
      xs.IsChain fun x y => keep x = true ∨ keep y = true := by
  cases xs with
  | nil => simp
  | cons y ys => simp [List.isChain_cons_cons, hx]

omit [DecidableEq α] in
theorem survivors_eq_filter_iff (keep : α → Bool) (xs : List α) :
    survivors keep xs = xs.filter keep ↔
      xs.dropLast.IsChain fun x y => keep x = true ∨ keep y = true := by
  induction xs using survivors.induct keep with
  | case1 x y w rest hx ih =>
      have hlist : (x :: y :: w :: rest).dropLast = x :: (y :: w :: rest).dropLast :=
        List.dropLast_cons_cons
      rw [survivors, if_pos hx, List.filter_cons_of_pos hx, List.cons_inj_right, ih, hlist,
        isChain_cons_of_keep hx]
  | case2 x y w rest hx ih =>
      rw [survivors, if_neg hx, List.filter_cons_of_neg hx, List.dropLast_cons_cons,
        List.dropLast_cons_cons]
      by_cases hy : keep y = true
      · rw [List.filter_cons_of_pos hy, List.cons_inj_right, ih, List.isChain_cons_cons,
          isChain_cons_of_keep hy]
        exact ⟨fun h => ⟨Or.inr hy, h⟩, fun h => h.2⟩
      · -- the skipped element is kept although it is not wanted
        constructor
        · intro heq
          have hmem : y ∈ (y :: w :: rest).filter keep := heq ▸ List.mem_cons_self
          exact absurd (List.mem_filter.mp hmem).2 hy
        · intro hchain
          exact absurd (List.isChain_cons_cons.mp hchain).1 (by simp [hx, hy])
  | case3 rest hrest =>
      rw [survivors.eq_2 keep rest hrest]
      match rest, hrest with
      | [], _ => simp
      | [x], _ => simp
      | [x, y], _ => simp
      | x :: y :: w :: rest, hrest => exact absurd rfl (hrest x y w rest)

end Sweep
end VermouthGateway
