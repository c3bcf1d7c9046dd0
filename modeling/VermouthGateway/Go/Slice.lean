import VermouthGateway.Go.Effect
import Mathlib.Data.List.TakeDrop

/-!
# Slices

A slice is a window on an array: where it begins, how long it is and how far
it could grow.  `Arrays` is the memory the arrays live in; two slices of one
array see each other's writes.

* `append` writes behind the slice while there is room and moves to a new array
  otherwise.
* `elems` reads a slice as a list.
-/

namespace VermouthGateway
namespace Go

structure Slice where
  array : Nat
  offset : Nat
  len : Nat
  cap : Nat
  le_cap : len ≤ cap
deriving DecidableEq

/-- The nil slice, and the slice of an empty literal. -/
def Slice.nil : Slice := ⟨0, 0, 0, 0, Nat.le_refl 0⟩

/-- `s[lo:hi]`. -/
def Slice.slice (s : Slice) (lo hi : Nat) : Except Halt Slice :=
  if h : lo ≤ hi ∧ hi ≤ s.cap then
    .ok ⟨s.array, s.offset + lo, hi - lo, s.cap - lo, Nat.sub_le_sub_right h.2 lo⟩
  else .error (.panic .sliceBounds)

structure Arrays (α : Type) where
  cells : Nat → Nat → α
  /-- Arrays from `next` on are not allocated yet. -/
  next : Nat
  /-- The room the run time adds when a slice outgrows its array. -/
  spare : Nat → Nat

namespace Arrays

variable {α : Type}

/-- `n` cells of an array. -/
def window (m : Arrays α) (array start n : Nat) : List α :=
  (List.range n).map fun i => m.cells array (start + i)

/-- The elements of a slice. -/
def elems (m : Arrays α) (s : Slice) : List α := m.window s.array s.offset s.len

/-- Overwrite consecutive cells. -/
def copy (m : Arrays α) (array start : Nat) (xs : List α) : Arrays α :=
  { m with
    cells := fun a i =>
      if a = array ∧ start ≤ i then (xs[i - start]?).getD (m.cells a i) else m.cells a i }

/-- `append(s, xs...)`. -/
def append (m : Arrays α) (s : Slice) (xs : List α) : Slice × Arrays α :=
  if h : s.len + xs.length ≤ s.cap then
    (⟨s.array, s.offset, s.len + xs.length, s.cap, h⟩, m.copy s.array (s.offset + s.len) xs)
  else
    (⟨m.next, 0, s.len + xs.length, s.len + xs.length + m.spare (s.len + xs.length),
        Nat.le_add_right _ _⟩,
      { m.copy m.next 0 (m.elems s ++ xs) with next := m.next + 1 })

variable {m : Arrays α} {s : Slice} {xs : List α} {a i n : Nat}

@[simp] theorem length_window : (m.window a i n).length = n := by
  simp [window]

@[simp] theorem length_elems : (m.elems s).length = s.len := length_window

theorem getElem?_window {j : Nat} (hj : j < n) :
    (m.window a i n)[j]? = some (m.cells a (i + j)) := by
  simp [window, hj]

theorem cells_copy (m : Arrays α) (a i j : Nat) (xs : List α) :
    (m.copy a i xs).cells a j =
      if i ≤ j then (xs[j - i]?).getD (m.cells a j) else m.cells a j := by
  simp [copy]

/-- A window with some of its cells overwritten. -/
theorem window_copy {k : Nat} (hk : k + xs.length ≤ n) :
    (m.copy a (i + k) xs).window a i n =
      (m.window a i n).take k ++ (xs ++ (m.window a i n).drop (k + xs.length)) := by
  have hfront : ((m.window a i n).take k).length = k := List.length_take_of_le (by simp; omega)
  apply List.ext_getElem?
  intro j
  by_cases hj : j < n
  swap
  · rw [List.getElem?_eq_none (by simp; omega), List.getElem?_eq_none (by simp; omega)]
  rw [getElem?_window hj, cells_copy]
  by_cases hleft : j < k
  · rw [if_neg (by omega), List.getElem?_append_left (by omega), List.getElem?_take_of_lt hleft,
      getElem?_window hj]
  rw [if_pos (by omega), List.getElem?_append_right (by omega), hfront,
    Nat.add_sub_add_left i j k]
  by_cases hmiddle : j - k < xs.length
  · rw [List.getElem?_append_left hmiddle, List.getElem?_eq_getElem hmiddle]
    rfl
  · rw [List.getElem?_append_right (by omega), List.getElem?_drop,
      List.getElem?_eq_none (Nat.not_lt.mp hmiddle), getElem?_window (by omega), Option.getD_none]
    congr 2
    omega

theorem window_take {k : Nat} (hk : k ≤ n) : (m.window a i n).take k = m.window a i k := by
  rw [window, ← List.map_take, List.take_range, Nat.min_eq_left hk, window]

theorem window_drop (k : Nat) : (m.window a i n).drop k = m.window a (i + k) (n - k) := by
  apply List.ext_getElem?
  intro j
  rw [List.getElem?_drop]
  by_cases hj : k + j < n
  · rw [getElem?_window hj, getElem?_window (by omega), Nat.add_assoc]
  · rw [List.getElem?_eq_none (by simp; omega), List.getElem?_eq_none (by simp; omega)]

/-- Appending adds to the elements, whether it finds room or moves. -/
theorem elems_append (m : Arrays α) (s : Slice) (xs : List α) :
    (m.append s xs).2.elems (m.append s xs).1 = m.elems s ++ xs := by
  rw [append]
  split
  · next hroom =>
      have hend : ((m.window s.array s.offset (s.len + xs.length)).drop (s.len + xs.length)) = [] :=
        List.drop_of_length_le (by simp)
      rw [elems, window_copy (Nat.le_refl _), hend, List.append_nil,
        window_take (Nat.le_add_right _ _)]
      rfl
  · next hfull =>
      have hlen : (m.elems s ++ xs).length = s.len + xs.length := by simp
      have hcopy : (m.copy m.next (0 + 0) (m.elems s ++ xs)).window m.next 0 (s.len + xs.length) =
          m.elems s ++ xs := by
        rw [window_copy (by omega), List.take_zero, List.nil_append, Nat.zero_add, hlen,
          List.drop_of_length_le (by simp), List.append_nil]
      exact hcopy

/-- The elements of a subslice. -/
theorem elems_slice {s' : Slice} {lo hi : Nat} (h : s.slice lo hi = .ok s') (hhi : hi ≤ s.len) :
    m.elems s' = ((m.elems s).take hi).drop lo := by
  rw [Slice.slice] at h
  split at h
  · cases h
    rw [elems, elems, window_take hhi, window_drop]
  · cases h

end Arrays
end Go
end VermouthGateway
