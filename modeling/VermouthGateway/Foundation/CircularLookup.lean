import Mathlib.Data.List.Sort
import Mathlib.Data.List.Perm.Subperm
import Mathlib.Data.Set.Basic

/-!
# Look-up on a circle

Positions are linearly ordered and read as a circle: after the last one comes
the first again.  Some positions have an owner, and a position is answered by
the owner of its successor.

* `search` finds the successor in a sorted list: `isSuccessor_search`.
* `erase_eq_eraseIdx_search`: cutting a sorted list where the search of an
  element ends takes that element out.
* `Extends`: one more owner takes some free positions.  Only what it answers
  then changes hands, `Extends.answers` and `Extends.answers_before`.
-/

namespace VermouthGateway
namespace CircularLookup

universe u v

variable {α : Type u} {β : Type v}

/-! ## Owners -/

/-- The positions that have an owner. -/
def placed (owner : α → Option β) : Set α := {k | (owner k).isSome}

theorem mem_placed {owner : α → Option β} {k : α} {b : β} (h : owner k = some b) :
    k ∈ placed owner :=
  Option.isSome_iff_exists.mpr ⟨b, h⟩

/-- `b` takes some positions that nobody had. -/
structure Extends (owner owner' : α → Option β) (b : β) : Prop where
  kept : ∀ {k c}, owner k = some c → owner' k = some c
  new : ∀ {k c}, owner' k = some c → owner k = some c ∨ c = b

theorem Extends.placed_subset {owner owner' : α → Option β} {b : β}
    (h : Extends owner owner' b) : placed owner ⊆ placed owner' := by
  intro k hk
  obtain ⟨c, hc⟩ := Option.isSome_iff_exists.mp hk
  exact mem_placed (h.kept hc)

variable [LinearOrder α]

/-! ## Successors -/

/-- `k` is the first position of `S` from `x` upwards, and the lowest one when
there is none. -/
def IsSuccessor (S : Set α) (x k : α) : Prop :=
  k ∈ S ∧
    ((x ≤ k ∧ ∀ k' ∈ S, x ≤ k' → k ≤ k') ∨ ((∀ k' ∈ S, k' < x) ∧ ∀ k' ∈ S, k ≤ k'))

theorem IsSuccessor.unique {S : Set α} {x k k' : α} (h : IsSuccessor S x k)
    (h' : IsSuccessor S x k') : k = k' := by
  obtain ⟨hmem, ⟨hle, hleast⟩ | ⟨hbelow, hlowest⟩⟩ := h <;>
    obtain ⟨hmem', ⟨hle', hleast'⟩ | ⟨hbelow', hlowest'⟩⟩ := h'
  · exact le_antisymm (hleast k' hmem' hle') (hleast' k hmem hle)
  · exact absurd hle (not_le.mpr (hbelow' k hmem))
  · exact absurd hle' (not_le.mpr (hbelow k' hmem'))
  · exact le_antisymm (hlowest k' hmem') (hlowest' k hmem)

/-- A successor that stays is the successor among fewer positions. -/
theorem IsSuccessor.of_subset {S T : Set α} {x k : α} (h : IsSuccessor T x k) (hsub : S ⊆ T)
    (hk : k ∈ S) : IsSuccessor S x k := by
  refine ⟨hk, ?_⟩
  rcases h.2 with ⟨hle, hleast⟩ | ⟨hbelow, hlowest⟩
  · exact Or.inl ⟨hle, fun k' hk' => hleast k' (hsub hk')⟩
  · exact Or.inr ⟨fun k' hk' => hbelow k' (hsub hk'), fun k' hk' => hlowest k' (hsub hk')⟩

/-- A position of the circle is its own successor. -/
theorem isSuccessor_self {S : Set α} {x : α} (hx : x ∈ S) : IsSuccessor S x x :=
  ⟨hx, Or.inl ⟨le_rfl, fun _ _ hle => hle⟩⟩

/-! ## Searching a sorted list -/

/-- The index of the first element that is not below `x`. -/
def search (keys : List α) (x : α) : Nat := keys.findIdx fun key => x ≤ key

theorem search_lt_iff (keys : List α) (x : α) :
    search keys x < keys.length ↔ ∃ key ∈ keys, x ≤ key := by
  rw [search, List.findIdx_lt_length]
  simp only [decide_eq_true_eq]

section Sorted

variable {keys : List α}

/-- Everything before the place the search ends at is below `x`. -/
theorem lt_of_lt_search {x : α} {i : Nat} (hi : i < keys.length) (hbefore : i < search keys x) :
    keys[i] < x := by
  have hnot := List.not_of_lt_findIdx hbefore
  exact not_le.mp (of_decide_eq_false hnot)

/-- In a sorted list the search, taken modulo the length, ends at the
successor. -/
theorem isSuccessor_search (hsorted : keys.Pairwise (· ≤ ·)) (hne : keys ≠ []) (x zero : α) :
    IsSuccessor {k | k ∈ keys} x (keys.getD (search keys x % keys.length) zero) := by
  have hpos : 0 < keys.length := List.length_pos_iff.mpr hne
  rw [List.pairwise_iff_getElem] at hsorted
  by_cases hfound : search keys x < keys.length
  · rw [Nat.mod_eq_of_lt hfound, ← List.getElem_eq_getD]
    have hle : x ≤ keys[search keys x] := of_decide_eq_true (List.findIdx_getElem (w := hfound))
    refine ⟨List.getElem_mem hfound, Or.inl ⟨hle, ?_⟩⟩
    intro k' hk' hxk'
    obtain ⟨i, hi, rfl⟩ := List.mem_iff_getElem.mp hk'
    rcases lt_trichotomy (search keys x) i with hlt | heq | hgt
    · exact hsorted _ i hfound hi hlt
    · exact le_of_eq (by simp only [heq])
    · exact absurd hxk' (not_le.mpr (lt_of_lt_search hi hgt))
  · -- nothing is above `x`: the index is the length, and the remainder the start
    have hend : search keys x = keys.length :=
      le_antisymm List.findIdx_le_length (not_lt.mp hfound)
    rw [hend, Nat.mod_self, ← List.getElem_eq_getD (h := hpos)]
    refine ⟨List.getElem_mem hpos, Or.inr ⟨?_, ?_⟩⟩
    · intro k' hk'
      obtain ⟨i, hi, rfl⟩ := List.mem_iff_getElem.mp hk'
      exact lt_of_lt_search hi (by rw [hend]; exact hi)
    · intro k' hk'
      obtain ⟨i, hi, rfl⟩ := List.mem_iff_getElem.mp hk'
      rcases Nat.eq_zero_or_pos i with rfl | hi'
      · exact le_rfl
      · exact hsorted 0 i hpos hi hi'

/-- The search of an element of a sorted list ends at its first occurrence. -/
theorem search_eq_idxOf (hsorted : keys.Pairwise (· ≤ ·)) {x : α} (hx : x ∈ keys) :
    search keys x = keys.idxOf x := by
  induction keys with
  | nil => cases hx
  | cons key keys ih =>
      obtain ⟨hkey, hrest⟩ := List.pairwise_cons.mp hsorted
      by_cases heq : key = x
      · rw [heq, List.idxOf_cons_self, search, List.findIdx_cons]
        simp only [le_refl, decide_true, cond_true]
      · have hx' : x ∈ keys := (List.mem_cons.mp hx).resolve_left (Ne.symm heq)
        have hlt : key < x := lt_of_le_of_ne (hkey x hx') heq
        rw [List.idxOf_cons_ne keys heq, ← ih hrest hx', search, List.findIdx_cons]
        simp only [decide_eq_false (not_le.mpr hlt), cond_false, search]

theorem erase_eq_eraseIdx_search (hsorted : keys.Pairwise (· ≤ ·)) {x : α} (hx : x ∈ keys) :
    keys.eraseIdx (search keys x) = keys.erase x := by
  rw [search_eq_idxOf hsorted hx]
  exact (List.erase_eq_eraseIdx_of_idxOf rfl).symm

end Sorted

/-! ## Answers -/

/-- `x` is answered by `b`, the owner of its successor. -/
def Answers (owner : α → Option β) (x : α) (b : β) : Prop :=
  ∃ k, IsSuccessor (placed owner) x k ∧ owner k = some b

theorem Answers.unique {owner : α → Option β} {x : α} {b b' : β} (h : Answers owner x b)
    (h' : Answers owner x b') : b = b' := by
  obtain ⟨k, hsucc, hk⟩ := h
  obtain ⟨k', hsucc', hk'⟩ := h'
  rw [hsucc.unique hsucc', hk'] at hk
  exact (Option.some.inj hk).symm

namespace Extends

variable {owner owner' : α → Option β} {b g g' : β} {x : α}

/-- What somebody else answers afterwards, he answered before. -/
theorem answers_before (h : Extends owner owner' b) (hafter : Answers owner' x g) (hne : g ≠ b) :
    Answers owner x g := by
  obtain ⟨k, hsucc, hk⟩ := hafter
  have hbefore : owner k = some g := (h.new hk).resolve_right hne
  exact ⟨k, hsucc.of_subset h.placed_subset (mem_placed hbefore), hbefore⟩

/-- A position keeps its answer or is answered by the new owner. -/
theorem answers (h : Extends owner owner' b) (hbefore : Answers owner x g)
    (hafter : Answers owner' x g') : g' = g ∨ g' = b := by
  by_cases hne : g' = b
  · exact Or.inr hne
  · exact Or.inl ((h.answers_before hafter hne).unique hbefore)

end Extends

end CircularLookup
end VermouthGateway
