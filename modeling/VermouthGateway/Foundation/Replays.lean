import Mathlib.Data.List.Basic
import Mathlib.Logic.Function.Basic

/-!
# Journals that are replayed

The entries of a journal set the values of keys.  To load the journal is to put its
entries into a map, one after the other, so that the last entry of a key counts; to
change an entry is to change the first one that is found.  A replay appends the
entries to the journal they come from.

* `load_apply`: what a key has when a journal is loaded.
* `Occurs`: how often something occurs in a journal, and its last occurrence.
* `Occurs.replay`: a replay doubles the occurrences and keeps the last one.
* `Occurs.modifyFirst`: once there are two of them, a change is not of the last one,
  so that it is lost when the journal is loaded.
-/

namespace VermouthGateway
namespace Replays

universe u v w

variable {α : Type u} {β : Type v} {κ : Type w}

/-! ## Loading -/

section Load

variable [DecidableEq κ] {key : α → κ} {value : α → β}

/-- The entries put into a map in their order. -/
def load (key : α → κ) (value : α → β) (entries : List α) (m : κ → Option β) : κ → Option β :=
  entries.foldl (fun m a => Function.update m (key a) (some (value a))) m

theorem load_append (entries entries' : List α) (m : κ → Option β) :
    load key value (entries ++ entries') m = load key value entries' (load key value entries m) :=
  List.foldl_append

/-- The last entry of a key counts. -/
theorem load_apply (entries : List α) (m : κ → Option β) (k : κ) :
    load key value entries m k =
      ((entries.filter fun a => key a = k).getLast?.map value).or (m k) := by
  induction entries generalizing m with
  | nil => rfl
  | cons a entries ih =>
      rw [load, List.foldl_cons]
      refine (ih _).trans ?_
      by_cases hkey : key a = k
      · rw [List.filter_cons, if_pos (decide_eq_true hkey), List.getLast?_cons, ← hkey,
          Function.update_self]
        cases (entries.filter fun b => key b = key a).getLast? <;> rfl
      · rw [List.filter_cons, if_neg (by simpa using hkey),
          Function.update_of_ne fun heq => hkey heq.symm]

/-- When one group of entries alone has the key, the others do not matter. -/
theorem filter_flatMap_of_only {γ : Type*} {groups : List γ} {f : γ → List α} {p : α → Bool}
    {g : γ} (hnodup : groups.Nodup) (hg : g ∈ groups)
    (honly : ∀ g' ∈ groups, g' ≠ g → (f g').filter p = []) :
    (groups.flatMap f).filter p = (f g).filter p := by
  induction groups with
  | nil => cases hg
  | cons first groups ih =>
      obtain ⟨hfirst, hnodup⟩ := List.nodup_cons.mp hnodup
      rw [List.flatMap_cons, List.filter_append]
      by_cases heq : first = g
      · subst heq
        have hrest : (groups.flatMap f).filter p = [] := by
          rw [List.filter_eq_nil_iff]
          intro a ha
          obtain ⟨g', hg', ha⟩ := List.mem_flatMap.mp ha
          have hne : g' ≠ first := fun heq => hfirst (heq ▸ hg')
          exact List.filter_eq_nil_iff.mp (honly g' (List.mem_cons_of_mem _ hg') hne) a ha
        rw [hrest, List.append_nil]
      · rw [honly first List.mem_cons_self heq, List.nil_append]
        exact ih hnodup ((List.mem_cons.mp hg).resolve_left fun h => heq h.symm)
          fun g' hg' => honly g' (List.mem_cons_of_mem _ hg')

end Load

/-! ## Occurrences -/

/-- Changes the first entry that is found. -/
def modifyFirst (q : α → Bool) (f : α → α) : List α → List α
  | [] => []
  | a :: entries => if q a then f a :: entries else a :: modifyFirst q f entries

/-- The entry occurs `n` times, and this is its last occurrence. -/
structure Occurs (p : α → Bool) (n : Nat) (last : α) (entries : List α) : Prop where
  count : (entries.filter p).length = n
  last : (entries.filter p).getLast? = some last

section Occurrences

variable {p q : α → Bool} {f : α → α} {n : Nat} {last : α} {entries : List α}

/-- A change that keeps what is counted. -/
theorem filter_modifyFirst_length (hf : ∀ a, p (f a) = p a) (entries : List α) :
    ((modifyFirst q f entries).filter p).length = (entries.filter p).length := by
  induction entries with
  | nil => rfl
  | cons a entries ih =>
      rw [modifyFirst]
      split
      · rw [List.filter_cons, List.filter_cons, hf]
        split <;> rfl
      · rw [List.filter_cons, List.filter_cons]
        split
        · rw [List.length_cons, List.length_cons, ih]
        · exact ih

/-- A change of something else. -/
theorem filter_modifyFirst_of_disjoint (hf : ∀ a, p (f a) = p a)
    (hdisjoint : ∀ a, q a = true → p a = false) (entries : List α) :
    (modifyFirst q f entries).filter p = entries.filter p := by
  induction entries with
  | nil => rfl
  | cons a entries ih =>
      rw [modifyFirst]
      split
      next hfound =>
        have hnot := hdisjoint a hfound
        rw [List.filter_cons_of_neg (by rw [hf, hnot]; exact Bool.false_ne_true),
          List.filter_cons_of_neg (by rw [hnot]; exact Bool.false_ne_true)]
      · rw [List.filter_cons, List.filter_cons, ih]

/-- Once the entry occurs twice, the first one that is found is not the last one. -/
theorem getLast?_filter_modifyFirst (hf : ∀ a, p (f a) = p a)
    (hfound : ∀ a, p a = true → q a = true) (htwice : 2 ≤ (entries.filter p).length) :
    ((modifyFirst q f entries).filter p).getLast? = (entries.filter p).getLast? := by
  induction entries with
  | nil => rfl
  | cons a entries ih =>
      rw [modifyFirst]
      by_cases hp : p a = true
      · -- found at once, and another one follows
        rw [if_pos (hfound a hp), List.filter_cons_of_pos (by rw [hf, hp]),
          List.filter_cons_of_pos hp, List.getLast?_cons, List.getLast?_cons]
        rw [List.filter_cons_of_pos hp, List.length_cons] at htwice
        have hne : entries.filter p ≠ [] := List.length_pos_iff.mp (by omega)
        obtain ⟨b, hb⟩ := Option.isSome_iff_exists.mp (List.getLast?_isSome.mpr hne)
        rw [hb]
        rfl
      · rw [List.filter_cons_of_neg hp] at htwice ⊢
        split
        · rw [List.filter_cons_of_neg (by rw [hf]; exact hp)]
        · rw [List.filter_cons_of_neg hp]
          exact ih htwice

namespace Occurs

theorem pos (h : Occurs p n last entries) : 0 < n := by
  rw [← h.count]
  refine List.length_pos_iff.mpr fun hnil => ?_
  have hlast := h.last
  rw [hnil] at hlast
  cases hlast

theorem concat (h : Occurs p n last entries) {a : α} (ha : p a = false) :
    Occurs p n last (entries ++ [a]) := by
  have hsame : (entries ++ [a]).filter p = entries.filter p := by
    rw [List.filter_append, List.filter_cons_of_neg (by rw [ha]; exact Bool.false_ne_true),
      List.filter_nil, List.append_nil]
  exact ⟨by rw [hsame]; exact h.count, by rw [hsame]; exact h.last⟩

/-- A replay of a part that has all occurrences. -/
theorem replay (h : Occurs p n last entries) {part : α → Bool}
    (hpart : ∀ a, p a = true → part a = true) :
    Occurs p (n * 2) last (entries ++ entries.filter part) := by
  have hfilter : (entries ++ entries.filter part).filter p =
      entries.filter p ++ entries.filter p := by
    rw [List.filter_append, List.filter_filter]
    congr 2
    funext a
    cases hp : p a with
    | false => rfl
    | true => rw [hpart a hp, Bool.and_self]
  constructor
  · rw [hfilter, List.length_append, h.count]
    omega
  · rw [hfilter, List.getLast?_append, h.last]
    rfl

theorem modifyFirst (h : Occurs p n last entries) (hf : ∀ a, p (f a) = p a)
    (hfound : (∀ a, p a = true → q a = true) ∨ ∀ a, q a = true → p a = false)
    (htwice : 2 ≤ n) : Occurs p n last (modifyFirst q f entries) where
  count := (filter_modifyFirst_length hf entries).trans h.count
  last := by
    rcases hfound with hfound | hdisjoint
    · rw [getLast?_filter_modifyFirst hf hfound (by rw [h.count]; exact htwice)]
      exact h.last
    · rw [filter_modifyFirst_of_disjoint hf hdisjoint]
      exact h.last

end Occurs

end Occurrences

end Replays
end VermouthGateway
