import Mathlib.Data.List.Infix
import Mathlib.Logic.Function.Basic

/-!
# Longest-prefix match

A routing table maps words over an alphabet to values; looking a key up gives
the value of the longest word of the table that is a prefix of the key.

* `longestMatch` computes the match by walking the key from its first letter.
* `longestMatch_eq_some_iff` and `longestMatch_eq_none_iff` say what it is: the
  value of the longest matching entry, and no value exactly when no entry
  matches.
* `matchFrom` is the same walk with an answer carried along, the way an
  iterative search keeps the last value it has seen.
-/

namespace VermouthGateway
namespace LongestMatch

variable {α β : Type*}

/-- A table of entries, one value for a word. -/
abbrev Table (α β : Type*) := List α → Option β

/-- The table seen after reading the letter `a`. -/
def Table.after (table : Table α β) (a : α) : Table α β :=
  fun word => table (a :: word)

/-- The value of the longest entry that is a prefix of the key. -/
def longestMatch (table : Table α β) : List α → Option β
  | [] => table []
  | a :: key => (longestMatch (table.after a) key).or (table [])

/-- The value at the longest matching entry, `acc` when nothing matches. -/
def matchFrom (table : Table α β) (acc : β) (key : List α) : β :=
  (longestMatch table key).getD acc

theorem longestMatch_eq_none_iff (table : Table α β) (key : List α) :
    longestMatch table key = none ↔ ∀ word, word <+: key → table word = none := by
  induction key generalizing table with
  | nil =>
      constructor
      · intro hnone word hword
        rw [List.prefix_nil.mp hword]
        exact hnone
      · intro hall
        exact hall [] List.nil_prefix
  | cons a key ih =>
      simp only [longestMatch, Option.or_eq_none_iff, ih]
      constructor
      · rintro ⟨hlonger, hhere⟩ word hword
        cases word with
        | nil => exact hhere
        | cons b word =>
            obtain ⟨rfl, hrest⟩ := List.cons_prefix_cons.mp hword
            exact hlonger word hrest
      · intro hall
        refine ⟨fun word hword => ?_, hall [] List.nil_prefix⟩
        exact hall (a :: word) (List.cons_prefix_cons.mpr ⟨rfl, hword⟩)

theorem longestMatch_eq_some_iff (table : Table α β) (key : List α) (b : β) :
    longestMatch table key = some b ↔
      ∃ word, word <+: key ∧ table word = some b ∧
        ∀ other, other <+: key → (table other).isSome → other.length ≤ word.length := by
  -- over the key; the table of the tail is the one below the first letter
  induction key generalizing table with
  | nil =>
      constructor
      · intro hsome
        refine ⟨[], List.nil_prefix, hsome, ?_⟩
        intro other hother _
        rw [List.prefix_nil.mp hother]
      · rintro ⟨word, hword, hentry, -⟩
        rw [List.prefix_nil.mp hword] at hentry
        exact hentry
  | cons a key ih =>
      rw [longestMatch, Option.or_eq_some_iff, ih, longestMatch_eq_none_iff]
      constructor
      · -- a match below the letter is longer than the empty word, which counts only without one
        rintro (⟨word, hword, hentry, hlongest⟩ | ⟨hnone, hentry⟩)
        · refine ⟨a :: word, List.cons_prefix_cons.mpr ⟨rfl, hword⟩, hentry, ?_⟩
          intro other hother hsome
          cases other with
          | nil => exact Nat.zero_le _
          | cons c other =>
              obtain ⟨rfl, hrest⟩ := List.cons_prefix_cons.mp hother
              exact Nat.succ_le_succ (hlongest other hrest hsome)
        · refine ⟨[], List.nil_prefix, hentry, ?_⟩
          intro other hother hsome
          cases other with
          | nil => exact Nat.le_refl _
          | cons c other =>
              obtain ⟨rfl, hrest⟩ := List.cons_prefix_cons.mp hother
              have hmissing : table (c :: other) = none := hnone other hrest
              rw [hmissing] at hsome
              cases hsome
      · rintro ⟨word, hword, hentry, hlongest⟩
        cases word with
        | nil =>
            refine Or.inr ⟨fun other hother => ?_, hentry⟩
            by_contra hsome
            have hshort := hlongest (a :: other)
              (List.cons_prefix_cons.mpr ⟨rfl, hother⟩) (Option.isSome_iff_ne_none.mpr hsome)
            simp at hshort
        | cons c word =>
            obtain ⟨rfl, hrest⟩ := List.cons_prefix_cons.mp hword
            refine Or.inl ⟨word, hrest, hentry, fun other hother hsome => ?_⟩
            exact Nat.le_of_succ_le_succ (hlongest (c :: other)
              (List.cons_prefix_cons.mpr ⟨rfl, hother⟩) hsome)

@[simp] theorem matchFrom_nil (table : Table α β) (acc : β) :
    matchFrom table acc [] = (table []).getD acc := rfl

/-- Reading one letter: the entry at the word read so far becomes the answer
carried along. -/
theorem matchFrom_cons (table : Table α β) (acc : β) (a : α) (key : List α) :
    matchFrom table acc (a :: key) =
      matchFrom (table.after a) ((table []).getD acc) key := by
  simp only [matchFrom, longestMatch]
  cases longestMatch (table.after a) key <;> simp

/-- Below a word no entry extends, nothing more is found. -/
theorem matchFrom_of_forall_none {table : Table α β} (acc : β) (key : List α)
    (hnone : ∀ word, table word = none) : matchFrom table acc key = acc := by
  have hmatch : longestMatch table key = none :=
    (longestMatch_eq_none_iff table key).mpr fun word _ => hnone word
  rw [matchFrom, hmatch, Option.getD_none]

end LongestMatch
end VermouthGateway
