import VermouthGateway.Go.Text
import Mathlib.Data.List.Infix

/-!
# Paths in segments

A path that starts with a separator is the list of its segments, each with the
separator before it.

* `joinSegments_splitChars`: cutting a path at its separators loses nothing.
* `leads_joinSegments` and `exists_segments_of_leads`: its first segments, joined
  again, are the beginnings of the path that end with it or right before a
  separator.
-/

namespace VermouthGateway
namespace Go

variable {sep : Char}

/-- Put the separator before every segment. -/
def joinSegments (sep : Char) (segments : List (List Char)) : List Char :=
  segments.flatMap fun segment => sep :: segment

@[simp] theorem joinSegments_nil : joinSegments sep [] = [] := rfl

@[simp] theorem joinSegments_cons (segment : List Char) (segments : List (List Char)) :
    joinSegments sep (segment :: segments) = sep :: segment ++ joinSegments sep segments := rfl

theorem joinSegments_append (left right : List (List Char)) :
    joinSegments sep (left ++ right) = joinSegments sep left ++ joinSegments sep right :=
  List.flatMap_append

theorem joinSegments_splitChars (sep : Char) (cs : List Char) :
    joinSegments sep (splitChars sep cs) = sep :: cs := by
  induction cs with
  | nil => rfl
  | cons c rest ih =>
      rw [splitChars]
      split
      · next hc => rw [joinSegments_cons, ih, hc]; rfl
      · cases hsplit : splitChars sep rest with
        | nil => exact absurd hsplit (splitChars_ne_nil sep rest)
        | cons piece pieces =>
            rw [hsplit, joinSegments_cons] at ih
            simpa using ih

/-- Segments without a separator are what cutting the path gives back. -/
theorem splitChars_joinSegments {segments : List (List Char)} {cs : List Char}
    (hne : segments ≠ []) (hsep : ∀ segment ∈ segments, sep ∉ segment)
    (hjoin : sep :: cs = joinSegments sep segments) : splitChars sep cs = segments := by
  induction segments generalizing cs with
  | nil => exact absurd rfl hne
  | cons segment segments ih =>
      have hnot := hsep segment List.mem_cons_self
      rw [joinSegments_cons, List.cons_append, List.cons.injEq] at hjoin
      obtain ⟨-, rfl⟩ := hjoin
      cases segments with
      | nil => rw [joinSegments_nil, List.append_nil, splitChars_of_notMem hnot]
      | cons next rest =>
          have hrest : splitChars sep (next ++ joinSegments sep rest) = next :: rest :=
            ih (List.cons_ne_nil next rest)
              (fun segment hmem => hsep segment (List.mem_cons_of_mem _ hmem)) rfl
          rw [joinSegments_cons, List.cons_append, splitChars_append hnot, hrest]

/-- A text is the path, or the path goes on with a separator after it. -/
def Leads (sep : Char) (start path : List Char) : Prop :=
  path = start ∨ ∃ rest, path = start ++ sep :: rest

/-- Longer lists of segments make longer paths. -/
theorem length_joinSegments_le {left right : List (List Char)} (h : left <+: right) :
    (joinSegments sep left).length ≤ (joinSegments sep right).length := by
  obtain ⟨more, rfl⟩ := h
  rw [joinSegments_append, List.length_append]
  exact Nat.le_add_right _ _

/-- The first segments of a path, joined, are where it ends or goes on with a
separator. -/
theorem leads_joinSegments {segments : List (List Char)} {cs : List Char}
    (h : segments <+: splitChars sep cs) :
    Leads sep (joinSegments sep segments) (sep :: cs) := by
  obtain ⟨more, hmore⟩ := h
  rw [← joinSegments_splitChars, ← hmore, joinSegments_append]
  cases more with
  | nil => exact Or.inl (List.append_nil _)
  | cons segment more => exact Or.inr ⟨segment ++ joinSegments sep more, rfl⟩

/-- And every beginning of that kind is made of the first segments. -/
theorem exists_segments_of_leads {start cs : List Char} (h : Leads sep start (sep :: cs))
    (hne : start ≠ []) :
    ∃ segments, segments <+: splitChars sep cs ∧ segments ≠ [] ∧
      start = joinSegments sep segments := by
  rcases h with hpath | ⟨rest, hpath⟩
  · exact ⟨splitChars sep cs, List.prefix_rfl, splitChars_ne_nil sep cs,
      by rw [joinSegments_splitChars, hpath]⟩
  · cases start with
    | nil => exact absurd rfl hne
    | cons c start =>
        obtain ⟨rfl, rfl⟩ := List.cons.inj hpath
        exact ⟨splitChars sep start, ⟨splitChars sep rest, (splitChars_append_sep _ _ _).symm⟩,
          splitChars_ne_nil sep start, (joinSegments_splitChars sep start).symm⟩

end Go
end VermouthGateway
