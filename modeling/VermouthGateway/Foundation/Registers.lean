import Mathlib.Data.Nat.Basic

/-!
# Registers under a log that is replayed

Several nodes apply one log to a register of their own.  A node may start over
from what another one held, and it may be told a smaller index than the one
that was held at; then it applies some operations again.

* `Ahead`: the register at an index holds what the log leaves there or at some
  later index, or else the log still clears it.
* `Ahead.step`, `Ahead.mono`, `Ahead.append`: applying the next operation,
  starting over at a smaller index, and a growing log keep this.
* `Ahead.of_none`: so does what is told a larger index, at which nothing has ever
  been in the register.
* `Ahead.caught_up`: at the end of the log it is what the log leaves.
-/

namespace VermouthGateway
namespace Registers

universe u

variable {β : Type u}

/-- What an entry of a log does to a register. -/
inductive RegisterOp (β : Type u)
  | keep
  | write (b : β)
  | init (b : β)
  | clear

/-- A write needs something to write over, `init` puts something in an empty
register only. -/
def RegisterOp.run : RegisterOp β → Option β → Option β
  | .keep, x => x
  | .write b, x => x.map fun _ => b
  | .init b, x => some (x.getD b)
  | .clear, _ => none

/-- A write, if there is something to write. -/
def RegisterOp.writeIf : Option β → RegisterOp β
  | some b => .write b
  | none => .keep

theorem RegisterOp.run_writeIf (w : Option β) (x : β) :
    (RegisterOp.writeIf w).run (some x) = some (w.getD x) := by
  cases w <;> rfl

/-- The operation can put this value into the register. -/
def RegisterOp.Puts (b : β) : RegisterOp β → Prop
  | .write b' | .init b' => b' = b
  | _ => False

/-- What is not in the register gets there by an operation that puts it there. -/
theorem RegisterOp.run_ne_some {op : RegisterOp β} {b : β} (h : ¬ op.Puts b) {x : Option β}
    (hx : x ≠ some b) : op.run x ≠ some b := by
  cases op with
  | keep => exact hx
  | clear => exact nofun
  | write b' =>
      cases x with
      | none => exact nofun
      | some y => exact fun heq => h (Option.some.inj heq)
  | init b' =>
      cases x with
      | none => exact fun heq => h (Option.some.inj heq)
      | some y => exact hx

/-- The register after the first operations of a log. -/
def after (ops : List (RegisterOp β)) (start : Option β) (n : Nat) : Option β :=
  (ops.take n).foldl (fun x op => op.run x) start

section After

variable {ops : List (RegisterOp β)} {start : Option β} {n m : Nat}

theorem after_succ {op : RegisterOp β} (h : ops[n]? = some op) :
    after ops start (n + 1) = op.run (after ops start n) := by
  rw [after, List.take_add_one, h, List.foldl_append]
  rfl

theorem after_succ_of_none (h : ops[n]? = none) :
    after ops start (n + 1) = after ops start n := by
  rw [after, List.take_add_one, h, Option.toList_none, List.append_nil, after]

theorem after_append (more : List (RegisterOp β)) (h : n ≤ ops.length) :
    after (ops ++ more) start n = after ops start n := by
  rw [after, List.take_append_of_le_length h, after]

/-- A register that is empty again was cleared in between. -/
theorem exists_clear (hn : after ops start n ≠ none) (hle : n ≤ m)
    (hm : after ops start m = none) : ∃ k, n ≤ k ∧ ops[k]? = some .clear := by
  induction m, hle using Nat.le_induction with
  | base => exact absurd hm hn
  | succ m hle ih =>
      by_cases hbefore : after ops start m = none
      · exact ih hbefore
      · cases hop : ops[m]? with
        | none =>
            rw [after_succ_of_none hop] at hm
            exact absurd hm hbefore
        | some op =>
            obtain ⟨b, hb⟩ := Option.ne_none_iff_exists'.mp hbefore
            rw [after_succ hop, hb] at hm
            cases op with
            | keep => cases hm
            | write b' => cases hm
            | init b' => cases hm
            | clear => exact ⟨m, hle, hop⟩

end After

/-- Writes come only when the register holds something. -/
def Fits (ops : List (RegisterOp β)) (start : Option β) : Prop :=
  ∀ n b, ops[n]? = some (.write b) → after ops start n ≠ none

theorem Fits.append {ops : List (RegisterOp β)} {start : Option β} (h : Fits ops start)
    {op : RegisterOp β} (hop : ∀ b, op = .write b → after ops start ops.length ≠ none) :
    Fits (ops ++ [op]) start := by
  intro n b hn
  rcases Nat.lt_trichotomy n ops.length with hlt | rfl | hgt
  · rw [List.getElem?_append_left hlt] at hn
    rw [after_append _ (Nat.le_of_lt hlt)]
    exact h n b hn
  · rw [List.getElem?_concat_length] at hn
    rw [after_append _ le_rfl]
    exact hop b (Option.some.inj hn)
  · rw [List.getElem?_eq_none (by rw [List.length_append]; exact hgt)] at hn
    cases hn

/-- What a register holds at an index of the log, maybe too late. -/
def Ahead (ops : List (RegisterOp β)) (start : Option β) (n : Nat) (x : Option β) : Prop :=
  (∃ m, n ≤ m ∧ m ≤ ops.length ∧ x = after ops start m) ∨ ∃ m, n ≤ m ∧ ops[m]? = some .clear

section Ahead

variable {ops : List (RegisterOp β)} {start x : Option β} {n n' : Nat}

theorem ahead_after (h : n ≤ ops.length) : Ahead ops start n (after ops start n) :=
  Or.inl ⟨n, le_rfl, h, rfl⟩

theorem Ahead.mono (h : Ahead ops start n x) (hle : n' ≤ n) : Ahead ops start n' x := by
  rcases h with ⟨m, hnm, hm, hx⟩ | ⟨m, hnm, hclear⟩
  · exact Or.inl ⟨m, Nat.le_trans hle hnm, hm, hx⟩
  · exact Or.inr ⟨m, Nat.le_trans hle hnm, hclear⟩

theorem Ahead.append (h : Ahead ops start n x) (more : List (RegisterOp β)) :
    Ahead (ops ++ more) start n x := by
  rcases h with ⟨m, hnm, hm, hx⟩ | ⟨m, hnm, hclear⟩
  · refine Or.inl ⟨m, hnm, ?_, by rw [after_append more hm, hx]⟩
    rw [List.length_append]
    exact Nat.le_trans hm (Nat.le_add_right _ _)
  · obtain ⟨hlt, -⟩ := List.getElem?_eq_some_iff.mp hclear
    exact Or.inr ⟨m, hnm, by rw [List.getElem?_append_left hlt, hclear]⟩

/-- Ahead of an index before which nothing has ever been in the register. -/
theorem Ahead.of_none {n' : Nat} (h : Ahead ops start n x) (hle : n' ≤ ops.length)
    (hnone : ∀ k ≤ n', after ops start k = none) (hkept : ∀ k < n', ops[k]? ≠ some .clear) :
    Ahead ops start n' x := by
  rcases h with ⟨m, -, hm, hx⟩ | ⟨m, -, hclear⟩
  · rcases Nat.le_total n' m with hlater | hearlier
    · exact Or.inl ⟨m, hlater, hm, hx⟩
    · refine Or.inl ⟨n', le_rfl, hle, ?_⟩
      rw [hx, hnone m hearlier, hnone n' le_rfl]
  · exact Or.inr ⟨m, Nat.le_of_not_lt fun hlt => hkept m hlt hclear, hclear⟩

/-- The next operation. -/
theorem Ahead.step {op : RegisterOp β} (h : Ahead ops start n x) (hfits : Fits ops start)
    (hop : ops[n]? = some op) (hwrite : ∀ b, op = .write b → x ≠ none) :
    Ahead ops start (n + 1) (op.run x) := by
  obtain ⟨hlt, -⟩ := List.getElem?_eq_some_iff.mp hop
  have hnow : ∀ {y}, y = after ops start (n + 1) → Ahead ops start (n + 1) y := by
    rintro y rfl
    exact ahead_after hlt
  rcases h with ⟨m, hnm, hm, hx⟩ | ⟨m, hnm, hclear⟩
  · rcases Nat.eq_or_lt_of_le hnm with rfl | hnm
    · exact hnow (by rw [after_succ hop, hx])
    -- the register is ahead of the operation
    · cases op with
      | keep => exact Or.inl ⟨m, hnm, hm, hx⟩
      | write b =>
          obtain ⟨c, hc⟩ := Option.ne_none_iff_exists'.mp (hwrite b rfl)
          obtain ⟨d, hd⟩ := Option.ne_none_iff_exists'.mp (hfits n b hop)
          exact hnow (by rw [after_succ hop, hc, hd]; rfl)
      | init b =>
          cases hc : x with
          | some c =>
              rw [hc] at hx
              exact Or.inl ⟨m, hnm, hm, hx⟩
          | none =>
              rw [hc] at hx
              by_cases hempty : after ops start n = none
              · exact hnow (by rw [after_succ hop, hempty])
              -- it holds nothing because the log will have cleared it
              · obtain ⟨k, hnk, hk⟩ := exists_clear hempty
                  (Nat.le_of_lt hnm) hx.symm
                rcases Nat.eq_or_lt_of_le hnk with rfl | hnk
                · rw [hop] at hk
                  cases hk
                · exact Or.inr ⟨k, hnk, hk⟩
      | clear => exact hnow (by rw [after_succ hop]; rfl)
  · rcases Nat.eq_or_lt_of_le hnm with rfl | hnm
    · obtain rfl : op = .clear := Option.some.inj (hop.symm.trans hclear)
      exact hnow (by rw [after_succ hop]; rfl)
    · exact Or.inr ⟨m, hnm, hclear⟩

/-- Nothing is left to apply. -/
theorem Ahead.caught_up (h : Ahead ops start ops.length x) :
    x = after ops start ops.length := by
  rcases h with ⟨m, hnm, hm, hx⟩ | ⟨m, hnm, hclear⟩
  · rw [hx, Nat.le_antisymm hm hnm]
  · obtain ⟨hlt, -⟩ := List.getElem?_eq_some_iff.mp hclear
    exact absurd hlt (Nat.not_lt.mpr hnm)

end Ahead

end Registers
end VermouthGateway
