import VermouthGateway.Foundation.Runs
import Mathlib.Data.List.Basic
import Mathlib.Logic.Function.Basic

/-!
# Interleavings

Threads put their items, one after the other, into each of a list of sinks.  A
thread takes the sinks in their order, and the threads wait for nobody.

* `Interleaves`: a list of items is an interleaving of the programs of threads.
* `BroadcastStep`: the steps of the threads.
* `sinks_of_run`: every sink gets an interleaving of all programs, which need not
  be the same for any two of them.
-/

namespace VermouthGateway
namespace Runs

variable {ι α σ : Type*} [DecidableEq ι]

/-- The items of one thread. -/
def part (order : List (ι × α)) (i : ι) : List α :=
  (order.filter (·.1 = i)).map Prod.snd

/-- Every thread finds its program. -/
def Interleaves (order : List (ι × α)) (programs : ι → List α) : Prop :=
  ∀ i, part order i = programs i

@[simp] theorem part_nil (i : ι) : part ([] : List (ι × α)) i = [] := rfl

theorem part_concat (order : List (ι × α)) (i : ι) (a : α) (j : ι) :
    part (order ++ [(i, a)]) j = part order j ++ if i = j then [a] else [] := by
  rw [part, part, List.filter_append, List.map_append, List.filter_singleton]
  by_cases hij : i = j
  · rw [if_pos hij, decide_eq_true (show (i, a).1 = j from hij)]
    rfl
  · rw [if_neg hij, decide_eq_false (show ¬ (i, a).1 = j from hij)]
    rfl

/-! ## Putting items into every sink -/

/-- A thread with the items it has left, and the sink that is next for the first one. -/
structure Thread (α : Type*) where
  todo : List α
  next : Nat

/-- What the sink `k` is still to get. -/
def Thread.remaining (thread : Thread α) (k : Nat) : List α :=
  if k < thread.next then thread.todo.tail else thread.todo

structure Broadcast (ι α σ : Type*) where
  sinks : List σ
  threads : ι → Thread α

inductive BroadcastEvent (ι : Type*)
  | put (i : ι)
  | ended (i : ι)

inductive BroadcastStep (put : α → σ → σ) :
    Broadcast ι α σ → BroadcastEvent ι → Broadcast ι α σ → Prop
  | put {s : Broadcast ι α σ} {i : ι} {a : α} {todo : List α} {k : Nat} {sink : σ}
      (hthread : s.threads i = ⟨a :: todo, k⟩) (hsink : s.sinks[k]? = some sink) :
      BroadcastStep put s (.put i)
        ⟨s.sinks.set k (put a sink), Function.update s.threads i ⟨a :: todo, k + 1⟩⟩
  -- every sink has the item
  | ended {s : Broadcast ι α σ} {i : ι} {a : α} {todo : List α}
      (hthread : s.threads i = ⟨a :: todo, s.sinks.length⟩) :
      BroadcastStep put s (.ended i)
        ⟨s.sinks, Function.update s.threads i ⟨todo, 0⟩⟩

/-- The threads at the start of their programs. -/
def Broadcast.start (sinks : List σ) (programs : ι → List α) : Broadcast ι α σ where
  sinks := sinks
  threads i := ⟨programs i, 0⟩

section Invariant

variable {put : α → σ → σ} {sinks : List σ} {programs : ι → List α} {s s' : Broadcast ι α σ}

/-- Each sink has a part of an interleaving, and the threads have the rest. -/
structure Spread (put : α → σ → σ) (sinks : List σ) (programs : ι → List α)
    (s : Broadcast ι α σ) : Prop where
  length : s.sinks.length = sinks.length
  spread : ∀ k sink, sinks[k]? = some sink → ∃ order : List (ι × α),
    s.sinks[k]? = some ((order.map Prod.snd).foldl (fun sink a => put a sink) sink) ∧
      ∀ i, part order i ++ (s.threads i).remaining k = programs i

theorem Spread.start (put : α → σ → σ) (sinks : List σ) (programs : ι → List α) :
    Spread put sinks programs (.start sinks programs) where
  length := rfl
  spread _ _ hsink := ⟨[], hsink, fun _ => rfl⟩

theorem Spread.step {event : BroadcastEvent ι} (h : Spread put sinks programs s)
    (hstep : BroadcastStep put s event s') : Spread put sinks programs s' := by
  cases hstep with
  | @put i a todo k₀ current hthread hcurrent =>
      refine ⟨by rw [List.length_set]; exact h.length, fun k sink hsink => ?_⟩
      obtain ⟨order, hreached, hrest⟩ := h.spread k sink hsink
      by_cases hk : k = k₀
      · -- the sink of this step: the item goes from the thread to the order
        subst hk
        refine ⟨order ++ [(i, a)], ?_, fun j => ?_⟩
        · obtain ⟨hlt, -⟩ := List.getElem?_eq_some_iff.mp hcurrent
          cases hreached.symm.trans hcurrent
          rw [List.getElem?_set_self hlt, List.map_append, List.foldl_append]
          rfl
        · rw [part_concat, ← hrest j, List.append_assoc]
          congr 1
          dsimp only
          by_cases hij : i = j
          · subst hij
            rw [if_pos rfl, Function.update_self, hthread, Thread.remaining, Thread.remaining,
              if_pos (Nat.lt_succ_self k), if_neg (Nat.lt_irrefl k)]
            rfl
          · rw [if_neg hij, Function.update_of_ne fun heq => hij heq.symm]
            rfl
      · refine ⟨order, ?_, fun j => ?_⟩
        · rw [List.getElem?_set_ne fun heq => hk heq.symm]
          exact hreached
        · rw [← hrest j]
          congr 1
          dsimp only
          by_cases hij : j = i
          · subst hij
            have hnext : k < k₀ + 1 ↔ k < k₀ := by omega
            rw [Function.update_self, hthread, Thread.remaining, Thread.remaining]
            simp only [hnext]
          · rw [Function.update_of_ne hij]
  | @ended i a todo hthread =>
      refine ⟨h.length, fun k sink hsink => ?_⟩
      obtain ⟨order, hreached, hrest⟩ := h.spread k sink hsink
      refine ⟨order, hreached, fun j => ?_⟩
      rw [← hrest j]
      congr 1
      dsimp only
      by_cases hij : j = i
      · subst hij
        have hlt : k < s.sinks.length := (List.getElem?_eq_some_iff.mp hreached).1
        rw [Function.update_self, hthread, Thread.remaining, Thread.remaining, if_pos hlt,
          if_neg (Nat.not_lt_zero k)]
        rfl
      · rw [Function.update_of_ne hij]

/-- When every thread has come to its end, each sink has got an interleaving of all
programs. -/
theorem sinks_of_run {events : List (BroadcastEvent ι)}
    (hrun : Run (BroadcastStep put) (.start sinks programs) events s)
    (hdone : ∀ i, (s.threads i).todo = []) {k : Nat} {sink : σ} (hsink : sinks[k]? = some sink) :
    ∃ order, Interleaves order programs ∧
      s.sinks[k]? = some ((order.map Prod.snd).foldl (fun sink a => put a sink) sink) := by
  have hspread : Spread put sinks programs s :=
    hrun.invariant (fun _ _ _ h hstep => h.step hstep) (Spread.start put sinks programs)
  obtain ⟨order, hreached, hrest⟩ := hspread.spread k sink hsink
  refine ⟨order, fun i => ?_, hreached⟩
  have hnone : (s.threads i).remaining k = [] := by
    rw [Thread.remaining, hdone i]
    split <;> rfl
  rw [← hrest i, hnone, List.append_nil]

theorem length_of_run {events : List (BroadcastEvent ι)}
    (hrun : Run (BroadcastStep put) (.start sinks programs) events s) :
    s.sinks.length = sinks.length :=
  (hrun.invariant (P := Spread put sinks programs) (fun _ _ _ h hstep => h.step hstep)
    (Spread.start put sinks programs)).length

end Invariant

end Runs
end VermouthGateway
