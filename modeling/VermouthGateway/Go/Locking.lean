import VermouthGateway.Go.Effect

/-!
# Computations that leave the lock as they found it

A computation is `Balanced` on a memory when it ends, by returning or by a
panic, and the lock of the memory is then as it was before.  The rules follow
the way programs are built: sequencing, loops, work on a component, and locked
sections, which turn a body that is balanced under the lock into a computation
that is balanced on the free lock.
-/

namespace VermouthGateway
namespace Go

open EStateM (Result)

variable {σ τ α β : Type}

/-- The computation returned or panicked; it does not wait or loop for ever. -/
def Ended : Result Halt σ α → Prop
  | .ok _ _ => True
  | .error (.panic _) _ => True
  | .error .blocked _ => False
  | .error .diverged _ => False

@[simp] theorem ended_ok (a : α) (s : σ) : Ended (.ok a s : Result Halt σ α) := trivial

@[simp] theorem ended_panic (fault : Fault) (s : σ) :
    Ended (.error (.panic fault) s : Result Halt σ α) := trivial

@[simp] theorem not_ended_blocked (s : σ) :
    ¬ Ended (.error .blocked s : Result Halt σ α) := fun h => h

theorem ended_error_iff {e : Halt} {s : σ} :
    Ended (.error e s : Result Halt σ α) ↔ ∃ fault, e = .panic fault := by
  cases e with
  | panic fault => exact ⟨fun _ => ⟨fault, rfl⟩, fun _ => trivial⟩
  | blocked => exact ⟨fun h => h.elim, fun ⟨_, h⟩ => nomatch h⟩
  | diverged => exact ⟨fun h => h.elim, fun ⟨_, h⟩ => nomatch h⟩

/-- How a computation failed does not depend on where it did. -/
theorem Ended.error {e : Halt} {s : σ} (h : Ended (.error e s : Result Halt σ α)) (t : τ) :
    Ended (.error e t : Result Halt τ β) :=
  ended_error_iff.mpr (ended_error_iff.mp h)

theorem Completes.ended {r : Result Halt σ α} (h : Completes r) : Ended r := by
  obtain ⟨a, s, rfl⟩ := completes_iff.mp h
  trivial

@[simp] theorem ended_embed (put : τ → σ) (r : Result Halt τ α) :
    Ended (embed put r) ↔ Ended r := by
  cases r with
  | ok a t => exact Iff.rfl
  | error e t => cases e <;> exact Iff.rfl

@[simp] theorem ended_released (release : σ → σ) (r : Result Halt σ α) :
    Ended (released release r) ↔ Ended r := by
  cases r with
  | ok a t => exact Iff.rfl
  | error e t => cases e <;> exact Iff.rfl

theorem memory_released {release : σ → σ} {r : Result Halt σ α} (h : Ended r) :
    memory (released release r) = release (memory r) := by
  cases r with
  | ok a s => rfl
  | error e s =>
      cases e with
      | panic fault => rfl
      | blocked => exact absurd h (not_ended_blocked s)
      | diverged => exact h.elim

/-- What does not end keeps whatever follows from happening. -/
theorem not_ended_bind {body : Eff σ α} {f : α → Eff σ β} {s : σ}
    (hbody : ¬ Ended (EStateM.run body s)) : ¬ Ended (EStateM.run (body >>= f) s) := by
  rw [EStateM.run_bind]
  cases hrun : EStateM.run body s with
  | ok a s' =>
      rw [hrun] at hbody
      exact absurd trivial hbody
  | error e s' =>
      rw [hrun] at hbody
      cases e with
      | panic fault => exact absurd trivial hbody
      | blocked => exact not_ended_blocked s'
      | diverged => exact fun h => h

/-- A loop whose rounds all end does. -/
theorem ended_forEach {κ : Type} {body : κ → Eff σ α} (ks : List κ)
    (hbody : ∀ k ∈ ks, ∀ s, Ended (EStateM.run (body k) s)) (s : σ) :
    Ended (EStateM.run (forEach ks body) s) := by
  induction ks generalizing s with
  | nil => trivial
  | cons k ks ih =>
      have hround := hbody k List.mem_cons_self s
      rw [run_forEach_cons]
      cases hrun : EStateM.run (body k) s with
      | ok a s₁ => exact ih (fun q hq => hbody q (List.mem_cons_of_mem k hq)) s₁
      | error e s₁ =>
          rw [hrun] at hround
          exact hround.error s₁

section Balance

variable [HasMutex σ]

open HasMutex

/-- The computation ends and leaves the lock as it found it. -/
structure Balanced (body : Eff σ α) (s : σ) : Prop where
  ended : Ended (EStateM.run body s)
  mutex : mutex (memory (EStateM.run body s)) = mutex s

namespace Balanced

variable {body : Eff σ α} {s : σ}

theorem of_run_ok {a : α} {s' : σ} (hrun : EStateM.run body s = .ok a s')
    (hmutex : HasMutex.mutex s' = HasMutex.mutex s) : Balanced body s := by
  refine ⟨?_, ?_⟩ <;> rw [hrun]
  · trivial
  · exact hmutex

theorem of_run_panic {fault : Fault} {s' : σ} (hrun : EStateM.run body s = .error (.panic fault) s')
    (hmutex : HasMutex.mutex s' = HasMutex.mutex s) : Balanced body s := by
  refine ⟨?_, ?_⟩ <;> rw [hrun]
  · trivial
  · exact hmutex

theorem pure (a : α) (s : σ) : Balanced (Pure.pure a : Eff σ α) s := .of_run_ok rfl rfl

theorem get (s : σ) : Balanced (MonadState.get : Eff σ σ) s := .of_run_ok rfl rfl

theorem panic (fault : Fault) (s : σ) : Balanced (Go.panic fault : Eff σ α) s :=
  .of_run_panic rfl rfl

theorem modify {f : σ → σ} (hf : HasMutex.mutex (f s) = HasMutex.mutex s) :
    Balanced (modify f : Eff σ PUnit) s := .of_run_ok (run_modify f s) hf

theorem set {s' : σ} (hmutex : HasMutex.mutex s' = HasMutex.mutex s) :
    Balanced (MonadStateOf.set s' : Eff σ PUnit) s := .of_run_ok rfl hmutex

/-- A step outside the memory that is no worse than a panic. -/
theorem ofPure {r : Except Halt α} (hr : ∀ e, r = .error e → ∃ fault, e = .panic fault) (s : σ) :
    Balanced (Go.ofPure r : Eff σ α) s := by
  cases r with
  | ok a => exact .of_run_ok (run_ofPure_ok a s) rfl
  | error e =>
      obtain ⟨fault, rfl⟩ := hr e rfl
      exact .of_run_panic (run_ofPure_error _ s) rfl

theorem bind {f : α → Eff σ β} (hbody : Balanced body s)
    (hf : ∀ a s', EStateM.run body s = .ok a s' → HasMutex.mutex s' = HasMutex.mutex s →
      Balanced (f a) s') : Balanced (body >>= f) s := by
  obtain ⟨hended, hmutex⟩ := hbody
  cases hrun : EStateM.run body s with
  | ok a s' =>
      rw [hrun] at hmutex
      obtain ⟨hended', hmutex'⟩ := hf a s' hrun hmutex
      have hstep : EStateM.run (body >>= f) s = EStateM.run (f a) s' := by
        rw [EStateM.run_bind, hrun]
      refine ⟨?_, ?_⟩ <;> rw [hstep]
      · exact hended'
      · exact hmutex'.trans hmutex
  | error e s' =>
      rw [hrun] at hended hmutex
      have hstep : EStateM.run (body >>= f) s = .error e s' := by
        rw [EStateM.run_bind, hrun]
      cases e with
      | panic fault => exact .of_run_panic hstep hmutex
      | blocked => exact hended.elim
      | diverged => exact hended.elim

theorem ite {c : Prop} [Decidable c] {body' : Eff σ α} (hbody : c → Balanced body s)
    (hbody' : ¬ c → Balanced body' s) : Balanced (if c then body else body') s := by
  by_cases hc : c
  · rw [if_pos hc]
    exact hbody hc
  · rw [if_neg hc]
    exact hbody' hc

/-- A loop of balanced rounds. -/
theorem forEach {ι : Type} {xs : List ι} {round : ι → Eff σ α}
    (hround : ∀ x ∈ xs, ∀ s', HasMutex.mutex s' = HasMutex.mutex s → Balanced (round x) s') :
    Balanced (Go.forEach xs round) s := by
  induction xs generalizing s with
  | nil => exact pure () s
  | cons x xs ih =>
      refine bind (hround x List.mem_cons_self s rfl) fun a s' _ hmutex => ?_
      refine ih fun y hy s'' hmutex' => ?_
      exact hround y (List.mem_cons_of_mem x hy) s'' (hmutex'.trans hmutex)

theorem forM {ι : Type} {xs : List ι} {round : ι → Eff σ PUnit}
    (hround : ∀ x ∈ xs, ∀ s', HasMutex.mutex s' = HasMutex.mutex s → Balanced (round x) s') :
    Balanced (xs.forM round) s := by
  induction xs generalizing s with
  | nil => exact .of_run_ok rfl rfl
  | cons x xs ih =>
      refine bind (hround x List.mem_cons_self s rfl) fun a s' _ hmutex => ?_
      refine ih fun y hy s'' hmutex' => ?_
      exact hround y (List.mem_cons_of_mem x hy) s'' (hmutex'.trans hmutex)

/-- Dropping what a computation returns. -/
theorem discard (hbody : Balanced body s) :
    Balanced (body >>= fun _ => (Pure.pure () : Eff σ Unit)) s :=
  bind hbody fun _ s' _ _ => pure () s'

/-- Work on a component that ends; the lock is no part of the component. -/
theorem focus {view : σ → Option τ} {put : τ → σ → σ} {part : Eff τ α}
    (hput : ∀ t, HasMutex.mutex (put t s) = HasMutex.mutex s)
    (hpart : ∀ t, view s = some t → Ended (EStateM.run part t)) :
    Balanced (Go.focus view put part) s := by
  cases hview : view s with
  | none => exact .of_run_panic (run_focus_none hview) rfl
  | some t =>
      have hrun : EStateM.run (Go.focus view put part) s =
          embed (fun t' => put t' s) (EStateM.run part t) := run_focus_some hview
      refine ⟨?_, ?_⟩ <;> rw [hrun]
      · exact (ended_embed _ _).mpr (hpart t hview)
      · rw [memory_embed]
        exact hput _

/-- A locked section on the free lock. -/
theorem withLock (hfree : HasMutex.mutex s = .free) (hbody : Balanced body (locked s)) :
    Balanced (Go.withLock body) s := by
  have hrun : EStateM.run (Go.withLock body) s =
      released unlock (EStateM.run body (locked s)) := run_withLock_free hfree
  refine ⟨?_, ?_⟩ <;> rw [hrun]
  · exact (ended_released _ _).mpr hbody.ended
  · rw [memory_released hbody.ended, unlock, mutex_setMutex, hbody.mutex, locked,
      mutex_setMutex, hfree]
    rfl

/-- A read section while nobody writes. -/
theorem withRLock (hwriter : (HasMutex.mutex s).writer = false)
    (hbody : Balanced body
      (setMutex { HasMutex.mutex s with readers := (HasMutex.mutex s).readers + 1 } s)) :
    Balanced (Go.withRLock body) s := by
  have hrun : EStateM.run (Go.withRLock body) s = released runlock (EStateM.run body
      (setMutex { HasMutex.mutex s with readers := (HasMutex.mutex s).readers + 1 } s)) :=
    run_withRLock hwriter
  refine ⟨?_, ?_⟩ <;> rw [hrun]
  · exact (ended_released _ _).mpr hbody.ended
  · rw [memory_released hbody.ended, runlock, mutex_setMutex, hbody.mutex, mutex_setMutex]
    rfl

end Balanced

/-- A section whose body waits under the lock never releases it. -/
theorem not_ended_withLock {body : Eff σ α} {s : σ}
    (hbody : ¬ Ended (EStateM.run body (locked s))) : ¬ Ended (EStateM.run (withLock body) s) := by
  by_cases hfree : mutex s = .free
  · rw [run_withLock_free hfree, ended_released]
    exact hbody
  · rw [run_withLock_held hfree]
    exact not_ended_blocked s

end Balance

end Go
end VermouthGateway
