import VermouthGateway.Go.Effect

/-!
# Faults a computation raises

`Raises fault r` says that a computation ended with this panic, `Never fault
body` that it does so on no memory.  The rules below go through sequencing,
loops, components and locked sections.
-/

namespace VermouthGateway
namespace Go

open EStateM (Result)

variable {σ τ ι α β : Type} {fault : Fault}

/-- The computation ended with the panic. -/
def Raises (fault : Fault) (r : Result Halt σ α) : Prop :=
  ∃ s, r = .error (.panic fault) s

@[simp] theorem not_raises_ok (a : α) (s : σ) : ¬ Raises fault (.ok a s : Result Halt σ α) :=
  fun ⟨_, h⟩ => nomatch h

@[simp] theorem raises_error_iff {e : Halt} {s : σ} :
    Raises fault (.error e s : Result Halt σ α) ↔ e = .panic fault := by
  constructor
  · rintro ⟨s', h⟩
    cases h
    rfl
  · rintro rfl
    exact ⟨s, rfl⟩

@[simp] theorem raises_embed_iff (put : τ → σ) (r : Result Halt τ α) :
    Raises fault (embed put r) ↔ Raises fault r := by
  cases r with
  | ok a t => simp
  | error e t => simp

@[simp] theorem raises_released_iff (release : σ → σ) (r : Result Halt σ α) :
    Raises fault (released release r) ↔ Raises fault r := by
  cases r with
  | ok a s => simp
  | error e s => cases e <;> simp [released]

/-- The computation ends with the panic on no memory. -/
def Never (fault : Fault) (body : Eff σ α) : Prop :=
  ∀ s, ¬ Raises fault (EStateM.run body s)

namespace Never

theorem pure (a : α) : Never fault (Pure.pure a : Eff σ α) := fun s => not_raises_ok a s

theorem get : Never fault (MonadState.get : Eff σ σ) := fun s => not_raises_ok s s

theorem set (s' : σ) : Never fault (MonadStateOf.set s' : Eff σ PUnit) := fun _ =>
  not_raises_ok _ s'

theorem modify (f : σ → σ) : Never fault (modify f : Eff σ PUnit) := fun s =>
  not_raises_ok _ (f s)

theorem panic {other : Fault} (hne : other ≠ fault) : Never fault (Go.panic other : Eff σ α) := by
  intro s hraises
  rw [run_panic, raises_error_iff] at hraises
  cases hraises
  exact hne rfl

theorem bind {body : Eff σ α} {f : α → Eff σ β} (hbody : Never fault body)
    (hrest : ∀ a, Never fault (f a)) : Never fault (body >>= f) := by
  intro s hraises
  rw [EStateM.run_bind] at hraises
  have hfirst := hbody s
  cases hrun : EStateM.run body s with
  | ok a s₁ =>
      rw [hrun] at hraises
      exact hrest a s₁ hraises
  | error e s₁ =>
      rw [hrun] at hraises hfirst
      exact hfirst (raises_error_iff.mpr (raises_error_iff.mp hraises))

theorem forM {xs : List ι} {round : ι → Eff σ PUnit} (hround : ∀ x, Never fault (round x)) :
    Never fault (xs.forM round) := by
  induction xs with
  | nil => exact pure _
  | cons x xs ih =>
      show Never fault (round x >>= fun _ => xs.forM round)
      exact (hround x).bind fun _ => ih

theorem withLock [HasMutex σ] {body : Eff σ α} (hbody : Never fault body) :
    Never fault (Go.withLock body) := by
  intro s
  by_cases hfree : HasMutex.mutex s = .free
  · rw [run_withLock_free hfree, raises_released_iff]
    exact hbody (locked s)
  · rw [run_withLock_held hfree, raises_error_iff]
    exact fun h => nomatch h

end Never
end Go
end VermouthGateway
