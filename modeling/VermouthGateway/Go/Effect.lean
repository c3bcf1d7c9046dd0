import Mathlib.Tactic.Common

/-!
# Computations that may panic, block or loop

A Go method works on the memory it was given and ends in one of four ways: it
returns, it panics, it waits for ever (a lock it already holds, a channel
nobody reads), or it loops for ever.  `Eff σ` records all of them over a state
`σ`: it is the core state-and-exception monad with `Halt` as the exception, so
the memory as it was left is kept in every case.

* `Completes` says that a computation returned.
* `focus` runs a computation on one component of the state, the way a method
  is called through a pointer field; a nil pointer panics.
* `withLock` is `Lock(); defer Unlock()`: the deferred unlock runs on return
  and on panic, and is never reached when the body waits for ever.
* `withRLock` is the same for the read side.
-/

namespace VermouthGateway
namespace Go

/-- The run-time faults the modelled code can raise. -/
inductive Fault
  | nilDereference
  | nilMapWrite
  | divideByZero
  | sliceBounds
  | negativeShift
  | fatal (message : String)
deriving DecidableEq, Repr

/-- Why a computation did not return. -/
inductive Halt
  | panic (fault : Fault)
  | blocked
  | diverged
deriving DecidableEq, Repr

/-- Computations over a memory `σ`. -/
abbrev Eff (σ : Type) := EStateM Halt σ

open EStateM (Result)

variable {σ τ α β : Type}

/-- Stop with a run-time fault. -/
def panic (fault : Fault) : Eff σ α := throw (Halt.panic fault)

/-- Wait for something that never comes. -/
def block : Eff σ α := throw Halt.blocked

/-- Loop for ever. -/
def diverge : Eff σ α := throw Halt.diverged

/-- A step that does not touch the memory. -/
def ofPure : Except Halt α → Eff σ α
  | .ok a => pure a
  | .error e => throw e

@[simp] theorem run_panic (fault : Fault) (s : σ) :
    EStateM.run (panic fault : Eff σ α) s = .error (.panic fault) s := rfl

@[simp] theorem run_block (s : σ) :
    EStateM.run (block : Eff σ α) s = .error .blocked s := rfl

@[simp] theorem run_diverge (s : σ) :
    EStateM.run (diverge : Eff σ α) s = .error .diverged s := rfl

@[simp] theorem run_ofPure_ok (a : α) (s : σ) :
    EStateM.run (ofPure (.ok a) : Eff σ α) s = .ok a s := rfl

@[simp] theorem run_ofPure_error (e : Halt) (s : σ) :
    EStateM.run (ofPure (.error e) : Eff σ α) s = .error e s := rfl

@[simp] theorem run_ite (c : Prop) [Decidable c] (x y : Eff σ α) (s : σ) :
    EStateM.run (if c then x else y) s =
      if c then EStateM.run x s else EStateM.run y s := by
  split <;> rfl

@[simp] theorem run_modify (f : σ → σ) (s : σ) :
    EStateM.run (modify f : Eff σ PUnit) s = .ok ⟨⟩ (f s) := rfl

/-- The computation returned. -/
def Completes : Result Halt σ α → Prop
  | .ok _ _ => True
  | .error _ _ => False

@[simp] theorem completes_ok (a : α) (s : σ) :
    Completes (.ok a s : Result Halt σ α) := trivial

@[simp] theorem not_completes_error (e : Halt) (s : σ) :
    ¬ Completes (.error e s : Result Halt σ α) := fun h => h

instance : DecidablePred (Completes (σ := σ) (α := α))
  | .ok _ _ => isTrue trivial
  | .error _ _ => isFalse fun h => h

theorem completes_iff {r : Result Halt σ α} :
    Completes r ↔ ∃ a s, r = .ok a s := by
  cases r with
  | ok a s => simp
  | error e s => simp

/-- The memory a computation leaves behind, however it ended. -/
def memory : Result Halt σ α → σ
  | .ok _ s => s
  | .error _ s => s

@[simp] theorem memory_ok (a : α) (s : σ) :
    memory (.ok a s : Result Halt σ α) = s := rfl

@[simp] theorem memory_error (e : Halt) (s : σ) :
    memory (.error e s : Result Halt σ α) = s := rfl

/-- Inversion of sequencing: a composite returned only if both parts did. -/
theorem run_bind_ok {x : Eff σ α} {f : α → Eff σ β} {s s' : σ} {b : β}
    (h : EStateM.run (x >>= f) s = .ok b s') :
    ∃ a s₁, EStateM.run x s = .ok a s₁ ∧ EStateM.run (f a) s₁ = .ok b s' := by
  rw [EStateM.run_bind] at h
  cases hx : EStateM.run x s with
  | ok a s₁ =>
      rw [hx] at h
      exact ⟨a, s₁, rfl, h⟩
  | error e s₁ =>
      rw [hx] at h
      cases h

/-- Working on the value a computation returned leaves its memory alone. -/
theorem memory_run_bind_pure (x : Eff σ α) (f : α → β) (s : σ) :
    memory (EStateM.run (x >>= fun a => pure (f a)) s) = memory (EStateM.run x s) := by
  rw [EStateM.run_bind]
  cases EStateM.run x s <;> rfl

/-! ## Loops -/

/-- A range loop that drops what each round returns. -/
def forEach (xs : List α) (body : α → Eff σ β) : Eff σ Unit :=
  match xs with
  | [] => pure ()
  | x :: xs => do
      let _ ← body x
      forEach xs body

@[simp] theorem run_forEach_nil (body : α → Eff σ β) (s : σ) :
    EStateM.run (forEach [] body) s = .ok () s := rfl

theorem run_forEach_cons (x : α) (xs : List α) (body : α → Eff σ β) (s : σ) :
    EStateM.run (forEach (x :: xs) body) s =
      match EStateM.run (body x) s with
      | .ok _ s' => EStateM.run (forEach xs body) s'
      | .error e s' => .error e s' := by
  rw [forEach, EStateM.run_bind]
  cases EStateM.run (body x) s <;> rfl

/-- Inversion of a round: a loop returned only if the round and the loop over
the others did. -/
theorem run_forEach_cons_ok {x : α} {xs : List α} {body : α → Eff σ β} {s s' : σ}
    (h : EStateM.run (forEach (x :: xs) body) s = .ok () s') :
    ∃ b s₁, EStateM.run (body x) s = .ok b s₁ ∧ EStateM.run (forEach xs body) s₁ = .ok () s' := by
  rw [forEach] at h
  exact run_bind_ok h

/-- A loop returns when its first round and the loop over the others do. -/
theorem completes_forEach_cons_iff (x : α) (xs : List α) (body : α → Eff σ β) (s : σ) :
    Completes (EStateM.run (forEach (x :: xs) body) s) ↔
      ∃ b s', EStateM.run (body x) s = .ok b s' ∧
        Completes (EStateM.run (forEach xs body) s') := by
  rw [run_forEach_cons]
  cases EStateM.run (body x) s with
  | ok b s' => simp
  | error e s' => simp

/-- A loop that returned went through every round, and any property the rounds
keep holds at its end. -/
theorem run_forEach_ok {xs : List α} {body : α → Eff σ β} {s s' : σ} {P : σ → Prop}
    (hrun : EStateM.run (forEach xs body) s = .ok () s') (hstart : P s)
    (hround : ∀ x ∈ xs, ∀ s₁ b s₂, P s₁ → EStateM.run (body x) s₁ = .ok b s₂ → P s₂) :
    P s' := by
  induction xs generalizing s with
  | nil =>
      cases hrun
      exact hstart
  | cons x xs ih =>
      obtain ⟨b, s₁, hx, hrest⟩ := run_forEach_cons_ok hrun
      exact ih hrest (hround x List.mem_cons_self s b s₁ hstart hx)
        fun y hy => hround y (List.mem_cons_of_mem x hy)

/-! ## Working on a component -/

/-- Put the component a computation worked on back into the whole. -/
def embed (put : τ → σ) : Result Halt τ α → Result Halt σ α
  | .ok a t => .ok a (put t)
  | .error e t => .error e (put t)

@[simp] theorem embed_ok (put : τ → σ) (a : α) (t : τ) :
    embed put (.ok a t) = .ok a (put t) := rfl

@[simp] theorem embed_error (put : τ → σ) (e : Halt) (t : τ) :
    embed put (.error e t : Result Halt τ α) = .error e (put t) := rfl

@[simp] theorem memory_embed (put : τ → σ) (r : Result Halt τ α) :
    memory (embed put r) = put (memory r) := by
  cases r <;> rfl

@[simp] theorem completes_embed (put : τ → σ) (r : Result Halt τ α) :
    Completes (embed put r) ↔ Completes r := by
  cases r <;> exact Iff.rfl

theorem embed_eq_ok {put : τ → σ} {r : Result Halt τ α} {a : α} {s : σ}
    (h : embed put r = .ok a s) : ∃ t, r = .ok a t ∧ s = put t := by
  cases r with
  | ok b t =>
      cases h
      exact ⟨t, rfl, rfl⟩
  | error e t => cases h

/-- Run `body` on the component `view` finds and write it back with `put`.
Calling through a nil pointer is a fault. -/
def focus (view : σ → Option τ) (put : τ → σ → σ) (body : Eff τ α) : Eff σ α :=
  fun s =>
    match view s with
    | none => .error (.panic .nilDereference) s
    | some t => embed (fun t' => put t' s) (body t)

theorem run_focus_none {view : σ → Option τ} {put : τ → σ → σ} {body : Eff τ α}
    {s : σ} (hview : view s = none) :
    EStateM.run (focus view put body) s = .error (.panic .nilDereference) s := by
  simp [EStateM.run, focus, hview]

theorem run_focus_some {view : σ → Option τ} {put : τ → σ → σ} {body : Eff τ α}
    {s : σ} {t : τ} (hview : view s = some t) :
    EStateM.run (focus view put body) s =
      embed (fun t' => put t' s) (EStateM.run body t) := by
  simp only [EStateM.run, focus, hview]

/-- A call on a component returns exactly when the component is there and the
call returns on it. -/
theorem completes_focus_iff {view : σ → Option τ} {put : τ → σ → σ}
    {body : Eff τ α} {s : σ} :
    Completes (EStateM.run (focus view put body) s) ↔
      ∃ t, view s = some t ∧ Completes (EStateM.run body t) := by
  cases hview : view s with
  | none => simp [run_focus_none hview]
  | some t => simp [run_focus_some hview]

theorem run_focus_ok {view : σ → Option τ} {put : τ → σ → σ} {body : Eff τ α}
    {s s' : σ} {a : α} (h : EStateM.run (focus view put body) s = .ok a s') :
    ∃ t t', view s = some t ∧ EStateM.run body t = .ok a t' ∧ s' = put t' s := by
  cases hview : view s with
  | none =>
      rw [run_focus_none hview] at h
      cases h
  | some t =>
      rw [run_focus_some hview] at h
      obtain ⟨t', hbody, hput⟩ := embed_eq_ok h
      exact ⟨t, t', rfl, hbody, hput⟩

/-! ## Deferred calls -/

/-- A deferred call: it runs when the body returns and when it panics. -/
def released (release : σ → σ) : Result Halt σ α → Result Halt σ α
  | .ok a s => .ok a (release s)
  | .error (.panic f) s => .error (.panic f) (release s)
  | .error e s => .error e s

/-- `defer release()` around a body. -/
def deferred (release : σ → σ) (body : Eff σ α) : Eff σ α := fun s =>
  released release (body s)

@[simp] theorem released_ok (release : σ → σ) (a : α) (s : σ) :
    released release (.ok a s) = .ok a (release s) := rfl

@[simp] theorem released_panic (release : σ → σ) (fault : Fault) (s : σ) :
    released release (.error (.panic fault) s : Result Halt σ α) =
      .error (.panic fault) (release s) := rfl

@[simp] theorem completes_released (release : σ → σ) (r : Result Halt σ α) :
    Completes (released release r) ↔ Completes r := by
  cases r with
  | ok a s => exact Iff.rfl
  | error e s => cases e <;> exact Iff.rfl

theorem released_eq_ok {release : σ → σ} {r : Result Halt σ α} {a : α} {s : σ}
    (h : released release r = .ok a s) : ∃ s₁, r = .ok a s₁ ∧ s = release s₁ := by
  cases r with
  | ok b s₁ =>
      cases h
      exact ⟨s₁, rfl, rfl⟩
  | error e s₁ => cases e <;> cases h

/-! ## Read-write locks -/

/-- Go's `sync.RWMutex`: one writer, or any number of readers.  It is not
reentrant. -/
structure RWMutex where
  writer : Bool := false
  readers : Nat := 0
deriving DecidableEq, Repr

/-- The zero value: an unlocked mutex. -/
def RWMutex.free : RWMutex := {}

/-- A memory that holds one read-write lock. -/
class HasMutex (σ : Type) where
  mutex : σ → RWMutex
  setMutex : RWMutex → σ → σ
  mutex_setMutex : ∀ m s, mutex (setMutex m s) = m
  setMutex_setMutex : ∀ m m' s, setMutex m (setMutex m' s) = setMutex m s
  setMutex_mutex : ∀ s, setMutex (mutex s) s = s

attribute [simp] HasMutex.mutex_setMutex HasMutex.setMutex_setMutex
  HasMutex.setMutex_mutex

section Locks

variable [HasMutex σ]

open HasMutex

/-- `mu.Lock()`: waits while anyone holds the lock. -/
def lock : Eff σ Unit := fun s =>
  if mutex s = .free then .ok () (setMutex { writer := true, readers := 0 } s)
  else .error .blocked s

/-- `mu.Unlock()`. -/
def unlock (s : σ) : σ := setMutex { mutex s with writer := false } s

/-- `mu.RLock()`: waits while a writer holds the lock.  A writer that waits for it, which
would keep new readers out as well, is no part of the state. -/
def rlock : Eff σ Unit := fun s =>
  if (mutex s).writer then .error .blocked s
  else .ok () (setMutex { mutex s with readers := (mutex s).readers + 1 } s)

/-- `mu.RUnlock()`. -/
def runlock (s : σ) : σ :=
  setMutex { mutex s with readers := (mutex s).readers - 1 } s

/-- `mu.Lock(); defer mu.Unlock()` around a body. -/
def withLock (body : Eff σ α) : Eff σ α := do
  lock
  deferred unlock body

/-- `mu.RLock(); defer mu.RUnlock()` around a body. -/
def withRLock (body : Eff σ α) : Eff σ α := do
  rlock
  deferred runlock body

/-- The memory with the write lock taken. -/
def locked (s : σ) : σ := setMutex { writer := true, readers := 0 } s

theorem run_lock_free {s : σ} (hfree : mutex s = .free) :
    EStateM.run lock s = .ok () (locked s) := by
  simp [EStateM.run, lock, hfree, locked]

theorem run_lock_held {s : σ} (hheld : mutex s ≠ .free) :
    EStateM.run lock s = .error .blocked s := by
  simp [EStateM.run, lock, hheld]

theorem run_withLock_held {body : Eff σ α} {s : σ} (hheld : mutex s ≠ .free) :
    EStateM.run (withLock body) s = .error .blocked s := by
  simp only [withLock, EStateM.run_bind, run_lock_held hheld]

/-- A locked section on a free lock runs its body on the locked memory and
releases the lock when the body returns or panics. -/
theorem run_withLock_free {body : Eff σ α} {s : σ} (hfree : mutex s = .free) :
    EStateM.run (withLock body) s = released unlock (EStateM.run body (locked s)) := by
  simp only [withLock, EStateM.run_bind, run_lock_free hfree]
  rfl

theorem run_withLock_modify {f : σ → σ} {s : σ} (hfree : mutex s = .free) :
    EStateM.run (withLock (modify f : Eff σ PUnit)) s = .ok ⟨⟩ (unlock (f (locked s))) := by
  rw [run_withLock_free hfree]
  rfl

/-- A read section runs its body with one more reader and lets that reader go
when the body returns or panics. -/
theorem run_withRLock {body : Eff σ α} {s : σ} (hfree : (mutex s).writer = false) :
    EStateM.run (withRLock body) s =
      released runlock (EStateM.run body
        (setMutex { mutex s with readers := (mutex s).readers + 1 } s)) := by
  have hrlock : EStateM.run rlock s =
      .ok () (setMutex { mutex s with readers := (mutex s).readers + 1 } s) := by
    simp [EStateM.run, rlock, hfree]
  rw [withRLock, EStateM.run_bind, hrlock]
  rfl

theorem run_withRLock_held {body : Eff σ α} {s : σ} (hheld : (mutex s).writer = true) :
    EStateM.run (withRLock body) s = .error .blocked s := by
  have hrlock : EStateM.run rlock s = .error .blocked s := by
    simp [EStateM.run, rlock, hheld]
  rw [withRLock, EStateM.run_bind, hrlock]

theorem completes_withLock_iff {body : Eff σ α} {s : σ} :
    Completes (EStateM.run (withLock body) s) ↔
      mutex s = .free ∧ Completes (EStateM.run body (locked s)) := by
  by_cases hfree : mutex s = .free
  · simp [run_withLock_free hfree, hfree]
  · simp [run_withLock_held hfree, hfree]

/-- A locked section that returned had the lock, and its body returned. -/
theorem run_withLock_ok {body : Eff σ α} {s s' : σ} {a : α}
    (h : EStateM.run (withLock body) s = .ok a s') :
    mutex s = .free ∧ ∃ s₁, EStateM.run body (locked s) = .ok a s₁ ∧ s' = unlock s₁ := by
  by_cases hfree : mutex s = .free
  · rw [run_withLock_free hfree] at h
    exact ⟨hfree, released_eq_ok h⟩
  · rw [run_withLock_held hfree] at h
    cases h

end Locks

end Go
end VermouthGateway
