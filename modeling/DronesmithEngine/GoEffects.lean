import DronesmithEngine.GoRuntime
import Mathlib.Tactic

/-!
# Stateful computations that can panic

A panic ends a computation but undoes nothing, so the state comes back with
the panic as it does with a result.  `Frames` is about what a computation
leaves alone in every case, `CleanFailure` about what it leaves alone when it
fails.
-/

namespace Go

def Effect (σ α : Type) : Type := σ → Checked α × σ

namespace Effect

variable {σ α β γ : Type}

instance : Monad (Effect σ) where
  pure a := fun s => (.ok a, s)
  bind x f := fun s =>
    match x s with
    | (.ok a, s) => f a s
    | (.error e, s) => (.error e, s)

def read (f : σ → α) : Effect σ α := fun s => (.ok (f s), s)

def modify (f : σ → σ) : Effect σ Unit := fun s => (.ok (), f s)

def lift (x : Checked α) : Effect σ α := fun s => (x, s)

/-- A deferred `recover` that answers for every panic. -/
def recover (answer : α) (x : Effect σ α) (s : σ) : α × σ :=
  match x s with
  | (.ok a, s) => (a, s)
  | (.error _, s) => (answer, s)

theorem bind_of_ok {x : Effect σ α} {f : α → Effect σ β} {s t : σ} {a : α}
    (hx : x s = (.ok a, t)) : (x >>= f) s = f a t := by
  simp only [Bind.bind, hx]

theorem bind_of_error {x : Effect σ α} {f : α → Effect σ β} {s t : σ}
    {e : Panic} (hx : x s = (.error e, t)) :
    (x >>= f) s = (.error e, t) := by
  simp only [Bind.bind, hx]

@[simp] theorem read_bind (g : σ → α) (f : α → Effect σ β) (s : σ) :
    (read g >>= f) s = f (g s) s := rfl

@[simp] theorem modify_bind (g : σ → σ) (f : Unit → Effect σ β) (s : σ) :
    (modify g >>= f) s = f () (g s) := rfl

@[simp] theorem lift_ok_bind (a : α) (f : α → Effect σ β) (s : σ) :
    (lift (.ok a) >>= f) s = f a s := rfl

@[simp] theorem lift_error_bind (e : Panic) (f : α → Effect σ β) (s : σ) :
    (lift (.error e) >>= f) s = (.error e, s) := rfl

/-! ## Frames -/

/-- The computation never changes what `view` shows of the state. -/
def Frames (view : σ → γ) (x : Effect σ α) : Prop :=
  ∀ s, view (x s).2 = view s

variable {view : σ → γ}

theorem Frames.pure (a : α) : Frames view (Pure.pure a : Effect σ α) :=
  fun _ => rfl

theorem Frames.read (f : σ → α) : Frames view (read f) := fun _ => rfl

theorem Frames.lift (x : Checked α) :
    Frames view (lift x : Effect σ α) := fun _ => rfl

theorem Frames.modify {f : σ → σ} (hf : ∀ s, view (f s) = view s) :
    Frames view (modify f) := hf

theorem Frames.bind {x : Effect σ α} {f : α → Effect σ β}
    (hx : Frames view x) (hf : ∀ a, Frames view (f a)) :
    Frames view (x >>= f) := by
  intro s
  rcases hxs : x s with ⟨_ | a, t⟩
  · rw [bind_of_error hxs]
    have hsame := hx s
    rwa [hxs] at hsame
  · rw [bind_of_ok hxs, hf a t]
    have hsame := hx s
    rwa [hxs] at hsame

/-! ## Failures -/

/-- A panic, or a result that reports an error. -/
def Failed (isError : α → Prop) : Checked α → Prop
  | .ok a => isError a
  | .error _ => True

/-- When the computation fails, it has not changed what `view` shows. -/
def CleanFailure (view : σ → γ) (isError : α → Prop)
    (x : Effect σ α) : Prop :=
  ∀ s, Failed isError (x s).1 → view (x s).2 = view s

def NeverFails (isError : α → Prop) (x : Effect σ α) : Prop :=
  ∀ s, ¬ Failed isError (x s).1

variable {isError : β → Prop}

theorem Frames.cleanFailure {x : Effect σ β} (hx : Frames view x) :
    CleanFailure view isError x := fun s _ => hx s

theorem NeverFails.cleanFailure {x : Effect σ β}
    (hx : NeverFails isError x) : CleanFailure view isError x :=
  fun s hfailed => absurd hfailed (hx s)

theorem CleanFailure.bind {x : Effect σ α} {f : α → Effect σ β}
    (hx : Frames view x) (hf : ∀ a, CleanFailure view isError (f a)) :
    CleanFailure view isError (x >>= f) := by
  intro s hfailed
  have hsame := hx s
  rcases hxs : x s with ⟨_ | a, t⟩
  · rw [hxs] at hsame
    rw [bind_of_error hxs]
    exact hsame
  · rw [hxs] at hsame
    rw [bind_of_ok hxs] at hfailed ⊢
    rw [hf a t hfailed, hsame]

theorem NeverFails.pure {a : β} (ha : ¬ isError a) :
    NeverFails isError (Pure.pure a : Effect σ β) := fun _ => ha

theorem NeverFails.modify_bind {f : σ → σ} {x : Unit → Effect σ β}
    (hx : NeverFails isError (x ())) :
    NeverFails isError (modify f >>= x) := fun s => hx (f s)

theorem NeverFails.read_bind {f : σ → α} {x : α → Effect σ β}
    (hx : ∀ a, NeverFails isError (x a)) :
    NeverFails isError (read f >>= x) := fun s => hx (f s) s

theorem recover_error_iff {answer : β} (hanswer : isError answer)
    (x : Effect σ β) (s : σ) :
    isError (recover answer x s).1 ↔ Failed isError (x s).1 := by
  unfold recover
  split
  next hxs => rw [hxs]; rfl
  next hxs => rw [hxs]; exact iff_of_true hanswer trivial

theorem recover_state (answer : β) (x : Effect σ β) (s : σ) :
    (recover answer x s).2 = (x s).2 := by
  unfold recover
  split
  next hxs => rw [hxs]
  next hxs => rw [hxs]

end Effect

end Go
