import DronesmithEngine.LabelledRuns
import Mathlib.Tactic

/-!
# Goroutines that share a state

A goroutine is given by its atomic steps: each changes the shared state, and
what is left to do depends on what the step read.  `Safe` says of one goroutine
that its steps keep an invariant and a guarantee, whatever the others do that
they are relied on to do.  Then the invariant holds in every run of any number
of them, interleaved when the guarantee of each is what the others rely on, and
one after the other without any guarantee.
-/

namespace Resumptions

open LabelledRuns

inductive Resumption (σ ρ : Type)
  | done (result : ρ)
  | act (update : σ → σ) (rest : σ → Resumption σ ρ)

variable {σ ρ α β ε χ : Type}

namespace Resumption

def bind : Resumption σ α → (α → Resumption σ β) → Resumption σ β
  | .done result, f => f result
  | .act update rest, f => .act update fun s => (rest s).bind f

instance : Monad (Resumption σ) where
  pure := .done
  bind := bind

/-- One step. -/
def atomic (f : σ → α × σ) : Resumption σ α :=
  .act (fun s => (f s).2) fun s => .done (f s).1

def read (f : σ → α) : Resumption σ α := atomic fun s => (f s, s)

def modify (f : σ → σ) : Resumption σ Unit := atomic fun s => ((), f s)

def isDone : Resumption σ ρ → Bool
  | .done _ => true
  | .act _ _ => false

/-- The goroutine without the others. -/
def alone : Resumption σ ρ → σ → ρ × σ
  | .done result, s => (result, s)
  | .act update rest, s => (rest s).alone (update s)

@[simp] theorem alone_pure (result : ρ) (s : σ) :
    (pure result : Resumption σ ρ).alone s = (result, s) := rfl

@[simp] theorem alone_atomic (f : σ → α × σ) (s : σ) :
    (atomic f).alone s = f s := rfl

theorem alone_bind (x : Resumption σ α) (f : α → Resumption σ β) (s : σ) :
    (x >>= f).alone s = (f (x.alone s).1).alone (x.alone s).2 := by
  induction x generalizing s with
  | done result => rfl
  | act update rest ih => exact ih s (update s)

/-- Every step is safe in all states that the others may have led to, and the
result is right when it is reached. -/
def Safe (rely guarantee : σ → σ → Prop) (I : σ → Prop)
    (Q : ρ → σ → Prop) : Resumption σ ρ → σ → Prop
  | .done result, s => Q result s
  | .act update rest, s => ∀ t, rely s t → I t →
      I (update t) ∧ guarantee t (update t) ∧
        (rest t).Safe rely guarantee I Q (update t)

section Safe

variable {rely guarantee : σ → σ → Prop} {I : σ → Prop} {s : σ}
variable {x : Resumption σ α} {f : α → Resumption σ β}
variable {Q : α → σ → Prop} {Q' : β → σ → Prop}

theorem Safe.pure {result : α} (hQ : Q result s) :
    (Pure.pure result : Resumption σ α).Safe rely guarantee I Q s := hQ

theorem Safe.imp {P : α → σ → Prop}
    (hx : x.Safe rely guarantee I Q s) (hQ : ∀ a t, Q a t → P a t) :
    x.Safe rely guarantee I P s := by
  induction x generalizing s with
  | done result => exact hQ result s hx
  | act update rest ih =>
      intro t hrely ht
      obtain ⟨hI, hguarantee, hrest⟩ := hx t hrely ht
      exact ⟨hI, hguarantee, ih t hrest⟩

theorem Safe.bind (hx : x.Safe rely guarantee I Q s)
    (hf : ∀ a t, Q a t → (f a).Safe rely guarantee I Q' t) :
    (x >>= f).Safe rely guarantee I Q' s := by
  induction x generalizing s with
  | done result => exact hf result s hx
  | act update rest ih =>
      intro t hrely ht
      obtain ⟨hI, hguarantee, hrest⟩ := hx t hrely ht
      exact ⟨hI, hguarantee, ih t hrest⟩

theorem Safe.atomic {g : σ → α × σ}
    (hg : ∀ t, rely s t → I t →
      I (g t).2 ∧ guarantee t (g t).2 ∧ Q (g t).1 (g t).2) :
    (Resumption.atomic g).Safe rely guarantee I Q s := hg

end Safe

end Resumption

/-! ## Any number of goroutines -/

structure Pool (σ ρ : Type) where
  state : σ
  goroutines : List (Resumption σ ρ)

inductive Turn (ε χ : Type)
  | outside (event : ε)
  | begin (request : χ)
  | turn (k : ℕ)

namespace Pool

def initial (s : σ) : Pool σ ρ := ⟨s, []⟩

def step (env : ε → σ → Option σ) (handler : χ → Resumption σ ρ)
    (p : Pool σ ρ) : Turn ε χ → Option (Pool σ ρ)
  | .outside event => (env event p.state).map fun s => { p with state := s }
  | .begin request =>
      some { p with goroutines := p.goroutines ++ [handler request] }
  | .turn k =>
      match p.goroutines[k]? with
      | some (.act update rest) =>
          some ⟨update p.state, p.goroutines.set k (rest p.state)⟩
      | _ => none

/-- No request comes before the ones that came are answered, and only allowed
ones come. -/
def Serial (Allowed : χ → Prop) (p : Pool σ ρ) : Turn ε χ → Prop
  | .begin request => Allowed request ∧ ∀ g ∈ p.goroutines, g.isDone = true
  | _ => True

instance (Allowed : χ → Prop) [DecidablePred Allowed] (p : Pool σ ρ) :
    ∀ event : Turn ε χ, Decidable (p.Serial Allowed event)
  | .begin _ => inferInstanceAs (Decidable (_ ∧ ∀ _ ∈ _, _))
  | .outside _ => .isTrue trivial
  | .turn _ => .isTrue trivial

variable {env : ε → σ → Option σ} {handler : χ → Resumption σ ρ}
variable {p next : Pool σ ρ} {event : Turn ε χ}

theorem step_cases (hstep : p.step env handler event = some next) :
    (∃ e s, event = .outside e ∧ env e p.state = some s ∧
      next = { p with state := s }) ∨
    (∃ request, event = .begin request ∧
      next = { p with goroutines := p.goroutines ++ [handler request] }) ∨
    (∃ k update rest, event = .turn k ∧
      p.goroutines[k]? = some (.act update rest) ∧
      next = ⟨update p.state, p.goroutines.set k (rest p.state)⟩) := by
  cases event with
  | outside e =>
      obtain ⟨s, hs, rfl⟩ := Option.map_eq_some_iff.mp hstep
      exact Or.inl ⟨e, s, rfl, hs, rfl⟩
  | begin request =>
      cases hstep
      exact Or.inr (Or.inl ⟨request, rfl, rfl⟩)
  | turn k =>
      simp only [step] at hstep
      split at hstep
      next update rest hk =>
        cases hstep
        exact Or.inr (Or.inr ⟨k, update, rest, rfl, hk, rfl⟩)
      next => cases hstep

/-- The invariant holds, and each goroutine is safe since some state
before. -/
def AllSafe (rely guarantee : σ → σ → Prop) (I : σ → Prop)
    (Q : ρ → σ → Prop) (p : Pool σ ρ) : Prop :=
  I p.state ∧ ∀ g ∈ p.goroutines,
    ∃ s, rely s p.state ∧ g.Safe rely guarantee I Q s

section Rules

variable {rely guarantee : σ → σ → Prop} {I : σ → Prop}
variable {Q : ρ → σ → Prop} {start : σ} {events : List (Turn ε χ)}

theorem AllSafe.turn {k : ℕ} (hp : p.AllSafe rely guarantee I Q)
    (hstep : p.step env handler (.turn k) = some next) :
    guarantee p.state next.state := by
  obtain ⟨hI, hsafe⟩ := hp
  rcases step_cases hstep with ⟨e, s, hevent, -⟩ | ⟨request, hevent, -⟩ |
    ⟨j, update, rest, -, hj, rfl⟩
  · cases hevent
  · cases hevent
  · obtain ⟨t, ht, hacts⟩ := hsafe _ (List.mem_of_getElem? hj)
    exact (hacts p.state ht hI).2.1

/-- Where each relies on no more than all guarantee, all are safe in every
interleaving. -/
theorem interleaved (hrefl : ∀ s, rely s s)
    (htrans : ∀ s t u, rely s t → rely t u → rely s u)
    (hweaker : ∀ s t, guarantee s t → rely s t)
    (henv : ∀ e s t, I s → env e s = some t → I t ∧ rely s t)
    (hhandler : ∀ request s, I s →
      (handler request).Safe rely guarantee I Q s)
    (hstart : I start)
    (hrun : Run (step env handler) (initial start) events p) :
    p.AllSafe rely guarantee I Q := by
  apply hrun.invariant
  · rintro p event next ⟨hI, hsafe⟩ - hstep
    rcases step_cases hstep with ⟨e, s, -, hs, rfl⟩ | ⟨request, -, rfl⟩ |
      ⟨k, update, rest, -, hk, rfl⟩
    · obtain ⟨hnext, hrely⟩ := henv e p.state s hI hs
      refine ⟨hnext, fun g hg => ?_⟩
      obtain ⟨t, ht, hgsafe⟩ := hsafe g hg
      exact ⟨t, htrans _ _ _ ht hrely, hgsafe⟩
    · refine ⟨hI, fun g hg => ?_⟩
      rcases List.mem_append.mp hg with hold | hnew
      · exact hsafe g hold
      · rw [List.mem_singleton.mp hnew]
        exact ⟨p.state, hrefl _, hhandler request p.state hI⟩
    · obtain ⟨t, ht, hacts⟩ := hsafe _ (List.mem_of_getElem? hk)
      obtain ⟨hnext, hguarantee, hrest⟩ := hacts p.state ht hI
      refine ⟨hnext, fun g hg => ?_⟩
      rcases List.mem_or_eq_of_mem_set hg with hold | rfl
      · obtain ⟨u, hu, hgsafe⟩ := hsafe g hold
        exact ⟨u, htrans _ _ _ hu (hweaker _ _ hguarantee), hgsafe⟩
      · exact ⟨update p.state, hrefl _, hrest⟩
  · exact ⟨hstart, fun g hg => absurd hg List.not_mem_nil⟩

/-- One after the other, each relies on what comes from outside only. -/
theorem serial {Allowed : χ → Prop} (hrefl : ∀ s, rely s s)
    (htrans : ∀ s t u, rely s t → rely t u → rely s u)
    (henv : ∀ e s t, I s → env e s = some t → I t ∧ rely s t)
    (hhandler : ∀ request s, Allowed request → I s →
      (handler request).Safe rely (fun _ _ => True) I Q s)
    (hstart : I start)
    (hrun : GuardedRun (step env handler) (Serial Allowed) (initial start)
      events p) :
    I p.state := by
  have hinv : I p.state ∧ ∀ k g, p.goroutines[k]? = some g →
      g.isDone = false → k + 1 = p.goroutines.length ∧
        ∃ s, rely s p.state ∧
          g.Safe rely (fun _ _ => True) I Q s := by
    apply hrun.invariant
    · rintro p event next ⟨hI, hlast⟩ hguard hstep
      rcases step_cases hstep with ⟨e, s, -, hs, rfl⟩ |
        ⟨request, rfl, rfl⟩ | ⟨k, update, rest, -, hk, rfl⟩
      · obtain ⟨hnext, hrely⟩ := henv e p.state s hI hs
        refine ⟨hnext, fun k g hg hleft => ?_⟩
        obtain ⟨hlength, t, ht, hsafe⟩ := hlast k g hg hleft
        exact ⟨hlength, t, htrans _ _ _ ht hrely, hsafe⟩
      · refine ⟨hI, fun k g hg hleft => ?_⟩
        by_cases hk : k < p.goroutines.length
        · rw [List.getElem?_append_left hk] at hg
          rw [hguard.2 g (List.mem_of_getElem? hg)] at hleft
          cases hleft
        · rw [List.getElem?_append_right (by omega)] at hg
          obtain ⟨hlt, hnew⟩ := List.getElem?_eq_some_iff.mp hg
          rw [List.length_singleton] at hlt
          rw [List.getElem_singleton] at hnew
          subst hnew
          refine ⟨?_, p.state, hrefl _,
            hhandler request p.state hguard.1 hI⟩
          rw [List.length_append, List.length_singleton]
          omega
      · obtain ⟨hlength, t, ht, hacts⟩ := hlast k _ hk rfl
        obtain ⟨hnext, -, hrest⟩ := hacts p.state ht hI
        refine ⟨hnext, fun j g hg hleft => ?_⟩
        rw [List.length_set]
        by_cases hjk : j = k
        · subst hjk
          obtain ⟨hlt, -⟩ := List.getElem?_eq_some_iff.mp hk
          rw [List.getElem?_set_self hlt] at hg
          cases hg
          exact ⟨hlength, update p.state, hrefl _, hrest⟩
        · rw [List.getElem?_set_ne (Ne.symm hjk)] at hg
          have hother := (hlast j g hg hleft).1
          omega
    · exact ⟨hstart, fun k g hg => by cases hg⟩
  exact hinv.1

end Rules

end Pool

end Resumptions
