import Mathlib.Data.List.Induction
import Mathlib.Tactic.Common

/-!
# Histories of events

A state that is folded over a list of events, seen through a view that each
event overwrites, leaves alone, or steps.  Both rules turn what one event does
to the view into what a whole history does.
-/

namespace EventHistories

variable {σ τ ε δ α : Type*}

/-- The value that the last writing event of a history writes. -/
def lastWrite (writes : ε → Option α) (events : List ε) : Option α :=
  events.foldl (fun last event => (writes event).or last) none

@[simp] theorem lastWrite_nil (writes : ε → Option α) :
    lastWrite writes [] = none := rfl

@[simp] theorem lastWrite_concat (writes : ε → Option α)
    (events : List ε) (event : ε) :
    lastWrite writes (events ++ [event]) =
      (writes event).or (lastWrite writes events) := by
  simp [lastWrite, List.foldl_append]

theorem lastWrite_append (writes : ε → Option α) (before after : List ε) :
    lastWrite writes (before ++ after) =
      (lastWrite writes after).or (lastWrite writes before) := by
  induction after using List.reverseRecOn with
  | nil => simp
  | append_singleton after event ih =>
      rw [← List.append_assoc, lastWrite_concat, lastWrite_concat, ih,
        Option.or_assoc]

/-- A view that an event either overwrites or leaves alone. -/
theorem view_of_overwrites {apply : σ → ε → σ} (view : σ → Option α)
    {writes : ε → Option α}
    (hview : ∀ state event,
      view (apply state event) = (writes event).or (view state))
    (start : σ) (events : List ε) :
    view (events.foldl apply start) =
      (lastWrite writes events).or (view start) := by
  induction events using List.reverseRecOn with
  | nil => rfl
  | append_singleton events event ih =>
      rw [List.foldl_append, List.foldl_cons, List.foldl_nil, hview, ih,
        lastWrite_concat, Option.or_assoc]

/-- A view that some of the events step, and the others leave alone. -/
theorem view_of_signals {apply : σ → ε → σ} (view : σ → τ)
    {step : τ → δ → τ} {signal : ε → Option δ}
    (hview : ∀ state event,
      view (apply state event) =
        (signal event).elim (view state) (step (view state)))
    (start : σ) (events : List ε) :
    view (events.foldl apply start) =
      (events.filterMap signal).foldl step (view start) := by
  induction events generalizing start with
  | nil => rfl
  | cons event events ih =>
      rw [List.foldl_cons, ih, hview]
      cases hsignal : signal event with
      | none => rw [List.filterMap_cons_none hsignal, Option.elim_none]
      | some d =>
          rw [List.filterMap_cons_some hsignal, Option.elim_some,
            List.foldl_cons]

/-- How many events of a history come in a state in which they count. -/
def countAlong (apply : σ → ε → σ) (counts : σ → ε → Bool) :
    σ → List ε → ℕ
  | _, [] => 0
  | state, event :: events =>
      (counts state event).toNat +
        countAlong apply counts (apply state event) events

theorem countP_cons_eq_add (p : ε → Bool) (event : ε) (events : List ε) :
    (event :: events).countP p = (p event).toNat + events.countP p := by
  rw [List.countP_cons, Nat.add_comm]
  cases p event <;> rfl

end EventHistories
