import DronesmithEngine.EventHistories
import Mathlib.Data.List.Infix
import Mathlib.Order.Basic

/-!
# Watchdogs

A flag that a feed sets and that a check clears when nothing was seen for
longer than a limit.  A refresh counts as something seen, and does not set the
flag.  Signals come with the time they arrive; a run may also be one whose
clock goes back, where the age of what was seen is zero.
-/

namespace Watchdogs

open EventHistories

inductive Signal
  | feed
  | refresh
  | check
  deriving DecidableEq

@[ext] structure Watchdog where
  online : Bool
  last : ℕ

/-- The time of a signal that counts as something seen. -/
def seenAt : ℕ × Signal → Option ℕ
  | (_, .check) => none
  | (now, _) => some now

def lastSeen (since : ℕ) (signals : List (ℕ × Signal)) : ℕ :=
  (lastWrite seenAt signals).getD since

theorem lastSeen_append (since : ℕ) (before after : List (ℕ × Signal)) :
    lastSeen since (before ++ after) = lastSeen (lastSeen since before) after := by
  rw [lastSeen, lastWrite_append, lastSeen, lastSeen]
  cases lastWrite seenAt after <;> rfl

@[simp] theorem lastSeen_feed (since now : ℕ) :
    lastSeen since [(now, .feed)] = now := rfl

theorem lastSeen_le {since bound : ℕ} {signals : List (ℕ × Signal)}
    (hsince : since ≤ bound)
    (hseen : ∀ event ∈ signals, event.2 ≠ .check → event.1 ≤ bound) :
    lastSeen since signals ≤ bound := by
  induction signals using List.reverseRecOn with
  | nil => exact hsince
  | append_singleton signals event ih =>
      obtain ⟨hbefore, hlast⟩ := List.forall_mem_append.mp hseen
      obtain ⟨now, signal⟩ := event
      rw [lastSeen_append]
      cases signal with
      | feed => exact hlast _ (List.mem_singleton.mpr rfl) Signal.noConfusion
      | refresh =>
          exact hlast _ (List.mem_singleton.mpr rfl) Signal.noConfusion
      | check => exact ih hbefore

variable (limit : ℕ)

def step (w : Watchdog) : ℕ × Signal → Watchdog
  | (now, .feed) => ⟨true, now⟩
  | (now, .refresh) => ⟨w.online, now⟩
  | (now, .check) =>
      if w.online ∧ limit < now - w.last then ⟨false, w.last⟩ else w

theorem step_check (w : Watchdog) (now : ℕ) :
    step limit w (now, .check) =
      if w.online ∧ limit < now - w.last then ⟨false, w.last⟩ else w := rfl

/-- Every check finds something seen within the limit. -/
def InTime (since : ℕ) (signals : List (ℕ × Signal)) : Prop :=
  ∀ before now, before ++ [(now, .check)] <+: signals →
    now - lastSeen since before ≤ limit

/-- A feed after which every check is in time. -/
def Alive (signals : List (ℕ × Signal)) : Prop :=
  ∃ before now after, signals = before ++ (now, .feed) :: after ∧
    InTime limit now after

variable {limit} {w : Watchdog} {signals : List (ℕ × Signal)}
  {since now : ℕ}

theorem inTime_nil : InTime limit since [] := by
  intro before now hbegin
  simp at hbegin

theorem inTime_concat_iff {signal : Signal} :
    InTime limit since (signals ++ [(now, signal)]) ↔
      InTime limit since signals ∧
        (signal = .check → now - lastSeen since signals ≤ limit) := by
  constructor
  · intro hin
    refine ⟨fun before t hbegin => ?_, ?_⟩
    · exact hin before t (hbegin.trans (List.prefix_append _ _))
    · rintro rfl
      exact hin signals now (List.prefix_refl _)
  · rintro ⟨hin, hlast⟩ before t hbegin
    rcases List.prefix_concat_iff.mp hbegin with heq | hbegin
    · obtain ⟨rfl, hsame⟩ := List.append_inj' heq rfl
      cases hsame
      exact hlast rfl
    · exact hin before t hbegin

theorem alive_nil : ¬ Alive limit [] := by
  rintro ⟨before, now, after, heq, -⟩
  simp at heq

theorem alive_feed : Alive limit (signals ++ [(now, .feed)]) :=
  ⟨signals, now, [], rfl, inTime_nil⟩

/-- A signal that is no feed is one more after the feed that counts. -/
theorem alive_concat_iff (since : ℕ) {signal : Signal} (hfeed : signal ≠ .feed) :
    Alive limit (signals ++ [(now, signal)]) ↔
      Alive limit signals ∧
        (signal = .check → now - lastSeen since signals ≤ limit) := by
  constructor
  · rintro ⟨before, t, after, heq, hin⟩
    induction after using List.reverseRecOn with
    | nil =>
        obtain ⟨-, hsame⟩ := List.append_inj' heq rfl
        cases hsame
        exact absurd rfl hfeed
    | append_singleton after last _ =>
        rw [← List.cons_append, ← List.append_assoc] at heq
        obtain ⟨rfl, hsame⟩ := List.append_inj' heq rfl
        cases hsame
        obtain ⟨hin, hlast⟩ := inTime_concat_iff.mp hin
        refine ⟨⟨before, t, after, rfl, hin⟩, fun hcheck => ?_⟩
        rw [← List.singleton_append, ← List.append_assoc, lastSeen_append,
          lastSeen_append, lastSeen_feed]
        exact hlast hcheck
  · rintro ⟨⟨before, t, after, rfl, hin⟩, hlast⟩
    refine ⟨before, t, after ++ [(now, signal)], by simp, ?_⟩
    refine inTime_concat_iff.mpr ⟨hin, fun hcheck => ?_⟩
    have hage := hlast hcheck
    rw [← List.singleton_append, ← List.append_assoc, lastSeen_append,
      lastSeen_append, lastSeen_feed] at hage
    exact hage

theorem foldl_last (w : Watchdog) (signals : List (ℕ × Signal)) :
    (signals.foldl (step limit) w).last = lastSeen w.last signals := by
  induction signals using List.reverseRecOn with
  | nil => rfl
  | append_singleton signals event ih =>
      obtain ⟨now, signal⟩ := event
      rw [List.foldl_append, List.foldl_cons, List.foldl_nil, lastSeen_append,
        ← ih]
      cases signal with
      | feed => rfl
      | refresh => rfl
      | check =>
          rw [step_check]
          split <;> rfl

/-- A watchdog that was never fed is online exactly when some feed had every
check after it in time. -/
theorem online_iff (hoff : w.online = false) (signals : List (ℕ × Signal)) :
    (signals.foldl (step limit) w).online ↔ Alive limit signals := by
  induction signals using List.reverseRecOn with
  | nil => exact iff_of_false (by simp [hoff]) alive_nil
  | append_singleton signals event ih =>
      obtain ⟨now, signal⟩ := event
      rw [List.foldl_append, List.foldl_cons, List.foldl_nil]
      cases signal with
      | feed => exact iff_of_true rfl alive_feed
      | refresh =>
          rw [alive_concat_iff w.last Signal.noConfusion, ← ih]
          simp [step]
      | check =>
          rw [alive_concat_iff w.last Signal.noConfusion, ← ih,
            ← foldl_last w signals, step_check]
          split
          next hlate =>
            refine iff_of_false (by simp) fun h => ?_
            exact absurd (h.2 rfl) (not_le.mpr hlate.2)
          next hin =>
            constructor
            · intro honline
              exact ⟨honline, fun _ => not_lt.mp fun h => hin ⟨honline, h⟩⟩
            · exact And.left

/-- Without a feed there is no way back from a check that came too late. -/
theorem not_alive_of_late (since : ℕ) {before after : List (ℕ × Signal)}
    (hlate : limit < now - lastSeen since before)
    (hafter : ∀ event ∈ after, event.2 ≠ .feed) :
    ¬ Alive limit (before ++ (now, .check) :: after) := by
  induction after using List.reverseRecOn with
  | nil =>
      rw [alive_concat_iff since Signal.noConfusion]
      exact fun h => absurd (h.2 rfl) (not_le.mpr hlate)
  | append_singleton after event ih =>
      obtain ⟨t, signal⟩ := event
      obtain ⟨hafter, hlast⟩ := List.forall_mem_append.mp hafter
      rw [← List.cons_append, ← List.append_assoc,
        alive_concat_iff since (hlast _ (List.mem_singleton.mpr rfl))]
      exact fun h => ih hafter h.1

end Watchdogs
