import Mathlib.Data.List.Nodup
import Mathlib.Tactic.Common

/-!
# Rounds of a broadcast

A broadcaster goes round by round: it takes a message, and visits the
subscribers of that moment one after the other.  A visit delivers the message
or skips the subscriber.  Whatever else its program does, every subscriber is
visited once in each of its rounds, in the order of the rounds.
-/

namespace BroadcastRounds

variable {μ κ : Type*}

structure Round (μ κ : Type*) where
  message : μ
  subscribers : List κ

structure Visit (μ κ : Type*) where
  subscriber : κ
  message : μ
  delivered : Bool

/-- The rounds begun, the one that is under way with the subscribers that are
left of it, and the visits made. -/
@[ext] structure Broadcaster (μ κ : Type*) where
  rounds : List (Round μ κ)
  underway : Option (Round μ κ)
  visits : List (Visit μ κ)

namespace Broadcaster

def new : Broadcaster μ κ := ⟨[], none, []⟩

def start (b : Broadcaster μ κ) (r : Round μ κ) : Broadcaster μ κ :=
  { b with rounds := b.rounds ++ [r], underway := some r }

/-- The visit of the next subscriber of a round under way. -/
def visit (b : Broadcaster μ κ) (m : μ) (k : κ) (left : List κ)
    (delivered : Bool) : Broadcaster μ κ :=
  { b with
    underway := some ⟨m, left⟩
    visits := b.visits ++ [⟨k, m, delivered⟩] }

def finish (b : Broadcaster μ κ) : Broadcaster μ κ :=
  { b with underway := none }

variable [DecidableEq κ]

def visitsOf (b : Broadcaster μ κ) (k : κ) : List (Visit μ κ) :=
  b.visits.filter fun v => v.subscriber = k

/-- The messages of the rounds that a subscriber is part of. -/
def messagesFor (b : Broadcaster μ κ) (k : κ) : List μ :=
  (b.rounds.filter fun r => k ∈ r.subscribers).map Round.message

/-- The message that a subscriber is still to be visited for. -/
def pendingFor (b : Broadcaster μ κ) (k : κ) : List μ :=
  ((b.underway.filter fun r => k ∈ r.subscribers).map Round.message).toList

def deliveredTo (b : Broadcaster μ κ) (k : κ) : List μ :=
  ((b.visitsOf k).filter Visit.delivered).map Visit.message

structure Accounted (b : Broadcaster μ κ) : Prop where
  nodup : ∀ r ∈ b.underway, r.subscribers.Nodup
  each : ∀ k, (b.visitsOf k).map Visit.message ++ b.pendingFor k =
    b.messagesFor k

variable {b : Broadcaster μ κ} {m : μ} {k : κ} {left : List κ}

theorem accounted_new : (new : Broadcaster μ κ).Accounted where
  nodup _ hr := by cases hr
  each _ := rfl

theorem Accounted.start (hb : b.Accounted) (hnone : b.underway = none)
    {r : Round μ κ} (hnodup : r.subscribers.Nodup) :
    (b.start r).Accounted where
  nodup r' hr' := by
    cases hr'
    exact hnodup
  each k := by
    have heach := hb.each k
    simp only [pendingFor, hnone, Option.filter_none, Option.map_none,
      Option.toList_none, List.append_nil] at heach
    simp only [visitsOf, messagesFor, pendingFor, Broadcaster.start,
      List.filter_append, List.map_append] at heach ⊢
    rw [heach, List.filter_singleton]
    by_cases hmem : k ∈ r.subscribers
    · simp [Option.filter, hmem]
    · simp [Option.filter, hmem]

theorem Accounted.visit (hb : b.Accounted)
    (hunderway : b.underway = some ⟨m, k :: left⟩) (delivered : Bool) :
    (b.visit m k left delivered).Accounted where
  nodup r hr := by
    cases hr
    exact (List.nodup_cons.mp (hb.nodup _ hunderway)).2
  each other := by
    have heach := hb.each other
    have hnot : k ∉ left := (List.nodup_cons.mp (hb.nodup _ hunderway)).1
    simp only [visitsOf, messagesFor, pendingFor, Broadcaster.visit,
      hunderway, List.filter_append, List.map_append] at heach ⊢
    rw [← heach, List.filter_singleton]
    by_cases hother : other = k
    · subst hother
      simp [Option.filter, hnot]
    · simp [Option.filter, hother, Ne.symm hother]

theorem Accounted.finish (hb : b.Accounted)
    (hunderway : b.underway = some ⟨m, []⟩) : b.finish.Accounted where
  nodup _ hr := by cases hr
  each k := by
    have heach := hb.each k
    simp only [pendingFor, hunderway] at heach
    simpa [Option.filter, Broadcaster.finish, visitsOf, messagesFor,
      pendingFor] using heach

theorem deliveredTo_visit (b : Broadcaster μ κ) (m : μ) (k : κ)
    (left : List κ) (delivered : Bool) (other : κ) :
    (b.visit m k left delivered).deliveredTo other =
      b.deliveredTo other ++ if other = k ∧ delivered then [m] else [] := by
  simp only [deliveredTo, visitsOf, Broadcaster.visit, List.filter_append,
    List.map_append, List.filter_singleton]
  by_cases hother : other = k
  · subst hother
    cases delivered <;> simp
  · simp [hother, Ne.symm hother]

/-- What is delivered is a part of the rounds, in their order. -/
theorem Accounted.delivered_sublist (hb : b.Accounted) (k : κ) :
    (b.deliveredTo k ++ b.pendingFor k).Sublist (b.messagesFor k) := by
  rw [← hb.each k]
  exact (List.filter_sublist.map _).append_right _

/-- A subscriber that is never skipped is delivered all of its rounds. -/
theorem Accounted.delivered_all (hb : b.Accounted)
    (hall : ∀ v ∈ b.visitsOf k, v.delivered) :
    b.deliveredTo k ++ b.pendingFor k = b.messagesFor k := by
  rw [← hb.each k, deliveredTo, List.filter_eq_self.mpr hall]

end Broadcaster

end BroadcastRounds
