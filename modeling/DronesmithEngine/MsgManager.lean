import DronesmithEngine.LabelledRuns
import Mathlib.Tactic

/-!
# Watching a message stream

`fmulink/msgManager.go`.  The goroutine of `Sched` selects between the
ticker's channel, which holds one tick, and the calls of `Update`, which wait
until it takes their time.  Go chooses between two that are ready.
-/

namespace DronesmithEngine

open LabelledRuns

/-! ## Nanoseconds and milliseconds -/

/-- A reading of the clock, in nanoseconds since the epoch. -/
structure ClockTime where
  UnixNano : Int64
  nonneg : 0 ≤ UnixNano.toInt
  deriving DecidableEq

instance : LE ClockTime where
  le a b := a.UnixNano.toInt ≤ b.UnixNano.toInt

instance (a b : ClockTime) : Decidable (a ≤ b) :=
  inferInstanceAs (Decidable (_ ≤ (_ : ℤ)))

/-- A period that `NewTicker` accepts. -/
structure Interval where
  Duration : Int64
  pos : 0 < Duration.toInt

/-- The nanoseconds from `prev` to `curr`. -/
def ClockTime.since (curr prev : ClockTime) : ℤ :=
  curr.UnixNano.toInt - prev.UnixNano.toInt

theorem toNat_toUInt64_eq (x : Int64) :
    (x.toUInt64.toNat : ℤ) = x.toInt % 2 ^ 64 := by
  have hlt := x.toUInt64.toNat_lt
  have hcond := BitVec.toInt_eq_toNat_cond x.toBitVec
  rw [Int64.toInt_toBitVec, Int64.toNat_toBitVec] at hcond
  split at hcond <;> omega

theorem ClockTime.toInt_sub (curr prev : ClockTime) :
    (curr.UnixNano - prev.UnixNano).toInt = curr.since prev := by
  have hcurr := curr.nonneg
  have hprev := prev.nonneg
  have hcurrLt := curr.UnixNano.toInt_lt
  have hprevLt := prev.UnixNano.toInt_lt
  rw [Int64.toInt_sub, ClockTime.since, Int.bmod_eq_of_le] <;> omega

theorem toInt_div_million (x : Int64) :
    (x / 1000000).toInt = x.toInt.tdiv 1000000 := by
  rw [Int64.toInt_div_of_ne_right _ _ (by decide)]
  rfl

def getDt (curr prev : ClockTime) : UInt64 :=
  ((curr.UnixNano - prev.UnixNano) / 1000000).toUInt64

theorem getDt_eq (curr prev : ClockTime) :
    ((getDt curr prev).toNat : ℤ) =
      (curr.since prev).tdiv 1000000 % 2 ^ 64 := by
  rw [getDt, toNat_toUInt64_eq, toInt_div_million, curr.toInt_sub]

/-- A tick may be up to a millisecond earlier: the difference is then rounded
to zero. -/
theorem getDt_of_since {curr prev : ClockTime}
    (hsince : -1000000 < curr.since prev) :
    (getDt curr prev).toNat = (curr.since prev).toNat / 1000000 := by
  have hcurr := curr.UnixNano.toInt_lt
  have hprev := prev.nonneg
  have heq := getDt_eq curr prev
  by_cases hneg : curr.since prev < 0
  · have hzero : (curr.since prev).tdiv 1000000 = 0 := by
      rw [← neg_neg (curr.since prev), Int.neg_tdiv,
        Int.tdiv_eq_zero_of_lt (by omega) (by omega), neg_zero]
    rw [hzero] at heq
    omega
  · rw [Int.tdiv_eq_ediv_of_nonneg (by omega)] at heq
    unfold ClockTime.since at *
    omega

/-- An earlier tick makes the difference wrap. -/
theorem getDt_wraps {curr prev : ClockTime}
    (hsince : curr.since prev ≤ -1000000) :
    2 ^ 63 < (getDt curr prev).toNat := by
  have hcurr := curr.nonneg
  have hprev := prev.UnixNano.toInt_lt
  have heq := getDt_eq curr prev
  rw [← neg_neg (curr.since prev), Int.neg_tdiv,
    Int.tdiv_eq_ediv_of_nonneg (by omega)] at heq
  unfold ClockTime.since at *
  omega

namespace Interval

def milliseconds (interval : Interval) : UInt64 :=
  (interval.Duration / 1000000).toUInt64

theorem toNat_milliseconds (interval : Interval) :
    interval.milliseconds.toNat =
      interval.Duration.toInt.toNat / 1000000 := by
  have hpos := interval.pos
  have hlt := interval.Duration.toInt_lt
  have heq := toNat_toUInt64_eq (interval.Duration / 1000000)
  rw [toInt_div_million, Int.tdiv_eq_ediv_of_nonneg hpos.le] at heq
  unfold milliseconds
  omega

end Interval

/-- The test of a tick. -/
def Overdue (interval : Interval) (curr prev : ClockTime) : Prop :=
  interval.milliseconds < getDt curr prev

instance (interval : Interval) (curr prev : ClockTime) :
    Decidable (Overdue interval curr prev) :=
  inferInstanceAs (Decidable (_ < _))

theorem Overdue.interval_lt_since {interval : Interval}
    {curr prev : ClockTime} (hsince : -1000000 < curr.since prev)
    (hoverdue : Overdue interval curr prev) :
    interval.Duration.toInt < curr.since prev := by
  rw [Overdue, UInt64.lt_iff_toNat_lt, interval.toNat_milliseconds,
    getDt_of_since hsince] at hoverdue
  have hpos := interval.pos
  omega

theorem overdue_of_wraps {interval : Interval} {curr prev : ClockTime}
    (hsince : curr.since prev ≤ -1000000) :
    Overdue interval curr prev := by
  have hwraps := getDt_wraps hsince
  have hlt := interval.Duration.toInt_lt
  rw [Overdue, UInt64.lt_iff_toNat_lt, interval.toNat_milliseconds]
  omega

/-! ## Runs -/

structure MsgManager where
  interval : Interval
  /-- The channel of the timer. -/
  C : Option ClockTime
  /-- The times that calls of `Update` wait to send. -/
  stamps : List ClockTime
  lastPrev : ClockTime
  quit : Bool
  now : ClockTime
  /-- The ticks that called `OnDown`, each with the stamp it was compared
  with. -/
  downs : List (ClockTime × ClockTime)

inductive MsgEvent
  | clock (t : ClockTime)
  | tick
  | update
  | consumeTick
  | consumeStamp (k : ℕ)
  | stop

namespace MsgManager

/-- `NewMsgManager`, which calls `Sched`. -/
def NewMsgManager (interval : Interval) (now : ClockTime) : MsgManager where
  interval := interval
  C := none
  stamps := []
  lastPrev := now
  quit := false
  now := now
  downs := []

def consumeTick (s : MsgManager) (c : ClockTime) : MsgManager :=
  let s := { s with C := none }
  if Overdue s.interval c s.lastPrev then
    { s with downs := s.downs ++ [(c, s.lastPrev)] }
  else s

/-- The ticker drops a tick that its channel has no room for. -/
def step (s : MsgManager) : MsgEvent → Option MsgManager
  | .clock t => if s.now ≤ t then some { s with now := t } else none
  | .tick => some { s with C := some (s.C.getD s.now) }
  | .update => some { s with stamps := s.stamps ++ [s.now] }
  | .consumeTick =>
      if s.quit then none else s.C.map s.consumeTick
  | .consumeStamp k =>
      if s.quit then none
      else
        s.stamps[k]?.map fun prev =>
          { s with lastPrev := prev, stamps := s.stamps.eraseIdx k }
  | .stop => if s.quit then none else some { s with quit := true }

/-- `OnDown` is called only for a tick that is later than the last stamp by
more than the interval, and the elapsed time is the time that has elapsed. -/
def Justified (s : MsgManager) : MsgEvent → MsgManager → Prop
  | .consumeTick, next =>
      ∀ c ∈ s.C,
        (next.downs ≠ s.downs →
          s.interval.Duration.toInt < c.since s.lastPrev) ∧
        (getDt c s.lastPrev).toNat = (c.since s.lastPrev).toNat / 1000000
  | _, next => next.downs = s.downs

/-- The tick that is consumed is not a millisecond or more before the last
stamp. -/
def NotOvertaken (s : MsgManager) : MsgEvent → Prop
  | .consumeTick => ∀ c ∈ s.C, -1000000 < c.since s.lastPrev
  | _ => True

instance (s : MsgManager) : ∀ event, Decidable (s.NotOvertaken event)
  | .consumeTick =>
      match h : s.C with
      | none => .isTrue fun c hc => by simp [h] at hc
      | some c =>
          decidable_of_iff (-1000000 < c.since s.lastPrev)
            ⟨fun hlt c' hc' => by simp_all, fun hall => hall c h⟩
  | .clock _ => .isTrue trivial
  | .tick => .isTrue trivial
  | .update => .isTrue trivial
  | .consumeStamp _ => .isTrue trivial
  | .stop => .isTrue trivial

theorem consumeTick_justified_iff (s : MsgManager) {c : ClockTime}
    (hc : s.C = some c) :
    s.Justified .consumeTick (s.consumeTick c) ↔
      s.NotOvertaken .consumeTick := by
  simp only [Justified, NotOvertaken, hc, Option.mem_some_iff,
    forall_eq']
  constructor
  · rintro ⟨hdown, -⟩
    by_contra hovertaken
    have hsince := not_lt.mp hovertaken
    have hcalled : (s.consumeTick c).downs ≠ s.downs := by
      unfold consumeTick
      rw [if_pos (overdue_of_wraps hsince)]
      simp
    have hpos := s.interval.pos
    have hlater := hdown hcalled
    omega
  · intro hsince
    refine ⟨fun hcalled => ?_, getDt_of_since hsince⟩
    by_cases hoverdue : Overdue s.interval c s.lastPrev
    · exact hoverdue.interval_lt_since hsince
    · refine absurd ?_ hcalled
      unfold consumeTick
      rw [if_neg hoverdue]

/-- Only a consumed tick can call `OnDown`. -/
theorem step_cases {s next : MsgManager} {event : MsgEvent}
    (hstep : s.step event = some next) :
    (∃ c, event = .consumeTick ∧ s.C = some c ∧ next = s.consumeTick c) ∨
      (event ≠ .consumeTick ∧ next.downs = s.downs ∧
        next.interval = s.interval) := by
  cases event with
  | consumeTick =>
      simp only [step] at hstep
      split at hstep
      · cases hstep
      · obtain ⟨c, hc, rfl⟩ := Option.map_eq_some_iff.mp hstep
        exact Or.inl ⟨c, rfl, hc, rfl⟩
  | clock t =>
      simp only [step] at hstep
      split at hstep
      · cases hstep; exact Or.inr ⟨nofun, rfl, rfl⟩
      · cases hstep
  | tick => cases hstep; exact Or.inr ⟨nofun, rfl, rfl⟩
  | update => cases hstep; exact Or.inr ⟨nofun, rfl, rfl⟩
  | consumeStamp k =>
      simp only [step] at hstep
      split at hstep
      · cases hstep
      · obtain ⟨prev, -, rfl⟩ := Option.map_eq_some_iff.mp hstep
        exact Or.inr ⟨nofun, rfl, rfl⟩
  | stop =>
      simp only [step] at hstep
      split at hstep
      · cases hstep
      · cases hstep; exact Or.inr ⟨nofun, rfl, rfl⟩

theorem justified_iff {s next : MsgManager} {event : MsgEvent}
    (hstep : s.step event = some next) :
    s.Justified event next ↔ s.NotOvertaken event := by
  rcases step_cases hstep with ⟨c, rfl, hc, rfl⟩ | ⟨hne, hdowns, -⟩
  · exact s.consumeTick_justified_iff hc
  · cases event with
    | consumeTick => exact absurd rfl hne
    | _ => exact iff_of_true hdowns trivial

/-- Every call of `OnDown` so far was for a tick that is later than its stamp
by more than the interval. -/
def DownsJustified (s : MsgManager) : Prop :=
  ∀ call ∈ s.downs, s.interval.Duration.toInt < call.1.since call.2

theorem DownsJustified.consumeTick {s : MsgManager} (hs : s.DownsJustified)
    {c : ClockTime} (hsince : -1000000 < c.since s.lastPrev) :
    (s.consumeTick c).DownsJustified := by
  simp only [MsgManager.consumeTick]
  split
  next hoverdue =>
    intro call hcall
    rcases List.mem_append.mp hcall with hold | hnew
    · exact hs call hold
    · rw [List.mem_singleton.mp hnew]
      exact hoverdue.interval_lt_since hsince
  next => exact hs

theorem DownsJustified.step {s next : MsgManager} {event : MsgEvent}
    (hs : s.DownsJustified) (hguard : s.NotOvertaken event)
    (hstep : s.step event = some next) : next.DownsJustified := by
  rcases step_cases hstep with ⟨c, rfl, hc, rfl⟩ | ⟨-, hdowns, hinterval⟩
  · exact hs.consumeTick (hguard c hc)
  · rw [DownsJustified, hdowns, hinterval]
    exact hs

theorem onDown_justified_iff (interval : Interval) (start : ClockTime)
    {events : List MsgEvent} {s : MsgManager}
    (hrun : Run step (NewMsgManager interval start) events s) :
    (GuardedRun step NotOvertaken (NewMsgManager interval start) events s ↔
      EveryStep step Justified (NewMsgManager interval start) events) ∧
    (GuardedRun step NotOvertaken (NewMsgManager interval start) events s →
      s.DownsJustified) := by
  constructor
  · exact @GuardedRun.iff_everyStep _ _ step NotOvertaken Justified
      (fun _ => True) (fun _ _ _ _ _ _ => trivial)
      (fun _ _ _ _ hstep => justified_iff hstep) _ _ _ trivial hrun
  · intro hguarded
    exact hguarded.invariant (fun _ _ _ hs hguard hstep => hs.step hguard hstep)
      (by intro call hcall; cases hcall)

def secondInterval : Interval := ⟨1000000000, by decide⟩

/-- A stream that stops: the tick one and a half seconds after the last
message calls `OnDown`. -/
theorem onDown_justified_iff_silent :
    ∃ s, Run step (NewMsgManager secondInterval ⟨0, by decide⟩)
        [.clock ⟨500000000, by decide⟩, .update, .consumeStamp 0,
          .clock ⟨2000000000, by decide⟩, .tick, .consumeTick] s ∧
      s.downs.length = 1 ∧ s.DownsJustified := by
  have hexec : (exec step NotOvertaken
      (NewMsgManager secondInterval ⟨0, by decide⟩)
      [.clock ⟨500000000, by decide⟩, .update, .consumeStamp 0,
        .clock ⟨2000000000, by decide⟩, .tick, .consumeTick]).map
          (fun s => s.downs.length) = some 1 := by
    decide
  obtain ⟨s, hrun, hlength⟩ := GuardedRun.of_exec_map hexec
  exact ⟨s, hrun.run, hlength, (onDown_justified_iff _ _ hrun.run).2 hrun⟩

/-- A message comes two milliseconds after a tick that is still queued.  The
stamp is consumed first, and the live stream is reported down. -/
theorem overtaken_tick_reports_down :
    ¬ ∀ events s,
      Run step (NewMsgManager secondInterval ⟨0, by decide⟩) events s →
        s.DownsJustified := by
  intro hall
  let events : List MsgEvent :=
    [.clock ⟨1000000000, by decide⟩, .tick, .clock ⟨1002000000, by decide⟩,
      .update, .consumeStamp 0, .consumeTick]
  have hexec : (exec step (fun _ _ => True)
      (NewMsgManager secondInterval ⟨0, by decide⟩) events).map (fun s =>
        (s.interval.Duration.toInt, s.downs)) =
          some (1000000000,
            [(⟨1000000000, by decide⟩, ⟨1002000000, by decide⟩)]) := by
    decide
  obtain ⟨s, hrun, heq⟩ := GuardedRun.of_exec_map hexec
  simp only [Prod.mk.injEq] at heq
  obtain ⟨hinterval, hdowns⟩ := heq
  have hjustified := hall events s hrun
    (⟨1000000000, by decide⟩, ⟨1002000000, by decide⟩)
    (by rw [hdowns]; exact List.mem_singleton_self _)
  rw [hinterval] at hjustified
  exact absurd hjustified (by decide)

end MsgManager

end DronesmithEngine
