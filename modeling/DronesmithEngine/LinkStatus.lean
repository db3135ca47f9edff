import DronesmithEngine.FmuStatus
import Mathlib.Tactic

/-!
# Whether a kind of message still arrives

The statuses of the page over every interleaving of the decode loop with the
goroutines of the managers.  What concerns one status is a `Watch`: the status
and its manager.  Each step of the whole is a step of some of the watches and
leaves the others alone, so what holds of every watch is proved for one.
-/

namespace DronesmithEngine

open LabelledRuns

theorem ClockTime.le_iff {a b : ClockTime} :
    a ≤ b ↔ a.UnixNano.toInt ≤ b.UnixNano.toInt := Iff.rfl

/-- A tick that is not overdue is not a millisecond more than the interval
after the stamp, however the difference is rounded. -/
theorem since_lt_of_not_overdue {interval : Interval} {curr prev : ClockTime}
    (hin : ¬ Overdue interval curr prev) :
    curr.since prev < interval.Duration.toInt + 1000000 := by
  have hpos := interval.pos
  by_cases hsince : curr.since prev ≤ -1000000
  · exact absurd (overdue_of_wraps hsince) hin
  · rw [Overdue, UInt64.lt_iff_toNat_lt, interval.toNat_milliseconds,
      getDt_of_since (by omega)] at hin
    omega

namespace Fmulink

open Mavlink

theorem good_ne_down : FMUSTATUS_GOOD ≠ FMUSTATUS_DOWN := by decide

/-! ## One status -/

structure Watch where
  status : String
  manager : MsgManager
  /-- The time of the last tick that the manager took. -/
  checked : ClockTime

inductive WatchEvent
  | clock (t : ClockTime)
  | tick
  | heard
  | takeStamp
  | takeTick

namespace Watch

/-- `OnDown` is called when the manager finds a tick overdue. -/
def takeTick (w : Watch) (c : ClockTime) (m : MsgManager) : Watch where
  status := if m.downs = w.manager.downs then w.status else FMUSTATUS_DOWN
  manager := m
  checked := c

def step (w : Watch) : WatchEvent → Option Watch
  | .clock t =>
      (w.manager.step (.clock t)).map fun m => { w with manager := m }
  | .tick => (w.manager.step .tick).map fun m => { w with manager := m }
  | .heard =>
      if w.manager.stamps = [] then
        (w.manager.step .update).map fun m =>
          { w with status := FMUSTATUS_GOOD, manager := m }
      else none
  | .takeStamp =>
      (w.manager.step (.consumeStamp 0)).map fun m =>
        { w with manager := m }
  | .takeTick =>
      w.manager.C.bind fun c =>
        (w.manager.step .consumeTick).map fun m => w.takeTick c m

/-- When the last message was handled, or the manager was made: a stamp that
waits is later than the one the manager took. -/
def heard (w : Watch) : ClockTime :=
  w.manager.stamps.head?.getD w.manager.lastPrev

structure Sound (w : Watch) : Prop where
  stamps : w.manager.stamps.length ≤ 1
  last_le : w.manager.lastPrev ≤ w.heard
  heard_le : w.heard ≤ w.manager.now
  checked_le : w.checked ≤ w.manager.now
  ticks : ∀ c ∈ w.manager.C, w.checked ≤ c ∧ c ≤ w.manager.now

def atTime (w : Watch) (t : ClockTime) : Watch :=
  { w with manager := { w.manager with now := t } }

def ticked (w : Watch) : Watch :=
  { w with
    manager :=
      { w.manager with C := some (w.manager.C.getD w.manager.now) } }

def updated (w : Watch) : Watch :=
  { w with
    status := FMUSTATUS_GOOD
    manager := { w.manager with stamps := [w.manager.now] } }

def stamped (w : Watch) (prev : ClockTime) : Watch :=
  { w with
    manager :=
      { w.manager with
        lastPrev := prev
        stamps := w.manager.stamps.eraseIdx 0 } }

variable {w next : Watch} {event : WatchEvent}

theorem step_cases (hstep : w.step event = some next) :
    (∃ t, event = .clock t ∧ w.manager.now ≤ t ∧ next = w.atTime t) ∨
    (event = .tick ∧ next = w.ticked) ∨
    (event = .heard ∧ w.manager.stamps = [] ∧ next = w.updated) ∨
    (event = .takeStamp ∧ ∃ prev, w.manager.stamps.head? = some prev ∧
      next = w.stamped prev) ∨
    (event = .takeTick ∧ ∃ c, w.manager.C = some c ∧
      next = w.takeTick c (w.manager.consumeTick c)) := by
  cases event with
  | clock t =>
      simp only [step, MsgManager.step] at hstep
      split at hstep
      next hle =>
        cases hstep
        exact Or.inl ⟨t, rfl, hle, rfl⟩
      next => cases hstep
  | tick =>
      cases hstep
      exact Or.inr (Or.inl ⟨rfl, rfl⟩)
  | heard =>
      simp only [step, MsgManager.step] at hstep
      split at hstep
      next hnone =>
        cases hstep
        refine Or.inr (Or.inr (Or.inl ⟨rfl, hnone, ?_⟩))
        rw [updated, hnone]
        rfl
      next => cases hstep
  | takeStamp =>
      simp only [step, MsgManager.step, Option.map_eq_some_iff] at hstep
      obtain ⟨m, hm, rfl⟩ := hstep
      split at hm
      · cases hm
      · obtain ⟨prev, hprev, rfl⟩ := Option.map_eq_some_iff.mp hm
        rw [← List.head?_eq_getElem?] at hprev
        exact Or.inr (Or.inr (Or.inr (Or.inl ⟨rfl, prev, hprev, rfl⟩)))
  | takeTick =>
      simp only [step, MsgManager.step, Option.bind_eq_some_iff,
        Option.map_eq_some_iff] at hstep
      obtain ⟨c, hc, m, hm, rfl⟩ := hstep
      split at hm
      · cases hm
      · obtain ⟨c', hc', rfl⟩ := Option.map_eq_some_iff.mp hm
        obtain rfl : c = c' := Option.some.inj (hc.symm.trans hc')
        exact Or.inr (Or.inr (Or.inr (Or.inr ⟨rfl, c, hc, rfl⟩)))

/-- Taking a tick keeps everything but the tick and the calls of `OnDown`. -/
theorem consumeTick_keeps (m : MsgManager) (c : ClockTime) :
    (m.consumeTick c).stamps = m.stamps ∧
      (m.consumeTick c).lastPrev = m.lastPrev ∧
      (m.consumeTick c).now = m.now ∧
      (m.consumeTick c).interval = m.interval ∧
      (m.consumeTick c).C = none := by
  simp only [MsgManager.consumeTick]
  split <;> exact ⟨rfl, rfl, rfl, rfl, rfl⟩

/-- The status after a tick. -/
theorem takeTick_status (w : Watch) (c : ClockTime) :
    (w.takeTick c (w.manager.consumeTick c)).status =
      if Overdue w.manager.interval c w.manager.lastPrev then FMUSTATUS_DOWN
      else w.status := by
  unfold takeTick MsgManager.consumeTick
  by_cases hoverdue : Overdue w.manager.interval c w.manager.lastPrev
  · simp [hoverdue]
  · simp [hoverdue]

theorem heard_takeTick (w : Watch) (c : ClockTime) :
    (w.takeTick c (w.manager.consumeTick c)).heard = w.heard := by
  obtain ⟨hstamps, hlast, -⟩ := consumeTick_keeps w.manager c
  simp only [heard, takeTick, hstamps, hlast]

/-- Taking a stamp leaves the time of the last message. -/
theorem heard_stamped (hw : w.Sound) {prev : ClockTime}
    (hprev : w.manager.stamps.head? = some prev) :
    w.heard = prev ∧ (w.stamped prev).heard = prev ∧
      (w.stamped prev).manager.stamps = [] := by
  have hlength := hw.stamps
  cases hstamps : w.manager.stamps with
  | nil =>
      rw [hstamps] at hprev
      cases hprev
  | cons first rest =>
      rw [hstamps] at hprev hlength
      obtain rfl : first = prev := Option.some.inj hprev
      have hrest : rest = [] := by
        rw [List.length_cons] at hlength
        exact List.eq_nil_of_length_eq_zero (by omega)
      simp [heard, stamped, hstamps, hrest]

theorem Sound.step (hw : w.Sound) (hstep : w.step event = some next) :
    next.Sound := by
  have hheard := ClockTime.le_iff.mp hw.heard_le
  have hlast := ClockTime.le_iff.mp hw.last_le
  rcases step_cases hstep with ⟨t, -, hle, rfl⟩ | ⟨-, rfl⟩ |
    ⟨-, hnone, rfl⟩ | ⟨-, prev, hprev, rfl⟩ | ⟨-, c, hc, rfl⟩
  · have hnow := ClockTime.le_iff.mp hle
    exact
      { stamps := hw.stamps
        last_le := hw.last_le
        heard_le := ClockTime.le_iff.mpr (hheard.trans hnow)
        checked_le :=
          ClockTime.le_iff.mpr ((ClockTime.le_iff.mp hw.checked_le).trans hnow)
        ticks := fun c hc =>
          ⟨(hw.ticks c hc).1, ClockTime.le_iff.mpr
            ((ClockTime.le_iff.mp (hw.ticks c hc).2).trans hnow)⟩ }
  · refine ⟨hw.stamps, hw.last_le, hw.heard_le, hw.checked_le, ?_⟩
    intro c hc
    obtain rfl : w.manager.C.getD w.manager.now = c := Option.some.inj hc
    cases htick : w.manager.C with
    | none => exact ⟨hw.checked_le, ClockTime.le_iff.mpr le_rfl⟩
    | some c => exact hw.ticks c htick
  · exact
      { stamps := le_rfl
        last_le := ClockTime.le_iff.mpr (hlast.trans hheard)
        heard_le := ClockTime.le_iff.mpr le_rfl
        checked_le := hw.checked_le
        ticks := hw.ticks }
  · obtain ⟨hsame, hafter, hempty⟩ := heard_stamped hw hprev
    rw [hsame] at hheard
    exact
      { stamps := by rw [hempty]; exact Nat.zero_le 1
        last_le := by rw [hafter]; exact ClockTime.le_iff.mpr le_rfl
        heard_le := by rw [hafter]; exact ClockTime.le_iff.mpr hheard
        checked_le := hw.checked_le
        ticks := hw.ticks }
  · obtain ⟨hstamps, hprev, hnow, -, hempty⟩ := consumeTick_keeps w.manager c
    have hsame := heard_takeTick w c
    constructor
    · exact hstamps ▸ hw.stamps
    · rw [hsame]
      exact hprev ▸ hw.last_le
    · rw [hsame]
      exact hnow ▸ hw.heard_le
    · exact hnow ▸ (hw.ticks c hc).2
    · intro c' hc'
      rw [takeTick, hempty] at hc'
      cases hc'

/-- Only a message that is handled changes the time of the last one. -/
theorem heard_step (hw : w.Sound) (hstep : w.step event = some next) :
    next.heard = match event with
      | .heard => w.manager.now
      | _ => w.heard := by
  rcases step_cases hstep with ⟨t, rfl, -, rfl⟩ | ⟨rfl, rfl⟩ |
    ⟨rfl, -, rfl⟩ | ⟨rfl, prev, hprev, rfl⟩ | ⟨rfl, c, -, rfl⟩
  · rfl
  · rfl
  · rfl
  · obtain ⟨hsame, hafter, -⟩ := heard_stamped hw hprev
    exact hafter.trans hsame.symm
  · exact heard_takeTick w c

theorem manager_step (hstep : w.step event = some next) :
    next.manager.interval = w.manager.interval ∧
      next.manager.now = match event with
        | .clock t => t
        | _ => w.manager.now := by
  rcases step_cases hstep with ⟨t, rfl, -, rfl⟩ | ⟨rfl, rfl⟩ |
    ⟨rfl, -, rfl⟩ | ⟨rfl, prev, -, rfl⟩ | ⟨rfl, c, -, rfl⟩
  · exact ⟨rfl, rfl⟩
  · exact ⟨rfl, rfl⟩
  · exact ⟨rfl, rfl⟩
  · exact ⟨rfl, rfl⟩
  · obtain ⟨-, -, hnow, hinterval, -⟩ := consumeTick_keeps w.manager c
    exact ⟨hinterval, hnow⟩

/-- A message waits to be stamped from when it is handled. -/
theorem stamps_step (hw : w.Sound) (hstep : w.step event = some next) :
    next.manager.stamps ≠ [] ↔ match event with
      | .heard => True
      | .takeStamp => False
      | _ => w.manager.stamps ≠ [] := by
  rcases step_cases hstep with ⟨t, rfl, -, rfl⟩ | ⟨rfl, rfl⟩ |
    ⟨rfl, -, rfl⟩ | ⟨rfl, prev, hprev, rfl⟩ | ⟨rfl, c, -, rfl⟩
  · exact Iff.rfl
  · exact Iff.rfl
  · exact iff_of_true (List.cons_ne_nil _ _) trivial
  · obtain ⟨-, -, hempty⟩ := heard_stamped hw hprev
    exact iff_of_false (fun h => h hempty) id
  · obtain ⟨hstamps, -⟩ := consumeTick_keeps w.manager c
    exact iff_of_eq (congrArg (· ≠ []) hstamps)

/-! ## Offline means silent -/

/-- A tick is taken while no message waits to be stamped, and not after a
stamp that is a millisecond later. -/
def TakesInTurn (w : Watch) : WatchEvent → Prop
  | .takeTick => w.manager.stamps = [] ∧ w.manager.NotOvertaken .consumeTick
  | _ => True

/-- A status that is down has been silent for longer than its interval. -/
def Truthful (w : Watch) : Prop :=
  w.status = FMUSTATUS_DOWN →
    w.manager.interval.Duration.toInt < w.manager.now.since w.heard

theorem Truthful.step (hsound : w.Sound) (hw : w.Truthful)
    (hguard : w.TakesInTurn event) (hstep : w.step event = some next) :
    next.Truthful := by
  rcases step_cases hstep with ⟨t, -, hle, rfl⟩ | ⟨-, rfl⟩ |
    ⟨-, -, rfl⟩ | ⟨-, prev, hprev, rfl⟩ | ⟨rfl, c, hc, rfl⟩
  · intro hdown
    have hbefore := hw hdown
    have hnow := ClockTime.le_iff.mp hle
    change w.manager.interval.Duration.toInt < t.since w.heard
    unfold ClockTime.since at *
    omega
  · exact hw
  · intro hdown
    exact absurd hdown good_ne_down
  · obtain ⟨hsame, hafter, -⟩ := heard_stamped hsound hprev
    rw [Truthful, hafter, ← hsame]
    exact hw
  · obtain ⟨hnone, hturn⟩ := hguard
    obtain ⟨-, -, hnow, hinterval, -⟩ := consumeTick_keeps w.manager c
    intro hdown
    rw [heard_takeTick]
    rw [takeTick_status] at hdown
    change (w.manager.consumeTick c).interval.Duration.toInt <
      (w.manager.consumeTick c).now.since w.heard
    rw [hnow, hinterval]
    split at hdown
    next hoverdue =>
      have hlate := hoverdue.interval_lt_since (hturn c hc)
      have htick := ClockTime.le_iff.mp (hsound.ticks c hc).2
      have hheard : w.heard = w.manager.lastPrev := by
        simp only [heard, hnone]
        rfl
      rw [hheard]
      unfold ClockTime.since at *
      omega
    next => exact hw hdown

/-! ## Silence is noticed -/

/-- The clock does not run on for longer than `period` after the last tick
that the manager took. -/
def ChecksWithin (period : ℤ) (w : Watch) : WatchEvent → Prop
  | .clock t => t.since w.checked ≤ period
  | _ => True

structure Noticed (period : ℤ) (w : Watch) : Prop where
  checked : w.manager.now.since w.checked ≤ period
  online : w.status = FMUSTATUS_GOOD →
    w.checked.since w.heard < w.manager.interval.Duration.toInt + 1000000

theorem Noticed.step {period : ℤ} (hsound : w.Sound)
    (hw : w.Noticed period) (hguard : w.ChecksWithin period event)
    (hstep : w.step event = some next) : next.Noticed period := by
  rcases step_cases hstep with ⟨t, rfl, hle, rfl⟩ | ⟨-, rfl⟩ |
    ⟨-, -, rfl⟩ | ⟨-, prev, hprev, rfl⟩ | ⟨-, c, hc, rfl⟩
  · exact ⟨hguard, hw.online⟩
  · exact ⟨hw.checked, hw.online⟩
  · refine ⟨hw.checked, fun _ => ?_⟩
    have hchecked := ClockTime.le_iff.mp hsound.checked_le
    have hpos := w.manager.interval.pos
    change w.checked.since w.manager.now <
      w.manager.interval.Duration.toInt + 1000000
    unfold ClockTime.since
    omega
  · obtain ⟨hsame, hafter, -⟩ := heard_stamped hsound hprev
    refine ⟨hw.checked, ?_⟩
    rw [hafter, ← hsame]
    exact hw.online
  · obtain ⟨-, -, hnow, hinterval, -⟩ := consumeTick_keeps w.manager c
    obtain ⟨hafter, -⟩ := hsound.ticks c hc
    have hlater := ClockTime.le_iff.mp hafter
    constructor
    · change (w.manager.consumeTick c).now.since c ≤ period
      have hbefore := hw.checked
      rw [hnow]
      unfold ClockTime.since at *
      omega
    · intro hgood
      rw [heard_takeTick]
      rw [takeTick_status] at hgood
      change c.since w.heard <
        (w.manager.consumeTick c).interval.Duration.toInt + 1000000
      rw [hinterval]
      split at hgood
      next => exact absurd hgood good_ne_down.symm
      next hin =>
        have hlate := since_lt_of_not_overdue hin
        have hlast := ClockTime.le_iff.mp hsound.last_le
        unfold ClockTime.since at *
        omega

end Watch

/-! ## The page -/

structure StatusPage where
  now : ClockTime
  fmu : Fmu
  managers : StatusField → MsgManager
  /-- The manager that the decode loop is sending its time to. -/
  updating : Option StatusField
  /-- The time of the last tick that each manager took. -/
  checked : StatusField → ClockTime
  /-- When the loop last handled a message of each kind. -/
  heard : StatusField → ClockTime

inductive PageEvent
  | clock (t : ClockTime)
  | tick (field : StatusField)
  | packet (online : Bool) (pkt : Packet)
  | takeStamp
  | takeTick (field : StatusField)

namespace StatusPage

def initial (start : ClockTime) : StatusPage where
  now := start
  fmu := {}
  managers := fun field => MsgManager.NewMsgManager field.interval start
  updating := none
  checked := fun _ => start
  heard := fun _ => start

def setManager (s : StatusPage) (field : StatusField) (m : MsgManager) :
    StatusPage :=
  { s with managers := Function.update s.managers field m }

def advance (s : StatusPage) (t : ClockTime) : StatusPage :=
  { s with
    now := t
    managers := fun field => { s.managers field with now := t } }

/-- The loop goes on at once, or calls `Update`. -/
def handled (s : StatusPage) :
    Fmu × Option StatusField → Option StatusPage
  | (fmu, none) => some { s with fmu := fmu }
  | (fmu, some field) =>
      ((s.managers field).step .update).map fun m =>
        { s.setManager field m with
          fmu := fmu
          updating := some field
          heard := Function.update s.heard field s.now }

def onDown (s : StatusPage) (field : StatusField) : StatusPage :=
  { s with
    fmu :=
      { s.fmu with
        Meta := Function.update s.fmu.Meta field FMUSTATUS_DOWN } }

/-- Whether the manager called `OnDown` is read off the calls it made. -/
def takeTick (s : StatusPage) (field : StatusField) (c : ClockTime)
    (m : MsgManager) : StatusPage :=
  let taken :=
    { s.setManager field m with
      checked := Function.update s.checked field c }
  if m.downs = (s.managers field).downs then taken else taken.onDown field

def step (s : StatusPage) : PageEvent → Option StatusPage
  | .clock t => if s.now ≤ t then some (s.advance t) else none
  | .tick field => ((s.managers field).step .tick).map (s.setManager field)
  | .packet online pkt =>
      if s.updating = none then s.handled (s.fmu.receive online pkt)
      else none
  | .takeStamp =>
      s.updating.bind fun field =>
        ((s.managers field).step (.consumeStamp 0)).map fun m =>
          { s.setManager field m with updating := none }
  | .takeTick field =>
      (s.managers field).C.bind fun c =>
        ((s.managers field).step .consumeTick).map fun m =>
          s.takeTick field c m

def watch (s : StatusPage) (field : StatusField) : Watch where
  status := s.fmu.Meta field
  manager := s.managers field
  checked := s.checked field

/-- What an event is to one status. -/
def signal (s : StatusPage) (field : StatusField) :
    PageEvent → Option WatchEvent
  | .clock t => some (.clock t)
  | .tick other => if other = field then some .tick else none
  | .packet online pkt =>
      if (s.fmu.receive online pkt).2 = some field then some .heard
      else none
  | .takeStamp =>
      if s.updating = some field then some .takeStamp else none
  | .takeTick other => if other = field then some .takeTick else none

end StatusPage

/-- A packet sets the status of the kind whose manager is called, and no
other. -/
def SetsStatus (fmu : Fmu) (result : Fmu × Option StatusField) : Prop :=
  result.1.Meta =
    result.2.elim fmu.Meta fun field =>
      Function.update fmu.Meta field FMUSTATUS_GOOD

theorem unlessError_sets {α : Type} {fmu shown : Fmu}
    (hshown : shown.Meta = fmu.Meta) (unpacked : Option UnpackError × α)
    {store : α → Fmu} (hstore : ∀ pv, (store pv).Meta = fmu.Meta)
    (field : Option StatusField) :
    SetsStatus fmu (unlessError shown unpacked store field) := by
  obtain ⟨err, pv⟩ := unpacked
  cases err with
  | some err => exact hshown
  | none =>
      cases field with
      | none => exact hstore pv
      | some field =>
          exact congrArg
            (fun status => Function.update status field FMUSTATUS_GOOD)
            (hstore pv)

theorem receive_sets (fmu : Fmu) (online : Bool) (pkt : Packet) :
    SetsStatus fmu (fmu.receive online pkt) := by
  simp only [Fmu.receive]
  split
  all_goals
    first
    | rfl
    | exact unlessError_sets (by rfl) _ (by intro; rfl) _

namespace StatusPage

structure SoundAt (s : StatusPage) (field : StatusField) : Prop where
  now : (s.managers field).now = s.now
  interval : (s.managers field).interval = field.interval
  updating : s.updating = some field ↔ (s.managers field).stamps ≠ []
  heard : (s.watch field).heard = s.heard field
  watch : (s.watch field).Sound

def Sound (s : StatusPage) : Prop := ∀ field, s.SoundAt field

variable {s next : StatusPage} {event : PageEvent} {field : StatusField}

theorem initial_sound (start : ClockTime) : (initial start).Sound :=
  fun _ =>
    { now := rfl
      interval := rfl
      updating := iff_of_false (fun h => by cases h) fun h => h rfl
      heard := rfl
      watch :=
        { stamps := Nat.zero_le 1
          last_le := ClockTime.le_iff.mpr le_rfl
          heard_le := ClockTime.le_iff.mpr le_rfl
          checked_le := ClockTime.le_iff.mpr le_rfl
          ticks := fun c hc => by cases hc } }

theorem initial_status_ne (start : ClockTime) (field : StatusField)
    {status : String} (hne : "" ≠ status) :
    ((initial start).watch field).status ≠ status := hne

@[simp] theorem setManager_self (m : MsgManager) :
    (s.setManager field m).managers field = m := by
  simp [setManager]

@[simp] theorem setManager_checked (m : MsgManager) :
    (s.setManager field m).checked = s.checked := rfl

theorem setManager_of_ne {other : StatusField} (hne : field ≠ other)
    (m : MsgManager) :
    (s.setManager other m).managers field = s.managers field := by
  simp [setManager, hne]

theorem step_cases (hstep : s.step event = some next) :
    (∃ t, event = .clock t ∧ s.now ≤ t ∧ next = s.advance t) ∨
    (∃ field m, event = .tick field ∧
      (s.managers field).step .tick = some m ∧
      next = s.setManager field m) ∨
    (∃ online pkt, event = .packet online pkt ∧ s.updating = none ∧
      s.handled (s.fmu.receive online pkt) = some next) ∨
    (∃ field m, event = .takeStamp ∧ s.updating = some field ∧
      (s.managers field).step (.consumeStamp 0) = some m ∧
      next = { s.setManager field m with updating := none }) ∨
    (∃ field c m, event = .takeTick field ∧ (s.managers field).C = some c ∧
      (s.managers field).step .consumeTick = some m ∧
      next = s.takeTick field c m) := by
  cases event with
  | clock t =>
      simp only [step, Option.ite_none_right_eq_some, Option.some.injEq]
        at hstep
      exact Or.inl ⟨t, rfl, hstep.1, hstep.2.symm⟩
  | tick field =>
      simp only [step, Option.map_eq_some_iff] at hstep
      obtain ⟨m, hm, hnext⟩ := hstep
      exact Or.inr (Or.inl ⟨field, m, rfl, hm, hnext.symm⟩)
  | packet online pkt =>
      simp only [step, Option.ite_none_right_eq_some] at hstep
      exact Or.inr (Or.inr (Or.inl ⟨online, pkt, rfl, hstep⟩))
  | takeStamp =>
      simp only [step, Option.bind_eq_some_iff, Option.map_eq_some_iff]
        at hstep
      obtain ⟨field, hfield, m, hm, hnext⟩ := hstep
      exact Or.inr (Or.inr (Or.inr (Or.inl
        ⟨field, m, rfl, hfield, hm, hnext.symm⟩)))
  | takeTick field =>
      simp only [step, Option.bind_eq_some_iff, Option.map_eq_some_iff]
        at hstep
      obtain ⟨c, hc, m, hm, hnext⟩ := hstep
      exact Or.inr (Or.inr (Or.inr (Or.inr
        ⟨field, c, m, rfl, hc, hm, hnext.symm⟩)))

/-- A packet that is handled stamps the manager of its kind, or none. -/
theorem handled_cases {result : Fmu × Option StatusField}
    (hsets : SetsStatus s.fmu result) (hstep : s.handled result = some next) :
    (result.2 = none ∧ next = { s with fmu := result.1 } ∧
      result.1.Meta = s.fmu.Meta) ∨
    ∃ field, result.2 = some field ∧
      result.1.Meta = Function.update s.fmu.Meta field FMUSTATUS_GOOD ∧
      next =
        { s.setManager field
            { s.managers field with
              stamps := (s.managers field).stamps ++ [(s.managers field).now] }
          with
          fmu := result.1
          updating := some field
          heard := Function.update s.heard field s.now } := by
  obtain ⟨fmu, target⟩ := result
  cases target with
  | none =>
      cases hstep
      exact Or.inl ⟨rfl, rfl, hsets⟩
  | some field =>
      cases hstep
      exact Or.inr ⟨field, rfl, hsets, rfl⟩

@[simp] theorem takeTick_now (c : ClockTime) (m : MsgManager) :
    (s.takeTick field c m).now = s.now := by
  simp only [takeTick]
  split <;> rfl

@[simp] theorem takeTick_heard (c : ClockTime) (m : MsgManager) :
    (s.takeTick field c m).heard = s.heard := by
  simp only [takeTick]
  split <;> rfl

@[simp] theorem takeTick_updating (c : ClockTime) (m : MsgManager) :
    (s.takeTick field c m).updating = s.updating := by
  simp only [takeTick]
  split <;> rfl

theorem watch_takeTick (c : ClockTime) (m : MsgManager) :
    (s.takeTick field c m).watch field = (s.watch field).takeTick c m := by
  by_cases hsame : m.downs = (s.managers field).downs
  · simp [takeTick, watch, Watch.takeTick, setManager, hsame]
  · simp [takeTick, watch, Watch.takeTick, setManager, onDown, hsame]

theorem watch_takeTick_of_ne {other : StatusField} (hne : field ≠ other)
    (c : ClockTime) (m : MsgManager) :
    (s.takeTick other c m).watch field = s.watch field := by
  simp only [takeTick, watch]
  split <;> simp [onDown, setManager, hne]

theorem Sound.idle (hs : s.Sound) (hidle : s.updating = none)
    (field : StatusField) : (s.managers field).stamps = [] := by
  by_contra hne
  have hfield := (hs field).updating.mpr hne
  rw [hidle] at hfield
  cases hfield

/-- Every step is a step of the watches that it signals, and leaves the
others as they are. -/
theorem watch_step (hs : s.Sound) (hstep : s.step event = some next)
    (field : StatusField) :
    (s.signal field event).elim (next.watch field = s.watch field)
      fun e => (s.watch field).step e = some (next.watch field) := by
  rcases step_cases hstep with ⟨t, rfl, hle, rfl⟩ | ⟨other, m, rfl, hm, rfl⟩ |
    ⟨online, pkt, rfl, hidle, hhandled⟩ |
      ⟨other, m, rfl, hupdating, hm, rfl⟩ | ⟨other, c, m, rfl, hc, hm, rfl⟩
  · have hclock : (s.managers field).step (.clock t) =
        some { s.managers field with now := t } :=
      if_pos ((hs field).now.symm ▸ hle)
    simp only [signal, Option.elim_some, Watch.step, watch, hclock]
    rfl
  · by_cases hsame : other = field
    · subst hsame
      simp only [signal, if_true, Option.elim_some, Watch.step, watch, hm,
        Option.map_some, setManager_self]
      rfl
    · simp only [signal, if_neg hsame, Option.elim_none, watch,
        setManager_of_ne (Ne.symm hsame)]
      rfl
  · rcases handled_cases (receive_sets _ _ _) hhandled with
      ⟨hnone, rfl, hmeta⟩ | ⟨other, hother, hmeta, rfl⟩
    · simp [signal, hnone, watch, hmeta]
    · by_cases hsame : other = field
      · subst hsame
        have hempty := hs.idle hidle other
        simp [signal, hother, Watch.step, watch, hempty, hmeta,
          MsgManager.step]
      · simp [signal, hother, hsame, watch, hmeta,
          setManager_of_ne (Ne.symm hsame), Ne.symm hsame]
  · by_cases hsame : other = field
    · subst hsame
      simp only [signal, hupdating, if_true, Option.elim_some, Watch.step,
        watch, hm, Option.map_some, setManager_self]
      rfl
    · have hother : ¬ s.updating = some field := by
        rw [hupdating]
        exact fun h => hsame (Option.some.inj h)
      simp only [signal, if_neg hother, Option.elim_none, watch,
        setManager_of_ne (Ne.symm hsame)]
      rfl
  · by_cases hsame : other = field
    · subst hsame
      rw [signal, if_pos rfl, Option.elim_some, watch_takeTick, Watch.step,
        watch, hc, hm]
      rfl
    · rw [signal, if_neg hsame, Option.elim_none,
        watch_takeTick_of_ne (Ne.symm hsame)]

/-- What the step says of the page is what it says of every status. -/
theorem page_step (hstep : s.step event = some next)
    (field : StatusField) :
    (next.now = match event with
      | .clock t => t
      | _ => s.now) ∧
    (next.heard field = match s.signal field event with
      | some .heard => s.now
      | _ => s.heard field) ∧
    (next.updating = some field ↔ match s.signal field event with
      | some .heard => True
      | some .takeStamp => False
      | _ => s.updating = some field) := by
  rcases step_cases hstep with ⟨t, rfl, -, rfl⟩ | ⟨other, m, rfl, -, rfl⟩ |
    ⟨online, pkt, rfl, hidle, hhandled⟩ |
      ⟨other, m, rfl, hupdating, -, rfl⟩ | ⟨other, c, m, rfl, -, -, rfl⟩
  · exact ⟨rfl, rfl, Iff.rfl⟩
  · by_cases hsame : other = field
    · simp [signal, hsame, setManager]
    · simp [signal, hsame, setManager]
  · rcases handled_cases (receive_sets _ _ _) hhandled with
      ⟨hnone, rfl, -⟩ | ⟨other, hother, -, rfl⟩
    · simp [signal, hnone]
    · by_cases hsame : other = field
      · subst hsame
        simp [signal, hother, setManager]
      · simp [signal, hother, hsame, setManager, Ne.symm hsame, hidle]
  · by_cases hsame : other = field
    · simp [signal, hupdating, hsame, setManager]
    · simp [signal, hupdating, hsame, setManager]
  · by_cases hsame : other = field
    · simp [signal, hsame]
    · simp [signal, hsame]

theorem signal_eq_clock {t : ClockTime}
    (hsignal : s.signal field event = some (.clock t)) :
    event = .clock t := by
  cases event with
  | clock t' =>
      cases hsignal
      rfl
  | takeStamp =>
      simp only [signal] at hsignal
      split at hsignal <;> cases hsignal
  | _ =>
      simp only [signal] at hsignal
      split at hsignal <;> cases hsignal

theorem SoundAt.step (hs : s.Sound) (hstep : s.step event = some next)
    (field : StatusField) : next.SoundAt field := by
  obtain ⟨hnow, hheard, hupdating⟩ := page_step hstep field
  have hwatch := watch_step hs hstep field
  have hbefore := hs field
  cases hsignal : s.signal field event with
  | none =>
      rw [hsignal] at hwatch hheard hupdating
      have hmanager : next.managers field = s.managers field :=
        congrArg Watch.manager hwatch
      have hsame : next.now = s.now := by
        cases event with
        | clock t => cases hsignal
        | _ => exact hnow
      exact
        { now := by rw [hmanager, hsame, hbefore.now]
          interval := by rw [hmanager, hbefore.interval]
          updating := by rw [hmanager, hupdating, hbefore.updating]
          heard := by rw [hwatch, hheard, hbefore.heard]
          watch := hwatch ▸ hbefore.watch }
  | some e =>
      rw [hsignal] at hwatch hheard hupdating
      have hstepped : (s.watch field).step e = some (next.watch field) :=
        hwatch
      obtain ⟨hinterval, hclock⟩ := Watch.manager_step hstepped
      have hlast := Watch.heard_step hbefore.watch hstepped
      have hstamps := Watch.stamps_step hbefore.watch hstepped
      refine
        { now := ?_
          interval := hinterval.trans hbefore.interval
          updating := ?_
          heard := ?_
          watch := hbefore.watch.step hstepped }
      · have hrest (hne : ∀ t, e ≠ .clock t) : next.now = s.now := by
          cases event with
          | clock t => exact absurd (Option.some.inj hsignal).symm (hne t)
          | _ => exact hnow
        cases e with
        | clock t =>
            obtain rfl := signal_eq_clock hsignal
            exact hclock.trans hnow.symm
        | _ => exact hclock.trans (hbefore.now.trans (hrest (by simp)).symm)
      · cases e with
        | heard => exact hupdating.trans hstamps.symm
        | takeStamp => exact hupdating.trans hstamps.symm
        | _ => exact hupdating.trans (hbefore.updating.trans hstamps.symm)
      · cases e with
        | heard => exact hlast.trans (hbefore.now.trans hheard.symm)
        | _ => exact hlast.trans (hbefore.heard.trans hheard.symm)

theorem Sound.step (hs : s.Sound) (hstep : s.step event = some next) :
    next.Sound := fun field => SoundAt.step hs hstep field

/-- What the steps of a watch keep holds of every status. -/
theorem watches_invariant {guard : StatusPage → PageEvent → Prop}
    {start : ClockTime} {events : List PageEvent} (Inv : Watch → Prop)
    (hinitial : Inv ((initial start).watch field))
    (hkeep : ∀ s event e next, s.Sound → guard s event →
      s.signal field event = some e → Inv (s.watch field) →
      (s.watch field).step e = some next → Inv next)
    (hrun : GuardedRun step guard (initial start) events s) :
    s.Sound ∧ Inv (s.watch field) := by
  apply hrun.invariant
  · rintro s event next ⟨hs, hinv⟩ hguard hstep
    refine ⟨hs.step hstep, ?_⟩
    have hwatch := watch_step hs hstep field
    cases hsignal : s.signal field event with
    | none =>
        rw [hsignal] at hwatch
        exact hwatch ▸ hinv
    | some e =>
        rw [hsignal] at hwatch
        exact hkeep s event e _ hs hguard hsignal hinv hwatch
  · exact ⟨initial_sound start, hinitial⟩

/-! ## What a status says -/

/-- A tick is taken while the loop does not wait for the manager to take its
time, and not after a stamp that is a millisecond later. -/
def TakesInTurn (s : StatusPage) : PageEvent → Prop
  | .takeTick field =>
      s.updating ≠ some field ∧
        (s.managers field).NotOvertaken .consumeTick
  | _ => True

instance (s : StatusPage) : ∀ event, Decidable (s.TakesInTurn event)
  | .clock _ => .isTrue trivial
  | .tick _ => .isTrue trivial
  | .packet _ _ => .isTrue trivial
  | .takeStamp => .isTrue trivial
  | .takeTick _ => inferInstanceAs (Decidable (_ ∧ _))

theorem TakesInTurn.watch (hs : s.Sound) (hguard : s.TakesInTurn event)
    {e : WatchEvent} (hsignal : s.signal field event = some e) :
    (s.watch field).TakesInTurn e := by
  cases event with
  | takeTick other =>
      simp only [signal] at hsignal
      split at hsignal
      next hsame =>
        cases hsignal
        subst hsame
        refine ⟨?_, hguard.2⟩
        by_contra hne
        exact hguard.1 ((hs other).updating.mpr hne)
      next => cases hsignal
  | clock t =>
      cases hsignal
      trivial
  | takeStamp =>
      simp only [signal] at hsignal
      split at hsignal <;> cases hsignal
      trivial
  | _ =>
      simp only [signal] at hsignal
      split at hsignal <;> cases hsignal
      trivial

/-- A heartbeat, and silence for five seconds. -/
def heartbeatPkt : Packet where
  SeqID := 0
  SysID := 1
  CompID := 1
  MsgID := MSG_ID_HEARTBEAT
  Payload := List.replicate 9 0
  Checksum := 0

/-- Every manager takes a tick at least every `period` of its kind. -/
def ChecksWithin (period : StatusField → ℤ) (s : StatusPage) :
    PageEvent → Prop
  | .clock t => ∀ field, t.since (s.checked field) ≤ period field
  | _ => True

instance (period : StatusField → ℤ) (s : StatusPage) :
    ∀ event, Decidable (s.ChecksWithin period event)
  | .clock _ => inferInstanceAs (Decidable (∀ _, _))
  | .tick _ => .isTrue trivial
  | .packet _ _ => .isTrue trivial
  | .takeStamp => .isTrue trivial
  | .takeTick _ => .isTrue trivial

theorem ChecksWithin.watch {period : StatusField → ℤ}
    (hguard : s.ChecksWithin period event) {e : WatchEvent}
    (hsignal : s.signal field event = some e) :
    (s.watch field).ChecksWithin (period field) e := by
  cases e with
  | clock t =>
      obtain rfl := signal_eq_clock hsignal
      exact hguard field
  | _ => trivial

/-- In every run whose managers take a tick at least every period, a kind of
which no message was handled for its interval, its period and a millisecond is
not shown online. -/
theorem silence_is_shown {period : StatusField → ℤ}
    (hperiod : 0 ≤ period field) {start : ClockTime}
    {events : List PageEvent}
    (hrun : GuardedRun step (ChecksWithin period) (initial start) events s)
    (hsilent : field.interval.Duration.toInt + period field + 1000000 ≤
      s.now.since (s.heard field)) :
    s.fmu.Meta field ≠ FMUSTATUS_GOOD := by
  intro hgood
  have hinitial :
      ((initial start).watch field).Noticed (period field) := by
    refine ⟨?_, fun h =>
      absurd h (initial_status_ne start field (by decide))⟩
    change start.since start ≤ period field
    unfold ClockTime.since
    omega
  obtain ⟨hs, hnoticed⟩ := watches_invariant (Watch.Noticed (period field))
    hinitial
    (fun s event e next hs hguard hsignal hw hstep =>
      hw.step (hs field).watch (hguard.watch hsignal) hstep) hrun
  have hat := hs field
  have hchecked := hnoticed.checked
  have honline := hnoticed.online hgood
  rw [hat.heard] at honline
  change (s.managers field).now.since (s.checked field) ≤ period field
    at hchecked
  change (s.checked field).since (s.heard field) <
    (s.managers field).interval.Duration.toInt + 1000000 at honline
  rw [hat.now] at hchecked
  rw [hat.interval] at honline
  unfold ClockTime.since at *
  omega

/-- Five seconds for the heartbeats, and a hundred for the others. -/
def fivePeriods (field : StatusField) : ℤ :=
  if field = .Link then 5000000000 else 100000000000

theorem silence_is_shown_heartbeat :
    ∃ s, GuardedRun step (ChecksWithin fivePeriods) (initial ⟨0, by decide⟩)
        [.packet true heartbeatPkt, .takeStamp,
          .clock ⟨5000000000, by decide⟩, .tick .Link, .takeTick .Link,
          .clock ⟨8000000000, by decide⟩] s ∧
      s.fmu.Meta .Link ≠ FMUSTATUS_GOOD := by
  have hexec : (exec step (ChecksWithin fivePeriods) (initial ⟨0, by decide⟩)
      [.packet true heartbeatPkt, .takeStamp,
        .clock ⟨5000000000, by decide⟩, .tick .Link, .takeTick .Link,
        .clock ⟨8000000000, by decide⟩]).map
      (fun s => s.now.since (s.heard .Link)) = some 8000000000 := by
    decide +kernel
  obtain ⟨s, hrun, hsilent⟩ := GuardedRun.of_exec_map hexec
  refine ⟨s, hrun, silence_is_shown (by decide) hrun ?_⟩
  rw [hsilent]
  decide

/-- The loop has handled a heartbeat and waits for the manager, which takes an
overdue tick first: the link is shown offline when a message has just come. -/
theorem overdue_tick_first :
    ¬ ∀ events s, Run step (initial ⟨0, by decide⟩) events s →
      s.fmu.Meta .Link = FMUSTATUS_DOWN → s.now.since (s.heard .Link) ≠ 0 := by
  intro hall
  let events : List PageEvent :=
    [.clock ⟨3000000000, by decide⟩, .tick .Link, .packet true heartbeatPkt,
      .takeTick .Link]
  have hexec : (exec step (fun _ _ => True) (initial ⟨0, by decide⟩)
      events).map (fun s =>
        (s.fmu.Meta .Link, s.now.since (s.heard .Link))) =
          some (FMUSTATUS_DOWN, 0) := by
    decide +kernel
  obtain ⟨s, hrun, heq⟩ := GuardedRun.of_exec_map hexec
  simp only [Prod.mk.injEq] at heq
  exact hall events s hrun heq.1 heq.2

end StatusPage

end Fmulink

end DronesmithEngine
