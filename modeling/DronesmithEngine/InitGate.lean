import DronesmithEngine.LabelledRuns
import DronesmithEngine.ParamCompleteness
import Mathlib.Tactic

/-!
# The gate before the command queue

Runs of messages, online checks, resets and iterations of `stateHandler`.
`ResetParams` is called by `RefreshParams` only.  A run records what arrived
and what was asked for since the vehicle was last reset or went offline,
which the flags of the code are to stand for.
-/

namespace DronesmithEngine

open Mavlink Api LabelledRuns

/-- What happened since the last reset. -/
structure InitSession where
  capsReceived : Bool
  requested : Option Time
  received : Finset UInt64

namespace InitSession

def new : InitSession := ⟨false, none, ∅⟩

def receive (c : InitSession) : Message → InitSession
  | .autopilotVersion _ => { c with capsReceived := true }
  | .paramValue m =>
      { c with received := insert m.ParamIndex.toUInt64 c.received }
  | _ => c

def receivePacket (c : InitSession) (p : Packet) : InitSession :=
  match wholeMessage p with
  | some m => c.receive m
  | none => c

end InitSession

structure InitRun where
  vehicle : InitVehicle
  now : Time
  session : InitSession
  /-- The vehicle went offline with a flag set, and has not been scrubbed
  since. -/
  unscrubbed : Bool

namespace InitRun

def hasFlag (v : InitVehicle) : Bool :=
  v.progress.gotCaps || v.progress.paramsRequested || v.paramForceInit

def initial (writer : Encoder) (now : Time) : InitRun where
  vehicle := .NewVehicle writer now
  now := now
  session := .new
  unscrubbed := false

def scrubbed (s : InitRun) : InitRun :=
  { s with session := .new, unscrubbed := false }

def handled (s : InitRun) : StateAction → InitRun
  | .scrubbed => s.scrubbed
  | .askedParams =>
      { s with session := { s.session with requested := some s.now } }
  | _ => s

/-- A packet that is too short for its message type is no message. -/
def step (s : InitRun) (event : InitEvent) : Option InitRun :=
  let next := { s with vehicle := s.vehicle.apply s.now event }
  match event with
  | .wait d => some { next with now := s.now + d }
  | .packet p =>
      if p.Payload.length < payloadSize p.MsgID then none
      else some { next with session := s.session.receivePacket p }
  | .command _ _ => some next
  | .checkSysOnline =>
      if s.vehicle.progress.online = next.vehicle.progress.online then
        some next
      else
        some
          { next with session := .new, unscrubbed := hasFlag s.vehicle }
  | .scrub => some next.scrubbed
  | .refreshParams =>
      some
        { next with
          session := { s.session with requested := none, received := ∅ } }
  | .stateHandler => some (next.handled (s.vehicle.stateHandler s.now).1)

/-- All parameters were received, as many as the vehicle says there are. -/
def AllReceived (s : InitRun) : Prop :=
  s.session.received.Nonempty ∧
    ∀ i < s.vehicle.progress.totalParams.toNat,
      UInt64.ofNat i ∈ s.session.received

def TenSecondsOn (s : InitRun) : Prop :=
  ∃ asked, s.session.requested = some asked ∧ asked + 10 * second ≤ s.now

/-- `sysOnlineHandler` may be called. -/
structure Initialised (s : InitRun) : Prop where
  online : s.vehicle.progress.online
  gotCaps : s.vehicle.progress.gotCaps
  capsReceived : s.session.capsReceived
  params : s.AllReceived ∨ s.TenSecondsOn

def isHeartbeat : Message → Bool
  | .heartbeat _ => true
  | _ => false

/-- The stored indices from the total on are one more than those that are
missing below it, so that their number hides what is missing. -/
def HidesMissing (v : InitVehicle) : Prop :=
  let total := v.progress.totalParams.toNat
  v.missing total ≠ 0 ∧ v.beyond total = v.missing total + 1

instance (v : InitVehicle) : Decidable (HidesMissing v) :=
  inferInstanceAs (Decidable (_ ∧ _))

/-- A vehicle that went offline is scrubbed before its next heartbeat, and
is not scrubbed while `paramForceInit` is set; within ten seconds the stored
indices do not hide that one is missing; and the handler gives up waiting
only for a list that it has asked for. -/
def Orderly (s : InitRun) : InitEvent → Prop
  | .packet p => (wholeMessage p).any isHeartbeat → ¬ s.unscrubbed
  | .scrub => ¬ s.vehicle.paramForceInit
  | .stateHandler =>
      let g := s.vehicle.progress
      (¬ g.online → ¬ s.vehicle.paramForceInit) ∧
        (g.Ready → ¬ s.vehicle.paramForceInit →
          (HidesMissing s.vehicle → s.TenSecondsOn) ∧
            (¬ g.Complete → 10 * second < s.now - s.vehicle.ParamsTimer →
              s.session.requested.isSome))
  | _ => True

instance (s : InitRun) : Decidable s.TenSecondsOn :=
  match h : s.session.requested with
  | none => .isFalse fun ⟨_, hasked, _⟩ => by simp [h] at hasked
  | some asked =>
      decidable_of_iff (asked + 10 * second ≤ s.now)
        ⟨fun htime => ⟨asked, h, htime⟩, fun ⟨_, hasked, htime⟩ =>
          Option.some.inj (h.symm.trans hasked) ▸ htime⟩

instance (s : InitRun) : ∀ event, Decidable (s.Orderly event)
  | .packet _ => inferInstanceAs (Decidable (_ → _))
  | .scrub => inferInstanceAs (Decidable (¬ _))
  | .stateHandler => inferInstanceAs (Decidable (_ ∧ _))
  | .wait _ => .isTrue trivial
  | .command _ _ => .isTrue trivial
  | .checkSysOnline => .isTrue trivial
  | .refreshParams => .isTrue trivial

/-! ## What the flags stand for -/

/-- Each flag is set only if its reason belongs to the session. -/
structure Reflects (v : InitVehicle) (c : InitSession) (now : Time) :
    Prop where
  caps : v.progress.gotCaps → c.capsReceived
  stored : ∀ i ∈ v.progress.foundSet, i ∈ c.received
  started : v.progress.paramsRequested → c.received.Nonempty
  timer : ∀ asked, c.requested = some asked → v.ParamsTimer = asked
  forced : v.paramForceInit →
    v.progress.paramsRequested ∧
      ∃ asked, c.requested = some asked ∧ asked + 10 * second ≤ now

variable {v w : InitVehicle} {c : InitSession} {now : Time}

theorem Reflects.congr (hv : Reflects v c now)
    (hcaps : w.progress.gotCaps = v.progress.gotCaps)
    (hparams : w.progress.params = v.progress.params)
    (hrequested : w.progress.paramsRequested = v.progress.paramsRequested)
    (htimer : w.ParamsTimer = v.ParamsTimer)
    (hforced : w.paramForceInit = v.paramForceInit) :
    Reflects w c now := by
  constructor
  · rw [hcaps]
    exact hv.caps
  · rw [InitProgress.foundSet, hparams]
    exact hv.stored
  · rw [hrequested]
    exact hv.started
  · rw [htimer]
    exact hv.timer
  · rw [hrequested, hforced]
    exact hv.forced

theorem Reflects.ofProgress (hv : Reflects v c now)
    (hprogress : w.progress = v.progress)
    (htimer : w.ParamsTimer = v.ParamsTimer)
    (hforced : w.paramForceInit = v.paramForceInit) :
    Reflects w c now :=
  hv.congr (congrArg InitProgress.gotCaps hprogress)
    (congrArg InitProgress.params hprogress)
    (congrArg InitProgress.paramsRequested hprogress) htimer hforced

theorem Reflects.wait (hv : Reflects v c now) (d : ℕ) :
    Reflects v c (now + d) where
  caps := hv.caps
  stored := hv.stored
  started := hv.started
  timer := hv.timer
  forced hforced := by
    obtain ⟨hrequested, asked, hasked, htime⟩ := hv.forced hforced
    exact ⟨hrequested, asked, hasked, Nat.le_add_right_of_le htime⟩

theorem reflects_scrub (hforced : ¬ v.paramForceInit) :
    Reflects v.Scrub .new now where
  caps hcaps := by simp [InitProgress.scrub] at hcaps
  stored i hi := by
    rw [InitProgress.foundSet_empty rfl] at hi
    cases hi
  started hrequested := by simp [InitProgress.scrub] at hrequested
  timer asked hasked := by simp [InitSession.new] at hasked
  forced hset := absurd hset hforced

theorem Reflects.refreshParams (hv : Reflects v c now) :
    Reflects v.RefreshParams { c with requested := none, received := ∅ }
      now where
  caps := hv.caps
  stored i hi := by
    rw [InitProgress.foundSet_empty rfl] at hi
    cases hi
  started hrequested := by simp [InitProgress.resetParams] at hrequested
  timer asked hasked := by cases hasked
  forced hset := by cases hset

theorem Reflects.receive (hv : Reflects v c now) (m : Message)
    (hprogress : w.progress = v.progress.receive m)
    (htimer : w.ParamsTimer = v.ParamsTimer)
    (hforced : w.paramForceInit = v.paramForceInit) :
    Reflects w (c.receive m) now := by
  cases m with
  | autopilotVersion m =>
      constructor
      · intro _
        rfl
      · rw [hprogress]
        exact hv.stored
      · rw [hprogress]
        exact hv.started
      · rw [htimer]
        exact hv.timer
      · rw [hprogress, hforced]
        exact hv.forced
  | paramValue m =>
      constructor
      · rw [hprogress]
        exact hv.caps
      · intro i hi
        rw [hprogress] at hi
        rcases InitProgress.mem_foundSet_paramValue hi with rfl | hold
        · exact Finset.mem_insert_self _ _
        · exact Finset.mem_insert_of_mem (hv.stored i hold)
      · intro _
        exact Finset.insert_nonempty _ _
      · rw [htimer]
        exact hv.timer
      · intro hset
        rw [hforced] at hset
        rw [hprogress]
        exact ⟨rfl, (hv.forced hset).2⟩
  | _ =>
      exact hv.congr ((congrArg InitProgress.gotCaps hprogress).trans rfl)
        ((congrArg InitProgress.params hprogress).trans rfl)
        ((congrArg InitProgress.paramsRequested hprogress).trans rfl)
        htimer hforced

theorem Reflects.receivePacket (hv : Reflects v c now) (p : Packet) :
    Reflects (v.apply now (.packet p)) (c.receivePacket p) now := by
  have hprogress := v.packet_progress p now
  unfold InitProgress.receivePacket at hprogress
  unfold InitSession.receivePacket
  cases hm : wholeMessage p with
  | none =>
      rw [hm] at hprogress
      exact hv.ofProgress hprogress rfl rfl
  | some m =>
      rw [hm] at hprogress
      exact hv.receive m hprogress rfl rfl

/-! ## Runs -/

structure Gated (s : InitRun) : Prop where
  valid : s.vehicle.progress.Valid
  online : s.vehicle.progress.online → ¬ s.unscrubbed
  reflects : ¬ s.unscrubbed → Reflects s.vehicle s.session s.now

theorem initial_gated (writer : Encoder) (now : Time) :
    (initial writer now).Gated where
  valid := InitProgress.scrub_valid (initial writer now).vehicle.progress
  online honline := by cases honline
  reflects _ := by
    have hscrub : Reflects (InitVehicle.NewVehicle writer now).Scrub .new
        now := reflects_scrub (by simp [InitVehicle.NewVehicle])
    exact hscrub.congr rfl rfl rfl rfl rfl

/-- Only a heartbeat takes a vehicle online. -/
theorem receivePacket_online {g : InitProgress} {p : Packet}
    (honline : (g.receivePacket p).online) :
    g.online ∨ (wholeMessage p).any isHeartbeat := by
  unfold InitProgress.receivePacket at honline
  cases hm : wholeMessage p with
  | none =>
      rw [hm] at honline
      exact Or.inl honline
  | some m =>
      rw [hm] at honline
      cases m with
      | heartbeat m => exact Or.inr rfl
      | _ => exact Or.inl honline

theorem Gated.packet {s : InitRun} (hs : s.Gated) (p : Packet)
    (hguard : s.Orderly (.packet p)) :
    Gated
      { s with
        vehicle := s.vehicle.apply s.now (.packet p)
        session := s.session.receivePacket p } := by
  have hprogress := s.vehicle.packet_progress p s.now
  constructor
  · simp only [InitVehicle.apply, hprogress]
    exact hs.valid.receivePacket p
  · intro honline
    simp only [InitVehicle.apply, hprogress] at honline
    rcases receivePacket_online honline with hold | hheartbeat
    · exact hs.online hold
    · exact hguard hheartbeat
  · intro hscrubbed
    exact (hs.reflects hscrubbed).receivePacket p

/-- A vehicle that goes offline with no flag set starts from nothing. -/
theorem reflects_offline (hvalid : v.progress.Valid) (hflag : ¬ hasFlag v)
    (hprogress : w.progress = { v.progress with online := false })
    (hforced : w.paramForceInit = v.paramForceInit) :
    Reflects w .new now := by
  simp only [hasFlag, Bool.or_eq_true, not_or, Bool.not_eq_true] at hflag
  obtain ⟨⟨hcaps, hrequested⟩, hunforced⟩ := hflag
  constructor
  · intro hset
    rw [hprogress, hcaps] at hset
    cases hset
  · intro i hi
    have hempty : w.progress.params = ∅ := by
      rw [hprogress]
      exact hvalid.empty hrequested
    rw [InitProgress.foundSet_empty hempty] at hi
    cases hi
  · intro hset
    rw [hprogress, hrequested] at hset
    cases hset
  · intro asked hasked
    cases hasked
  · intro hset
    rw [hforced, hunforced] at hset
    cases hset

theorem Gated.checkSysOnline {s next : InitRun} (hs : s.Gated)
    (hstep : s.step .checkSysOnline = some next) : next.Gated := by
  have hprogress := s.vehicle.checkSysOnline_progress s.now
  simp only [InitRun.step] at hstep
  split at hstep
  next hsame =>
    rw [← Option.some.inj hstep]
    have heq : (s.vehicle.apply s.now .checkSysOnline).progress =
        s.vehicle.progress := by
      rcases hprogress with heq | heq
      · exact heq
      · rw [heq] at hsame
        exact heq.trans (InitProgress.ext hsame.symm rfl rfl rfl rfl)
    refine ⟨?_, ?_, fun hscrubbed => ?_⟩
    · rw [heq]
      exact hs.valid
    · rw [heq]
      exact hs.online
    · exact (hs.reflects hscrubbed).ofProgress heq rfl rfl
  next hoffline =>
    rw [← Option.some.inj hstep]
    have heq : (s.vehicle.apply s.now .checkSysOnline).progress =
        { s.vehicle.progress with online := false } := by
      rcases hprogress with heq | heq
      · rw [heq] at hoffline
        exact absurd rfl hoffline
      · exact heq
    refine ⟨?_, fun honline => ?_, fun hscrubbed => ?_⟩
    · rw [heq]
      exact ⟨hs.valid.small, hs.valid.empty⟩
    · rw [heq] at honline
      cases honline
    · exact reflects_offline hs.valid hscrubbed heq rfl

theorem gated_scrub {s : InitRun} (hforced : ¬ s.vehicle.paramForceInit) :
    ({ s with vehicle := s.vehicle.Scrub } : InitRun).scrubbed.Gated where
  valid := InitProgress.scrub_valid s.vehicle.progress
  online _ := by simp [scrubbed]
  reflects _ := reflects_scrub hforced

/-- Sending leaves the progress as it is, so only what the handler keeps
besides has to reflect the session again. -/
theorem Gated.sends {s : InitRun} (hs : s.Gated) {v : InitVehicle}
    {c : InitSession} (hv : v.api = s.vehicle.api)
    (hreflects : Reflects s.vehicle s.session s.now →
      Reflects v c s.now) :
    Gated { s with vehicle := v, session := c } := by
  have hprogress : v.progress = s.vehicle.progress :=
    congrArg VehicleApi.progress hv
  refine ⟨?_, ?_, fun hscrubbed => hreflects (hs.reflects hscrubbed)⟩
  · rw [hprogress]
    exact hs.valid
  · rw [hprogress]
    exact hs.online

theorem Reflects.sent (hv : Reflects v c now) {w : Vehicle}
    (hw : w.api = v.api) : Reflects { v with vehicle := w } c now := by
  have hprogress : ({ v with vehicle := w } : InitVehicle).progress =
      v.progress := congrArg VehicleApi.progress hw
  exact hv.ofProgress hprogress rfl rfl

/-- Asking for the list starts the clock; nothing is forced at that point. -/
theorem Reflects.askedParams (hv : Reflects v c now)
    (hparams : v.progress.paramsRequested = false) :
    Reflects { v with ParamsTimer := now } { c with requested := some now }
      now where
  caps := hv.caps
  stored := hv.stored
  started := hv.started
  timer _ hasked := Option.some.inj hasked
  forced hset := by
    have hrequested := (hv.forced hset).1
    rw [hparams] at hrequested
    cases hrequested

theorem Reflects.force (hv : Reflects v c now)
    (hrequested : v.progress.paramsRequested) (hasked : c.requested.isSome)
    (htime : 10 * second < now - v.ParamsTimer) (missing : List ℕ) :
    Reflects
      { v with missingParams := missing, paramForceInit := true } c now where
  caps := hv.caps
  stored := hv.stored
  started := hv.started
  timer := hv.timer
  forced _ := by
    obtain ⟨asked, hasked⟩ := Option.isSome_iff_exists.mp hasked
    have htimer := hv.timer asked hasked
    rw [htimer] at htime
    refine ⟨hrequested, asked, hasked, ?_⟩
    rw [Nat.add_comm]
    exact (Nat.add_lt_of_lt_sub htime).le

theorem Gated.stateHandler {s : InitRun} (hs : s.Gated)
    (hguard : s.Orderly .stateHandler) {action : StateAction}
    {v : InitVehicle} (hv : StateStep s.vehicle s.now action v) :
    (({ s with vehicle := v } : InitRun).handled action).Gated := by
  cases hv with
  | scrubbed hoffline => exact gated_scrub (hguard.1 (by simp [hoffline]))
  | askedInfo hw honline hcaps =>
      exact hs.sends hw fun hreflects => hreflects.sent hw
  | online hw hready hdone =>
      exact hs.sends hw fun hreflects => hreflects.sent hw
  | waiting hw hready => exact hs.sends hw fun hreflects => hreflects.sent hw
  | askedParams hw honline hparams =>
      exact hs.sends hw fun hreflects => (hreflects.askedParams hparams).sent hw
  | forced hw hready hmissing hforced htime =>
      have hasked := (hguard.2 hready (by simp [hforced])).2 hmissing htime
      exact hs.sends hw fun hreflects =>
        (hreflects.force hready.paramsRequested hasked htime _).sent hw

theorem Gated.step {s next : InitRun} {event : InitEvent} (hs : s.Gated)
    (hguard : s.Orderly event) (hstep : s.step event = some next) :
    next.Gated := by
  cases event with
  | wait d =>
      simp only [InitRun.step, InitVehicle.apply, Option.some.injEq] at hstep
      subst hstep
      exact ⟨hs.valid, hs.online, fun hscrubbed =>
        (hs.reflects hscrubbed).wait d⟩
  | packet p =>
      simp only [InitRun.step] at hstep
      split at hstep
      · cases hstep
      · rw [← Option.some.inj hstep]
        exact hs.packet p hguard
  | command Command op =>
      simp only [InitRun.step, InitVehicle.apply, Option.some.injEq] at hstep
      subst hstep
      exact hs.sends rfl fun hreflects => hreflects.sent rfl
  | checkSysOnline => exact hs.checkSysOnline hstep
  | scrub =>
      simp only [InitRun.step, InitVehicle.apply, Option.some.injEq] at hstep
      subst hstep
      exact gated_scrub hguard
  | refreshParams =>
      simp only [InitRun.step, InitVehicle.apply, Option.some.injEq] at hstep
      subst hstep
      have hvalid := s.vehicle.progress.resetParams_valid
      exact ⟨hvalid, hs.online, fun hscrubbed =>
        (hs.reflects hscrubbed).refreshParams⟩
  | stateHandler =>
      simp only [InitRun.step, Option.some.injEq] at hstep
      subst hstep
      exact hs.stateHandler hguard (s.vehicle.stateHandler_step s.now)

/-- An index that a parameter has is found. -/
theorem mem_foundSet_of_holds {i : ℕ} (hholds : v.Holds i) :
    UInt64.ofNat i ∈ v.progress.foundSet := by
  obtain ⟨name, param, hname, hindex⟩ := hholds
  rw [← hindex, UInt64.ofNat_toNat]
  exact InitProgress.mem_foundSet.mpr ⟨name, param, hname, rfl⟩

/-- The test of the handler compares the indices from the total on with the
missing ones. -/
theorem complete_iff (hvalid : v.progress.Valid) :
    v.progress.Complete ↔
      v.beyond v.progress.totalParams.toNat =
        v.missing v.progress.totalParams.toNat + 1 := by
  have hcard := v.card_storedIndices v.progress.totalParams.toNat
  rw [InitProgress.Complete, hvalid.int_totalParams, v.card_foundSet]
  omega

theorem Gated.initialised {s : InitRun} (hs : s.Gated)
    (hguard : s.Orderly .stateHandler) {action : Vehicle.HandlerAction}
    (hcalled : (s.vehicle.stateHandler s.now).1 = .online action) :
    s.Initialised := by
  have hstep := s.vehicle.stateHandler_step s.now
  rw [hcalled] at hstep
  generalize (s.vehicle.stateHandler s.now).2 = v at hstep
  cases hstep with
  | online hw hready hdone =>
      have hreflects := hs.reflects (hs.online hready.online)
      refine ⟨hready.online, hready.gotCaps, hreflects.caps hready.gotCaps,
        ?_⟩
      by_cases hforced : s.vehicle.paramForceInit
      · exact Or.inr (hreflects.forced hforced).2
      · have hbeyond :=
          (complete_iff hs.valid).mp (hdone.resolve_right hforced)
        by_cases hmissing :
            s.vehicle.missing s.vehicle.progress.totalParams.toNat = 0
        · left
          have hall := InitVehicle.holds_all_iff.mpr hmissing
          exact ⟨hreflects.started hready.paramsRequested, fun i hi =>
            hreflects.stored _ (mem_foundSet_of_holds (hall i hi))⟩
        · exact Or.inr
            ((hguard.2 hready hforced).1 ⟨hmissing, hbeyond⟩)

/-- An iteration that the stored indices mislead calls `sysOnlineHandler`
with a parameter missing. -/
theorem Gated.misled {s : InitRun} (hs : s.Gated)
    (hready : s.vehicle.progress.Ready)
    (hforced : s.vehicle.paramForceInit = false)
    (hhides : HidesMissing s.vehicle) :
    (∃ action, (s.vehicle.stateHandler s.now).1 = .online action) ∧
      ∃ i < s.vehicle.progress.totalParams.toNat, ¬ s.vehicle.Holds i := by
  obtain ⟨hmissing, hbeyond⟩ := hhides
  constructor
  · rw [InitVehicle.stateHandler_online_iff hready hforced]
    exact (complete_iff hs.valid).mpr hbeyond
  · by_contra hnone
    push Not at hnone
    exact hmissing (InitVehicle.holds_all_iff.mp hnone)

/-- In every run that meets the condition, each iteration that calls
`sysOnlineHandler` does so for an initialised vehicle; and an iteration whose
stored indices hide a missing one calls it without that parameter. -/
theorem calls_initialised (writer : Encoder) (start : Time)
    {events : List InitEvent} {s : InitRun}
    (hrun : GuardedRun step Orderly (initial writer start) events s) :
    (s.Orderly .stateHandler →
      ∀ action, (s.vehicle.stateHandler s.now).1 = .online action →
        s.Initialised) ∧
    (s.vehicle.progress.Ready → s.vehicle.paramForceInit = false →
      HidesMissing s.vehicle →
        (∃ action, (s.vehicle.stateHandler s.now).1 = .online action) ∧
          ∃ i < s.vehicle.progress.totalParams.toNat,
            ¬ s.vehicle.Holds i) := by
  have hgated : s.Gated :=
    hrun.invariant (fun _ _ _ hs hguard hstep => hs.step hguard hstep)
      (initial_gated writer start)
  exact ⟨fun hguard action hcalled => hgated.initialised hguard hcalled,
    hgated.misled⟩

/-- A vehicle with one parameter, which sends a checksum besides. -/
theorem calls_initialised_single :
    ∃ s, Run step (initial (NewEncoder none) 0)
        [.packet heartbeatPacket, .packet versionPacket, .stateHandler,
          .packet (paramPacket 1 0 65), .packet (paramPacket 1 65535 66)] s ∧
      s.Initialised := by
  have hexec : (exec step Orderly (initial (NewEncoder none) 0)
      [.packet heartbeatPacket, .packet versionPacket, .stateHandler,
        .packet (paramPacket 1 0 65), .packet (paramPacket 1 65535 66)]).map
          (fun s => (decide (s.Orderly .stateHandler),
            (s.vehicle.stateHandler s.now).1)) =
              some (true, .online .idle) := by
    decide
  obtain ⟨s, hrun, heq⟩ := GuardedRun.of_exec_map hexec
  simp only [Prod.mk.injEq, decide_eq_true_eq] at heq
  exact ⟨s, hrun.run,
    (calls_initialised (NewEncoder none) 0 hrun).1 heq.1 _ heq.2⟩

/-- The handler gives up waiting for two of three parameters.  The vehicle
goes offline, is scrubbed and comes back, and with its first parameter a
command is transmitted. -/
theorem reconnected_uninitialised :
    ¬ ∀ events s action, Run step (initial (NewEncoder none) 0) events s →
      (s.vehicle.stateHandler s.now).1 = .online action →
        s.Initialised := by
  intro hall
  let connect : List InitEvent :=
    [.packet heartbeatPacket, .packet versionPacket, .stateHandler,
      .packet (paramPacket 3 0 65)]
  let events : List InitEvent :=
    connect ++
      [.wait (11 * second), .packet heartbeatPacket, .stateHandler,
        .wait (6 * second), .checkSysOnline, .stateHandler] ++
      connect ++ [.command { Command := 22 } 22]
  have hexec : (exec step (fun _ _ => True)
      (initial (NewEncoder none) 0) events).map (fun s =>
        ((s.vehicle.stateHandler s.now).1,
          s.vehicle.progress.totalParams.toNat,
          decide (1 ∈ s.session.received), decide s.TenSecondsOn)) =
            some (.online (.sent 0), 3, false, false) := by
    decide +kernel
  obtain ⟨s, hrun, heq⟩ := GuardedRun.of_exec_map hexec
  simp only [Prod.mk.injEq, decide_eq_false_iff_not] at heq
  obtain ⟨hcalled, htotal, hmissing, htime⟩ := heq
  have hinit := hall events s (.sent 0) hrun hcalled
  rcases hinit.params with hreceived | hten
  · exact hmissing (hreceived.2 1 (by rw [htotal]; decide))
  · exact htime hten

end InitRun

end DronesmithEngine
