import DronesmithEngine.LabelledRuns
import DronesmithEngine.Vehicle
import Mathlib.Tactic

/-!
# Manual input

A client hands its input to the listener over a channel and, if it enables
the override, sends it once itself.  The listener sends the input it holds in
every iteration that finds nothing in the channel, and looks at the timeout
after that.  What was accepted last is recorded with each transmission.
-/

namespace DronesmithEngine

open Mavlink Api LabelledRuns

/-- The variables of `RCInputListener`. -/
structure RCListener where
  enabled : Bool
  data : Vector UInt16 8
  lastReceived : Time
  rcTimeOut : UInt64

/-- A transmitted override, and the input the listener had accepted last. -/
structure Override where
  channels : Vector UInt16 8
  time : Time
  latest : Option (RCInput × Time)

structure RcRun where
  vehicle : Vehicle
  listener : RCListener
  now : Time
  /-- The channel values that clients still have to send themselves. -/
  callers : List (Vector UInt16 8)
  latest : Option (RCInput × Time)
  transmitted : List Override

inductive RcEvent
  | advance (d : ℕ)
  | handoff (rc : RCInput)
  | clientSend (k : ℕ)
  | iteration

namespace RcRun

def millisecond : ℕ := 1000000

/-- `curr.Sub(lastReceived)`, which stops at the longest duration. -/
def elapsed (lastReceived now : Time) : ℤ :=
  min (now - lastReceived : ℕ) (2 ^ 63 - 1)

/-- `time.Duration(rcTimeOut) * time.Millisecond`, in signed 64-bit
arithmetic. -/
def timeout (rcTimeOut : UInt64) : ℤ :=
  Int.bmod (rcTimeOut.toNat * millisecond) (2 ^ 64)

def message (vals : Vector UInt16 8) : RcChannelsOverride where
  Chan1Raw := vals.get 0
  Chan2Raw := vals.get 1
  Chan3Raw := vals.get 2
  Chan4Raw := vals.get 3
  Chan5Raw := vals.get 4
  Chan6Raw := vals.get 5
  Chan7Raw := vals.get 6
  Chan8Raw := vals.get 7
  TargetSystem := 0
  TargetComponent := 0

def transmit (s : RcRun) (vals : Vector UInt16 8) : RcRun :=
  { s with
    vehicle := s.vehicle.sendMAVLink (message vals).Pack
    transmitted := s.transmitted ++ [⟨vals, s.now, s.latest⟩] }

def initial (v : Vehicle) (now : Time) : RcRun where
  vehicle := v
  listener := ⟨false, Vector.replicate 8 0, now, 0⟩
  now := now
  callers := []
  latest := none
  transmitted := []

def step (s : RcRun) : RcEvent → Option RcRun
  | .advance d => some { s with now := s.now + d }
  | .handoff rc =>
      some
        { s with
          vehicle := { s.vehicle with rcInput := s.vehicle.rcInput ++ [rc] }
          listener := ⟨rc.Enabled, rc.Channels, s.now, rc.Timeout⟩
          callers :=
            if rc.Enabled then s.callers ++ [rc.Channels] else s.callers
          latest := some (rc, s.now) }
  | .clientSend k => do
      let vals ← s.callers[k]?
      some { s.transmit vals with callers := s.callers.eraseIdx k }
  | .iteration =>
      if s.listener.enabled then
        let s := s.transmit s.listener.data
        if 0 < s.listener.rcTimeOut ∧
            timeout s.listener.rcTimeOut <
              elapsed s.listener.lastReceived s.now then
          some { s with listener := { s.listener with enabled := false } }
        else some s
      else some s

/-- Without anything in between, a client's handoff and its sending do what
`SendRCOverride` does. -/
theorem uninterrupted_override (s : RcRun) (rc : RCInput) :
    ∃ events t, Run step s events t ∧ t.callers = s.callers ∧
      t.vehicle =
        s.vehicle.SendRCOverride rc.Channels rc.Enabled rc.Timeout := by
  have hrc : (⟨rc.Enabled, rc.Timeout, rc.Channels⟩ : RCInput) = rc := rfl
  cases henabled : rc.Enabled with
  | false =>
      refine ⟨[] ++ [.handoff rc], _, .snoc .nil trivial rfl, ?_, ?_⟩
      · simp [henabled]
      · rw [← henabled, Vehicle.SendRCOverride, hrc, henabled]
        rfl
  | true =>
      have hlast : (s.callers ++ [rc.Channels])[s.callers.length]? =
          some rc.Channels := List.getElem?_concat_length
      refine ⟨[] ++ [.handoff rc] ++ [.clientSend s.callers.length], _,
        .snoc (.snoc .nil trivial rfl) trivial
          (by simp only [step, henabled, if_true, hlast]; rfl), ?_, ?_⟩
      · simp [List.eraseIdx_append_of_length_le]
      · rw [← henabled, Vehicle.SendRCOverride, hrc, henabled]
        rfl

/-- The input was accepted, when it was enabled, no longer ago than its
timeout. -/
def Justifies (channels : Vector UInt16 8) (time : Time) :
    Option (RCInput × Time) → Prop
  | none => False
  | some (rc, since) =>
      rc.Enabled ∧ rc.Channels = channels ∧
        (0 < rc.Timeout → time ≤ since + rc.Timeout.toNat * millisecond)

/-- Every override was sent on behalf of the input accepted last. -/
def OverridesCurrent (s : RcRun) : Prop :=
  ∀ o ∈ s.transmitted, Justifies o.channels o.time o.latest

def InTime (s : RcRun) : Prop :=
  0 < s.listener.rcTimeOut →
    s.now ≤ s.listener.lastReceived +
      s.listener.rcTimeOut.toNat * millisecond

/-- No input that differs is accepted between a client's handoff and its own
sending, and clients and the listener send before the timeout has
elapsed. -/
def Timely (s : RcRun) : RcEvent → Prop
  | .advance _ => True
  | .handoff rc => ∀ vals ∈ s.callers, rc.Enabled ∧ rc.Channels = vals
  | .clientSend _ => s.InTime
  | .iteration => s.listener.enabled → s.InTime

instance (s : RcRun) : Decidable s.InTime :=
  inferInstanceAs (Decidable (_ → _))

instance (s : RcRun) : ∀ event, Decidable (s.Timely event)
  | .advance _ => .isTrue trivial
  | .handoff rc =>
      List.decidableBAll (fun vals => rc.Enabled ∧ rc.Channels = vals)
        s.callers
  | .clientSend _ => inferInstanceAs (Decidable s.InTime)
  | .iteration => inferInstanceAs (Decidable (_ → _))

/-! ## The listener holds what was accepted last -/

/-- `Held` says what the listener knows of the input accepted last, and which
clients still have to send it. -/
structure Held (s : RcRun) (rc : RCInput) (since : Time) : Prop where
  data : s.listener.data = rc.Channels
  received : s.listener.lastReceived = since
  timeout : s.listener.rcTimeOut = rc.Timeout
  enabled : s.listener.enabled → rc.Enabled
  callers : ∀ vals ∈ s.callers, rc.Enabled ∧ rc.Channels = vals

structure Current (s : RcRun) : Prop where
  nothing : s.latest = none → ¬ s.listener.enabled ∧ s.callers = []
  held : ∀ rc since, s.latest = some (rc, since) → s.Held rc since

theorem initial_current (v : Vehicle) (now : Time) :
    (initial v now).Current where
  nothing _ := ⟨by simp [initial], rfl⟩
  held rc since hlatest := by simp [initial] at hlatest

theorem clientSend_cases {s next : RcRun} {k : ℕ}
    (hstep : s.step (.clientSend k) = some next) :
    ∃ vals, s.callers[k]? = some vals ∧
      next = { s.transmit vals with callers := s.callers.eraseIdx k } := by
  simp only [step, Option.bind_eq_bind, Option.bind_eq_some_iff,
    Option.some.injEq] at hstep
  obtain ⟨vals, hvals, rfl⟩ := hstep
  exact ⟨vals, hvals, rfl⟩

/-- An iteration sends what the listener holds, if it is enabled, and can
only disable it. -/
theorem iteration_cases {s next : RcRun}
    (hstep : s.step .iteration = some next) :
    ¬ s.listener.enabled ∧ next = s ∨
      s.listener.enabled ∧
        ∃ enabled : Bool, (enabled → s.listener.enabled) ∧
          next =
            { s.transmit s.listener.data with
              listener := { s.listener with enabled := enabled } } := by
  simp only [step] at hstep
  by_cases henabled : s.listener.enabled
  · right
    refine ⟨henabled, ?_⟩
    rw [if_pos henabled] at hstep
    split at hstep
    · exact ⟨false, by simp, (Option.some.inj hstep).symm⟩
    · have hsame : { s.listener with enabled := true } = s.listener := by
        rw [← henabled]
      refine ⟨true, fun _ => henabled, ?_⟩
      rw [← Option.some.inj hstep, hsame]
      rfl
  · left
    refine ⟨henabled, ?_⟩
    rw [if_neg henabled] at hstep
    exact (Option.some.inj hstep).symm

theorem Current.step {s next : RcRun} {event : RcEvent} (hs : s.Current)
    (hguard : s.Timely event) (hstep : s.step event = some next) :
    next.Current := by
  cases event with
  | advance d =>
      simp only [RcRun.step, Option.some.injEq] at hstep
      subst hstep
      refine ⟨hs.nothing, fun rc since hlatest => ?_⟩
      obtain ⟨hdata, hreceived, htimeout, henabled, hcallers⟩ :=
        hs.held rc since hlatest
      exact ⟨hdata, hreceived, htimeout, henabled, hcallers⟩
  | handoff rc =>
      simp only [RcRun.step, Option.some.injEq] at hstep
      subst hstep
      refine ⟨by simp, ?_⟩
      rintro rc' since ⟨rfl, rfl⟩
      refine ⟨rfl, rfl, rfl, id, ?_⟩
      intro vals hvals
      by_cases henabled : rc.Enabled
      · simp only [henabled, if_true] at hvals
        rcases List.mem_append.mp hvals with hold | hnew
        · exact hguard vals hold
        · exact ⟨henabled, (List.mem_singleton.mp hnew).symm⟩
      · simp only [henabled, Bool.false_eq_true, if_false] at hvals
        exact hguard vals hvals
  | clientSend k =>
      obtain ⟨vals, hvals, rfl⟩ := clientSend_cases hstep
      constructor
      · intro hnone
        have hempty := (hs.nothing hnone).2
        simp [hempty] at hvals
      · intro rc since hlatest
        obtain ⟨hdata, hreceived, htimeout, henabled, hcallers⟩ :=
          hs.held rc since hlatest
        exact ⟨hdata, hreceived, htimeout, henabled, fun other hother =>
          hcallers other (List.mem_of_mem_eraseIdx hother)⟩
  | iteration =>
      rcases iteration_cases hstep with
        ⟨-, rfl⟩ | ⟨hwas, enabled, henabled', rfl⟩
      · exact hs
      · constructor
        · intro hnone
          exact absurd hwas (hs.nothing hnone).1
        · intro rc since hlatest
          obtain ⟨hdata, hreceived, htimeout, henabled, hcallers⟩ :=
            hs.held rc since hlatest
          exact ⟨hdata, hreceived, htimeout,
            fun hnow => henabled (henabled' hnow), hcallers⟩

/-! ## Transmissions -/

theorem transmit_current {s : RcRun} {vals : Vector UInt16 8} :
    (s.transmit vals).OverridesCurrent ↔
      s.OverridesCurrent ∧ Justifies vals s.now s.latest := by
  constructor
  · intro hcurrent
    refine ⟨fun o ho => hcurrent o (List.mem_append_left _ ho), ?_⟩
    exact hcurrent ⟨vals, s.now, s.latest⟩ (by simp [transmit])
  · rintro ⟨hcurrent, hjust⟩ o ho
    rcases List.mem_append.mp ho with hold | hnew
    · exact hcurrent o hold
    · rw [List.mem_singleton.mp hnew]
      exact hjust

/-- An enabled input that is held is a reason to send as long as its timeout
has not elapsed. -/
theorem Held.justifies {s : RcRun} {rc : RCInput} {since : Time}
    (hheld : s.Held rc since) (henabled : rc.Enabled)
    {vals : Vector UInt16 8} (hvals : rc.Channels = vals) :
    Justifies vals s.now (some (rc, since)) ↔ s.InTime := by
  unfold Justifies InTime
  rw [hheld.received, hheld.timeout]
  exact ⟨fun hjust => hjust.2.2, fun htime => ⟨henabled, hvals, htime⟩⟩

theorem Current.clientSend {s : RcRun} (hs : s.Current) {k : ℕ}
    {vals : Vector UInt16 8} (hvals : s.callers[k]? = some vals) :
    Justifies vals s.now s.latest ↔ s.InTime := by
  have hmem := List.mem_of_getElem? hvals
  cases hlatest : s.latest with
  | none =>
      rw [(hs.nothing hlatest).2] at hmem
      cases hmem
  | some accepted =>
      obtain ⟨rc, since⟩ := accepted
      have hheld := hs.held rc since hlatest
      obtain ⟨henabled, hchannels⟩ := hheld.callers vals hmem
      exact hheld.justifies henabled hchannels

theorem Current.iteration {s : RcRun} (hs : s.Current)
    (henabled : s.listener.enabled) :
    Justifies s.listener.data s.now s.latest ↔ s.InTime := by
  cases hlatest : s.latest with
  | none => exact absurd henabled (hs.nothing hlatest).1
  | some accepted =>
      obtain ⟨rc, since⟩ := accepted
      have hheld := hs.held rc since hlatest
      exact hheld.justifies (hheld.enabled henabled) hheld.data.symm

theorem OverridesCurrent.step {s next : RcRun} {event : RcEvent}
    (hs : s.Current) (hcurrent : s.OverridesCurrent)
    (hguard : s.Timely event) (hstep : s.step event = some next) :
    next.OverridesCurrent := by
  cases event with
  | advance d =>
      simp only [RcRun.step, Option.some.injEq] at hstep
      subst hstep
      exact hcurrent
  | handoff rc =>
      simp only [RcRun.step, Option.some.injEq] at hstep
      subst hstep
      exact hcurrent
  | clientSend k =>
      obtain ⟨vals, hvals, rfl⟩ := clientSend_cases hstep
      exact transmit_current.mpr
        ⟨hcurrent, (hs.clientSend hvals).mpr hguard⟩
  | iteration =>
      rcases iteration_cases hstep with
        ⟨-, rfl⟩ | ⟨henabled, enabled, -, rfl⟩
      · exact hcurrent
      · exact transmit_current.mpr
          ⟨hcurrent, (hs.iteration henabled).mpr (hguard henabled)⟩

/-- After a step that breaks the condition, an override is sent that the
input accepted last does not justify, at once or by the client that was
overtaken. -/
theorem exists_outdated_override {s next : RcRun} {event : RcEvent}
    (hs : s.Current) (hstep : s.step event = some next)
    (hguard : ¬ s.Timely event) :
    ∃ later t, Run RcRun.step next later t ∧ ¬ t.OverridesCurrent := by
  cases event with
  | advance d => exact absurd trivial hguard
  | handoff rc =>
      simp only [RcRun.step, Option.some.injEq] at hstep
      simp only [Timely, not_forall] at hguard
      obtain ⟨vals, hvals, hdiffers⟩ := hguard
      obtain ⟨k, hk⟩ := List.getElem?_of_mem hvals
      have hpending : next.callers[k]? = some vals := by
        have hlt := (List.getElem?_eq_some_iff.mp hk).1
        rw [← hstep]
        simp only
        split
        · rw [List.getElem?_append_left hlt, hk]
        · exact hk
      refine ⟨[] ++ [.clientSend k],
        { next.transmit vals with callers := next.callers.eraseIdx k },
        .snoc .nil trivial (by simp [RcRun.step, hpending]), ?_⟩
      intro hcurrent
      have hjust := (transmit_current.mp hcurrent).2
      rw [← hstep] at hjust
      exact hdiffers ⟨hjust.1, hjust.2.1⟩
  | clientSend k =>
      obtain ⟨vals, hvals, rfl⟩ := clientSend_cases hstep
      refine ⟨[], _, .nil, ?_⟩
      intro hcurrent
      exact hguard ((hs.clientSend hvals).mp
        (transmit_current.mp hcurrent).2)
  | iteration =>
      simp only [Timely, Classical.not_imp] at hguard
      rcases iteration_cases hstep with
        ⟨hdisabled, -⟩ | ⟨henabled, enabled, -, rfl⟩
      · exact absurd hguard.1 hdisabled
      · refine ⟨[], _, .nil, ?_⟩
        intro hcurrent
        exact hguard.2 ((hs.iteration henabled).mp
          (transmit_current.mp hcurrent).2)

/-- As long as no input overtakes a client that still has to send, and
nothing is sent after the timeout, every override is that of the enabled
input accepted last; and the first step that breaks this leads to one that is
not. -/
theorem overrides_current (v : Vehicle) (now : Time)
    {events : List RcEvent} {s : RcRun}
    (hrun : GuardedRun step Timely (initial v now) events s) :
    s.OverridesCurrent ∧
      ∀ event next, s.step event = some next → ¬ s.Timely event →
        ∃ later t, Run step next later t ∧ ¬ t.OverridesCurrent := by
  have hinv : s.Current ∧ s.OverridesCurrent := by
    apply hrun.invariant
    · rintro s event next ⟨hs, hcurrent⟩ hguard hstep
      exact ⟨hs.step hguard hstep, hcurrent.step hs hguard hstep⟩
    · refine ⟨initial_current v now, ?_⟩
      intro o ho
      simp [initial] at ho
  exact ⟨hinv.2, fun event next hstep hguard =>
    exists_outdated_override hinv.1 hstep hguard⟩

theorem overrides_current_single :
    ∃ s, Run step (initial (Vehicle.NewVehicle (NewEncoder none) 0) 0)
        [.handoff ⟨true, 500, Vector.replicate 8 1500⟩, .clientSend 0,
          .advance 200000000, .iteration] s ∧
      s.OverridesCurrent := by
  have hexec : (exec step Timely
      (initial (Vehicle.NewVehicle (NewEncoder none) 0) 0)
      [.handoff ⟨true, 500, Vector.replicate 8 1500⟩, .clientSend 0,
        .advance 200000000, .iteration]).isSome := by
    decide
  obtain ⟨s, hrun⟩ := GuardedRun.of_exec_isSome hexec
  exact ⟨s, hrun.run,
    (overrides_current (Vehicle.NewVehicle (NewEncoder none) 0) 0 hrun).1⟩

/-- One client enables the override and hands its input over, another
disables it, and then the first client sends its input. -/
theorem override_after_disable :
    ¬ ∀ events s,
      Run step (initial (Vehicle.NewVehicle (NewEncoder none) 0) 0)
        events s → s.OverridesCurrent := by
  intro hall
  let events : List RcEvent :=
    [.handoff ⟨true, 500, Vector.replicate 8 1500⟩,
      .handoff ⟨false, 0, Vector.replicate 8 1500⟩, .clientSend 0]
  have hexec : (exec step (fun _ _ => True)
      (initial (Vehicle.NewVehicle (NewEncoder none) 0) 0) events).map
        (fun s => s.transmitted.map (fun o =>
          (o.latest.map fun accepted => accepted.1.Enabled))) =
            some [some false] := by
    decide
  obtain ⟨s, hrun, heq⟩ := GuardedRun.of_exec_map hexec
  have hcurrent := hall events s hrun
  obtain ⟨o, ho⟩ : ∃ o, s.transmitted = [o] := by
    have hlength := congrArg List.length heq
    rw [List.length_map] at hlength
    exact List.length_eq_one_iff.mp hlength
  rw [ho, List.map_singleton, List.singleton_inj] at heq
  have hjust := hcurrent o (by simp [ho])
  cases hlatest : o.latest with
  | none => simp [hlatest] at heq
  | some accepted =>
      rw [hlatest] at hjust
      simp [hlatest] at heq
      rw [hjust.1] at heq
      cases heq

end RcRun

end DronesmithEngine
