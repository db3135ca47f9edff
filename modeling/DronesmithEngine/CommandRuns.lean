import DronesmithEngine.CommandSteps
import DronesmithEngine.LabelledRuns
import Mathlib.Tactic

/-!
# Runs of requests, handler calls and acknowledgements

The three parties that share the command queue, each of whose calls is one
step here.  A run records which commands were transmitted and for which an
accepting acknowledgement has arrived; the code knows neither.  An
acknowledgement names an op number only, so `answers` says which transmission
caused it, if any did.
-/

namespace DronesmithEngine

open Mavlink Utils Api LabelledRuns Vehicle

inductive CommandEvent
  | request (request : CommandRequest)
  | tick
  | ack (m : CommandAck) (answers : Option CmdRef)

structure CommandRun where
  vehicle : Vehicle
  sent : List CmdRef
  accepted : List CmdRef

namespace CommandRun

def initial (writer : Encoder) (api : VehicleApi) (now : Time) :
    CommandRun where
  vehicle := { NewVehicle writer now with api := api }
  sent := []
  accepted := []

/-- An acknowledgement that answers a command has its op number, and the
command was transmitted. -/
def CanAnswer (s : CommandRun) (m : CommandAck) (ref : CmdRef) : Prop :=
  ref ∈ s.sent ∧ (s.vehicle.commands ref).Command.Command = m.Command

instance (s : CommandRun) (m : CommandAck) (ref : CmdRef) :
    Decidable (s.CanAnswer m ref) :=
  inferInstanceAs (Decidable (_ ∧ _))

def transmitted : HandlerAction → List CmdRef
  | .sent ref => [ref]
  | _ => []

def step (s : CommandRun) : CommandEvent → Option CommandRun
  | .request request => some { s with vehicle := request.apply s.vehicle }
  | .tick =>
      let (action, vehicle) := s.vehicle.sysOnlineHandler
      some { s with vehicle := vehicle, sent := s.sent ++ transmitted action }
  | .ack m none => some { s with vehicle := s.vehicle.UpdateFromAck m }
  | .ack m (some ref) =>
      if s.CanAnswer m ref then
        some
          { s with
            vehicle := s.vehicle.UpdateFromAck m
            accepted :=
              if m.Result.toNat = MAV_RESULT_ACCEPTED then
                s.accepted ++ [ref]
              else s.accepted }
      else none

/-! ## Transmissions -/

structure Ledger (s : CommandRun) : Prop where
  sends : s.vehicle.SendLedger s.sent
  accepted_lt : ∀ ref ∈ s.accepted, ref < s.vehicle.nextCommand

theorem initial_ledger (writer : Encoder) (api : VehicleApi)
    (now : Time) : (initial writer api now).Ledger where
  sends := newVehicle_sendLedger writer api now
  accepted_lt := by simp [initial]

theorem Ledger.tick {s : CommandRun} (hs : s.Ledger) :
    ({ s with
      vehicle := s.vehicle.sysOnlineHandler.2
      sent := s.sent ++ transmitted s.vehicle.sysOnlineHandler.1 } :
      CommandRun).Ledger := by
  rcases s.vehicle.sysOnlineHandler_cases with
    ⟨-, hidle⟩ | ⟨x, hx, -, hremoved⟩ | ⟨x, hx, -, hsent⟩
  · rw [hidle]
    simpa [transmitted] using hs
  · rw [hremoved]
    simp only [transmitted, List.append_nil]
    exact ⟨hs.sends.pop hx rfl rfl rfl, hs.accepted_lt⟩
  · rw [hsent]
    have hlt := hs.sends.allocated.lt_next x (CommandQueue.Head_mem hx)
    exact ⟨(hs.sends.recordLast (s.vehicle.commands x.value)).send hlt,
      hs.accepted_lt⟩

theorem Ledger.ack {s : CommandRun} (hs : s.Ledger) (m : CommandAck)
    {accepted : List CmdRef}
    (haccepted : ∀ ref ∈ accepted, ref ∈ s.accepted ∨ ref ∈ s.sent) :
    ({ s with
      vehicle := s.vehicle.UpdateFromAck m
      accepted := accepted } : CommandRun).Ledger where
  sends := hs.sends.ack m
  accepted_lt := by
    intro ref hmem
    rw [UpdateFromAck_next]
    rcases haccepted ref hmem with hold | hsent
    · exact hs.accepted_lt ref hold
    · exact hs.sends.sent_lt ref hsent

theorem Ledger.step {s next : CommandRun} {event : CommandEvent}
    (hs : s.Ledger) (hstep : s.step event = some next) : next.Ledger := by
  cases event with
  | request request =>
      obtain ⟨Command, hpush, -⟩ := request.apply_eq_push s.vehicle
      simp only [CommandRun.step, hpush, Option.some.injEq] at hstep
      subst hstep
      exact ⟨hs.sends.push Command request.op,
        fun ref hmem => Nat.lt_succ_of_lt (hs.accepted_lt ref hmem)⟩
  | tick =>
      simp only [CommandRun.step, Option.some.injEq] at hstep
      subst hstep
      exact hs.tick
  | ack m answers =>
      cases answers with
      | none =>
          simp only [CommandRun.step, Option.some.injEq] at hstep
          subst hstep
          exact hs.ack m (fun ref hmem => Or.inl hmem)
      | some ref =>
          by_cases hcan : s.CanAnswer m ref
          · simp only [CommandRun.step, hcan, if_true,
              Option.some.injEq] at hstep
            subst hstep
            apply hs.ack m
            intro other hmem
            split at hmem
            · rcases List.mem_append.mp hmem with hold | hnew
              · exact Or.inl hold
              · rw [List.mem_singleton.mp hnew]
                exact Or.inr hcan.1
            · exact Or.inl hmem
          · simp [CommandRun.step, hcan] at hstep

theorem step_ack {s next : CommandRun} {m : CommandAck}
    {answers : Option CmdRef} (hstep : s.step (.ack m answers) = some next) :
    next.vehicle = s.vehicle.UpdateFromAck m ∧ next.sent = s.sent := by
  cases answers with
  | none =>
      simp only [CommandRun.step, Option.some.injEq] at hstep
      subst hstep
      exact ⟨rfl, rfl⟩
  | some ref =>
      by_cases hcan : s.CanAnswer m ref
      · simp only [CommandRun.step, hcan, if_true, Option.some.injEq] at hstep
        subst hstep
        exact ⟨rfl, rfl⟩
      · simp [CommandRun.step, hcan] at hstep

/-! ## Accepted commands were sent -/

/-- Every queued command that counts as accepted has been transmitted. -/
def AcceptedAreSent (s : CommandRun) : Prop :=
  ∀ x ∈ s.vehicle.commandQueue.contents,
    (s.vehicle.commands x.value).Status = MAV_RESULT_ACCEPTED →
      x.value ∈ s.sent

/-- An accepting acknowledgement does not find a head with its op number that
was never sent. -/
def AnswersSent (s : CommandRun) : CommandEvent → Prop
  | .ack m _ =>
      m.Result.toNat = MAV_RESULT_ACCEPTED →
        ∀ x ∈ s.vehicle.commandQueue.Head, x.priority = m.Command.toNat →
          0 < (s.vehicle.commands x.value).TimesSent
  | _ => True

instance (s : CommandRun) : ∀ event, Decidable (s.AnswersSent event)
  | .request _ => .isTrue trivial
  | .tick => .isTrue trivial
  | .ack _ _ => inferInstanceAs (Decidable (_ → _))

theorem AcceptedAreSent.push {s : CommandRun} (hs : s.Ledger)
    (haccepted : s.AcceptedAreSent) (Command : CommandLong) (op : ℤ) :
    ({ s with vehicle := s.vehicle.pushCommand Command op } :
      CommandRun).AcceptedAreSent := by
  intro x hx hstatus
  rcases mem_pushCommand.mp hx with rfl | hold
  · simp at hstatus
  · rw [pushCommand_of_lt _ _ _ (hs.sends.allocated.lt_next x hold)] at hstatus
    exact haccepted x hold hstatus

theorem AcceptedAreSent.tick {s : CommandRun}
    (haccepted : s.AcceptedAreSent) :
    ({ s with
      vehicle := s.vehicle.sysOnlineHandler.2
      sent := s.sent ++ transmitted s.vehicle.sysOnlineHandler.1 } :
      CommandRun).AcceptedAreSent := by
  intro y hy hstatus
  apply List.mem_append_left
  rcases s.vehicle.sysOnlineHandler_cases with
    ⟨-, hidle⟩ | ⟨x, hx, -, hremoved⟩ | ⟨x, hx, -, hsent⟩
  · rw [hidle] at hy hstatus
    exact haccepted y hy hstatus
  · rw [hremoved] at hy hstatus
    exact haccepted y (mem_of_mem_pop hx hy) hstatus
  · rw [hsent] at hy hstatus
    rw [sendCommand_status] at hstatus
    exact haccepted y hy hstatus

theorem AcceptedAreSent.update_iff {s next : CommandRun} (hs : s.Ledger)
    (haccepted : s.AcceptedAreSent) {m : CommandAck}
    (hvehicle : next.vehicle = s.vehicle.UpdateFromAck m)
    (hsent : next.sent = s.sent) (answers : Option CmdRef) :
    next.AcceptedAreSent ↔ s.AnswersSent (.ack m answers) := by
  rcases s.vehicle.UpdateFromAck_cases m with ⟨hsame, hno⟩ | ⟨x, hx, hset⟩
  · rw [hsame] at hvehicle
    constructor
    · intro _ _ x hx hop
      exact absurd ⟨hx, hop⟩ (hno x)
    · intro _ y hy hstatus
      rw [hvehicle] at hy hstatus
      rw [hsent]
      exact haccepted y hy hstatus
  · rw [hset] at hvehicle
    have hmem := CommandQueue.Head_mem hx.1
    constructor
    · intro hnext hresult y hy _
      obtain rfl : x = y := Option.some.inj (hx.1.symm.trans hy)
      rw [← hs.sends.mem_sent hmem, ← hsent]
      apply hnext x
      · rw [hvehicle]
        exact hmem
      · rw [hvehicle, setStatus_self]
        exact hresult
    · intro hguard y hy hstatus
      rw [hvehicle] at hy hstatus
      rw [hsent]
      by_cases hsame : y.value = x.value
      · rw [hsame, setStatus_self] at hstatus
        rw [hsame, hs.sends.mem_sent hmem]
        exact hguard hstatus x hx.1 hx.2
      · rw [setStatus_of_ne _ hsame] at hstatus
        exact haccepted y hy hstatus

theorem AcceptedAreSent.step_iff {s next : CommandRun}
    {event : CommandEvent} (hs : s.Ledger) (haccepted : s.AcceptedAreSent)
    (hstep : s.step event = some next) :
    next.AcceptedAreSent ↔ s.AnswersSent event := by
  cases event with
  | request request =>
      obtain ⟨Command, hpush, -⟩ := request.apply_eq_push s.vehicle
      simp only [CommandRun.step, hpush, Option.some.injEq] at hstep
      subst hstep
      exact iff_of_true (haccepted.push hs Command request.op) trivial
  | tick =>
      simp only [CommandRun.step, Option.some.injEq] at hstep
      subst hstep
      exact iff_of_true haccepted.tick trivial
  | ack m answers =>
      obtain ⟨hvehicle, hsent⟩ := step_ack hstep
      exact haccepted.update_iff hs hvehicle hsent answers

/-- As long as no accepting acknowledgement meets a head that was never sent,
every queued command that counts as accepted has been transmitted; and the
first such acknowledgement breaks this. -/
theorem accepted_only_if_sent (writer : Encoder) (api : VehicleApi)
    (now : Time) {events : List CommandEvent} {s : CommandRun}
    (hrun : GuardedRun step AnswersSent (initial writer api now) events s) :
    s.AcceptedAreSent ∧
      ∀ event next, s.step event = some next →
        (next.AcceptedAreSent ↔ s.AnswersSent event) := by
  have hinv : s.Ledger ∧ s.AcceptedAreSent := by
    apply hrun.invariant
    · rintro s event next ⟨hs, haccepted⟩ hguard hstep
      exact ⟨hs.step hstep, (haccepted.step_iff hs hstep).mpr hguard⟩
    · refine ⟨initial_ledger writer api now, ?_⟩
      intro x hx
      simp [initial] at hx
  obtain ⟨hs, haccepted⟩ := hinv
  exact ⟨haccepted, fun event next hstep => haccepted.step_iff hs hstep⟩

theorem accepted_only_if_sent_single :
    ∃ s, Run step (initial (NewEncoder none) {} 0)
        [.request (.doGenericCommand 22 (Vector.replicate 7 0)), .tick,
          .ack ⟨22, 0⟩ (some 0)] s ∧
      s.AcceptedAreSent := by
  have hexec : (exec step AnswersSent (initial (NewEncoder none) {} 0)
      [.request (.doGenericCommand 22 (Vector.replicate 7 0)), .tick,
        .ack ⟨22, 0⟩ (some 0)]).isSome := by
    decide +kernel
  obtain ⟨s, hrun⟩ := GuardedRun.of_exec_isSome hexec
  exact ⟨s, hrun.run,
    (accepted_only_if_sent (NewEncoder none) {} 0 hrun).1⟩

/-- Two commands with one op number.  The first is sent twice, so it is
acknowledged twice, and the second acknowledgement accepts the other command
before it was ever sent. -/
theorem repeated_ack_accepts_unsent :
    ¬ ∀ events s,
      Run step (initial (NewEncoder none) {} 0) events s →
        s.AcceptedAreSent := by
  intro hall
  let events : List CommandEvent :=
    [.request (.doGenericCommand 176 (Vector.replicate 7 0)), .tick, .tick,
      .request (.doGenericCommand 176 (Vector.replicate 7 0)),
      .ack ⟨176, 0⟩ (some 0), .tick, .ack ⟨176, 0⟩ (some 0)]
  have hexec : (exec step (fun _ _ => True)
      (initial (NewEncoder none) {} 0) events).map (fun s =>
        (s.vehicle.commandQueue.Head, (s.vehicle.commands 1).Status,
          s.sent)) = some (some ⟨1, 176⟩, MAV_RESULT_ACCEPTED, [0, 0]) := by
    decide +kernel
  obtain ⟨s, hrun, heq⟩ := GuardedRun.of_exec_map hexec
  simp only [Prod.mk.injEq] at heq
  obtain ⟨hhead, hstatus, hsent⟩ := heq
  have hmem := hall events s hrun ⟨1, 176⟩
    (CommandQueue.Head_mem hhead) hstatus
  rw [hsent] at hmem
  exact absurd hmem (by decide)

end CommandRun

end DronesmithEngine
