import DronesmithEngine.CommandResponse
import DronesmithEngine.VehicleEvents
import Mathlib.Tactic

/-!
# The gate and the queue

A command leaves the queue through iterations of `stateHandler`, but an
iteration serves the queue only when the parameters are complete or the
handler has given them up.  From ten seconds after the parameters were asked
for, the gate takes at most one iteration away from the queue, whatever the
download does.
-/

namespace DronesmithEngine

open Mavlink Utils Api LabelledRuns EventHistories PriorityService

namespace VehicleEvent

/-- The vehicle forgets the parameters that it has got. -/
def Resets : VehicleEvent → Prop
  | .init .scrub => True
  | .init .refreshParams => True
  | _ => False

/-- The request of a command that does not stand behind `p`. -/
def requestsUpTo (p : ℤ) : VehicleEvent → Bool
  | .init (.command _ op) => decide (op ≤ p)
  | _ => false

/-- An iteration of `stateHandler` after a point in time. -/
def iteratesAfter (deadline : Time) : Time × VehicleEvent → Bool
  | (now, .init .stateHandler) => decide (deadline < now)
  | _ => false

theorem iteratesAfter_iff {deadline : Time} {event : Time × VehicleEvent} :
    iteratesAfter deadline event = true ↔
      ∃ now, deadline < now ∧ event = (now, .init .stateHandler) := by
  obtain ⟨now, event⟩ := event
  constructor
  · intro hlate
    unfold iteratesAfter at hlate
    split at hlate
    next heq =>
      cases heq
      exact ⟨now, of_decide_eq_true hlate, rfl⟩
    next => cases hlate
  · intro hlate
    obtain ⟨late, hlate, heq⟩ := hlate
    rw [heq]
    exact decide_eq_true hlate

end VehicleEvent

namespace StateAction

def isOnline : StateAction → Bool
  | .online _ => true
  | _ => false

end StateAction

namespace InitVehicle

/-- An event that calls `sysOnlineHandler`. -/
def serves (v : InitVehicle) : Time × VehicleEvent → Bool
  | (now, .init .stateHandler) => (v.stateHandler now).1.isOnline
  | _ => false

/-- From when on the handler does not wait for the parameters. -/
def deadline (v : InitVehicle) : Time := v.ParamsTimer + 10 * second

end InitVehicle

/-! ## The gate -/

namespace InitProgress

theorem receivePacket_gotCaps {g : InitProgress} (hcaps : g.gotCaps)
    (p : Packet) : (g.receivePacket p).gotCaps := by
  unfold receivePacket
  cases wholeMessage p with
  | none => exact hcaps
  | some m =>
      cases m with
      | autopilotVersion m => rfl
      | _ => exact hcaps

theorem receivePacket_paramsRequested {g : InitProgress}
    (hrequested : g.paramsRequested) (p : Packet) :
    (g.receivePacket p).paramsRequested := by
  unfold receivePacket
  cases wholeMessage p with
  | none => exact hrequested
  | some m =>
      cases m with
      | paramValue m => rfl
      | _ => exact hrequested

end InitProgress

@[simp] theorem Api.VehicleApi.progress_CheckSubSystem (v : VehicleApi)
    (name : String) (now : Time) :
    (v.CheckSubSystem name now).progress = v.progress := by
  unfold CheckSubSystem
  split
  · rfl
  · split <;> rfl

/-- What a vehicle keeps as long as nothing resets it. -/
structure KeepsParams (v w : InitVehicle) : Prop where
  timer : w.ParamsTimer = v.ParamsTimer
  forced : v.paramForceInit → w.paramForceInit
  gotCaps : w.progress.gotCaps
  paramsRequested : w.progress.paramsRequested

namespace KeepsParams

variable {v w : InitVehicle}

theorem of_progress (hready : v.progress.Ready)
    (hprogress : w.progress = v.progress)
    (htimer : w.ParamsTimer = v.ParamsTimer)
    (hforced : v.paramForceInit → w.paramForceInit) : KeepsParams v w where
  timer := htimer
  forced := hforced
  gotCaps := hprogress ▸ hready.gotCaps
  paramsRequested := hprogress ▸ hready.paramsRequested

theorem of_stateStep (hready : v.progress.Ready) {now : Time}
    {action : StateAction} (hstep : StateStep v now action w) :
    KeepsParams v w := by
  cases hstep with
  | scrubbed hoffline =>
      rw [hready.online] at hoffline
      cases hoffline
  | askedInfo hw honline hcaps =>
      rw [hready.gotCaps] at hcaps
      cases hcaps
  | askedParams hw honline hparams =>
      rw [hready.paramsRequested] at hparams
      cases hparams
  | online hw _ _ =>
      exact of_progress hready (congrArg VehicleApi.progress hw) rfl id
  | forced hw _ _ _ _ =>
      exact of_progress hready (congrArg VehicleApi.progress hw) rfl
        fun _ => rfl
  | waiting hw _ =>
      exact of_progress hready (congrArg VehicleApi.progress hw) rfl id

theorem happen (hready : v.progress.Ready) {event : Time × VehicleEvent}
    (hkept : ¬ event.2.Resets) : KeepsParams v (v.happen event) := by
  obtain ⟨now, event⟩ := event
  cases event with
  | init event =>
      cases event with
      | wait d => exact of_progress hready rfl rfl id
      | packet p =>
          have hprogress := v.packet_progress p now
          refine ⟨rfl, id, ?_, ?_⟩
          · simp only [InitVehicle.happen, InitVehicle.apply, hprogress]
            exact InitProgress.receivePacket_gotCaps hready.gotCaps p
          · simp only [InitVehicle.happen, InitVehicle.apply, hprogress]
            exact InitProgress.receivePacket_paramsRequested
              hready.paramsRequested p
      | command Command op => exact of_progress hready rfl rfl id
      | checkSysOnline =>
          rcases v.checkSysOnline_progress now with hsame | hoffline
          · exact of_progress hready hsame rfl id
          · refine ⟨rfl, id, ?_, ?_⟩
            · simp only [InitVehicle.happen, hoffline]
              exact hready.gotCaps
            · simp only [InitVehicle.happen, hoffline]
              exact hready.paramsRequested
      | scrub => exact absurd trivial hkept
      | refreshParams => exact absurd trivial hkept
      | stateHandler =>
          exact of_stateStep hready (v.stateHandler_step now)
  | checkSubSystem name =>
      exact of_progress hready (v.api.progress_CheckSubSystem name now) rfl id
  | SendRCOverride vals enabled timestamp =>
      refine of_progress hready ?_ rfl id
      simp only [InitVehicle.happen, InitVehicle.progress, InitVehicle.api,
        Vehicle.SendRCOverride]
      split <;> rfl
  | _ => exact of_progress hready rfl rfl id

end KeepsParams

namespace InitVehicle

/-- Past the deadline an iteration serves the queue, or it is the one that
gives up waiting. -/
theorem serves_or_forces {v : InitVehicle} (hready : v.progress.Ready)
    {now : Time} (hlate : v.deadline < now) :
    v.serves (now, .init .stateHandler) = true ∨
      v.paramForceInit = false ∧
        (v.stateHandler now).2.paramForceInit = true := by
  have htime : 10 * second < now - v.ParamsTimer := Nat.lt_sub_of_add_lt
    (by rwa [deadline, Nat.add_comm] at hlate)
  have honline : v.api.SysOnline = true := hready.online
  have hcaps : v.api.SysGotCaps = true := hready.gotCaps
  have hparams : v.api.ParamsInit = true := hready.paramsRequested
  rw [serves, stateHandler, if_pos honline, if_neg (not_not_intro hcaps),
    if_neg (not_not_intro hparams)]
  simp only
  rw [if_pos htime]
  split
  next => exact Or.inl rfl
  next hnot =>
    have hforced : v.paramForceInit = false :=
      Bool.eq_false_iff.mpr (not_or.mp hnot).2
    obtain ⟨w, -, heq⟩ := requestEach_eq
      { v with
        missingParams := v.progress.notFound
        paramForceInit := true } v.progress.notFound
    exact Or.inr ⟨hforced, congrArg paramForceInit heq⟩

/-- What a late iteration does not serve it takes from the waiting. -/
theorem late_step {v : InitVehicle} {event : Time × VehicleEvent}
    (hready : v.progress.Ready) (hkeeps : KeepsParams v (v.happen event)) :
    (VehicleEvent.iteratesAfter v.deadline event).toNat +
        (!(v.happen event).paramForceInit).toNat ≤
      (v.serves event).toNat + (!v.paramForceInit).toNat := by
  have hforced : (!(v.happen event).paramForceInit).toNat ≤
      (!v.paramForceInit).toNat := by
    have hstays := hkeeps.forced
    cases hv : v.paramForceInit with
    | false => exact Bool.toNat_le _
    | true => simp [hstays hv]
  by_cases hlate : VehicleEvent.iteratesAfter v.deadline event = true
  · obtain ⟨now, hnow, rfl⟩ := VehicleEvent.iteratesAfter_iff.mp hlate
    rcases serves_or_forces hready hnow with hserves | ⟨hunset, hset⟩
    · rw [hlate, hserves]
      exact Nat.add_le_add_left hforced 1
    · have hnext : (v.happen (now, .init .stateHandler)).paramForceInit =
          true := hset
      rw [hlate, hunset, hnext]
      exact Nat.le_add_left 1 _
  · rw [Bool.eq_false_iff.mpr hlate, Bool.toNat_false, Nat.zero_add]
    exact hforced.trans (Nat.le_add_left _ _)

/-- From a ready vehicle on, while it stays online and nothing resets it, at
most one iteration past the deadline does not serve the queue. -/
theorem late_le_served {v : InitVehicle}
    {events : List (Time × VehicleEvent)} (hready : v.progress.Ready)
    (honline : ∀ before, before <+: events →
      (before.foldl happen v).progress.online)
    (hkept : ∀ event ∈ events, ¬ event.2.Resets) :
    events.countP (VehicleEvent.iteratesAfter v.deadline) ≤
      countAlong happen serves v events + (!v.paramForceInit).toNat := by
  induction events generalizing v with
  | nil => exact Nat.zero_le _
  | cons event events ih =>
      obtain ⟨hfirst, hrest⟩ := List.forall_mem_cons.mp hkept
      have hkeeps := KeepsParams.happen hready hfirst
      have hnext : (v.happen event).progress.Ready :=
        ⟨honline [event] (by simp), hkeeps.gotCaps, hkeeps.paramsRequested⟩
      have hlater := ih hnext
        (fun before hbefore => honline (event :: before)
          (List.cons_prefix_cons.mpr ⟨rfl, hbefore⟩)) hrest
      have hdeadline : (v.happen event).deadline = v.deadline :=
        congrArg (· + 10 * second) hkeeps.timer
      rw [hdeadline] at hlater
      have hone : (VehicleEvent.iteratesAfter v.deadline event).toNat +
          (!(v.happen event).paramForceInit).toNat ≤
            (v.serves event).toNat + (!v.paramForceInit).toNat :=
        late_step hready hkeeps
      rw [countAlong, countP_cons_eq_add]
      omega

end InitVehicle

/-! ## The queue -/

/-- What the service of the queue depends on. -/
structure SameCommands (v w : Vehicle) : Prop where
  commandQueue : w.commandQueue = v.commandQueue
  commands : w.commands = v.commands
  nextCommand : w.nextCommand = v.nextCommand

namespace SameCommands

theorem refl (v : Vehicle) : SameCommands v v := ⟨rfl, rfl, rfl⟩

theorem adoptSystem (v : Vehicle) (p : Packet) :
    SameCommands v (v.adoptSystem p) := by
  unfold Vehicle.adoptSystem
  split <;> exact ⟨rfl, rfl, rfl⟩

theorem requestEach (v : InitVehicle) (missing : List ℕ) :
    SameCommands v.vehicle (v.requestEach missing).vehicle := by
  induction missing generalizing v with
  | nil => exact refl v.vehicle
  | cons i missing ih =>
      obtain ⟨hqueue, hcommands, hnext⟩ :=
        ih (v.sendMAVLink (v.api.RequestParam (UInt64.ofNat i)).Pack)
      exact ⟨hqueue, hcommands, hnext⟩

end SameCommands

/-- A message leaves the commands alone, or it acknowledges one. -/
theorem Vehicle.commands_applyMessage (v : Vehicle) (now : Time)
    (m : Message) :
    SameCommands v (v.applyMessage now m) ∨
      ∃ ack, SameCommands (v.UpdateFromAck ack) (v.applyMessage now m) := by
  cases m with
  | commandAck m => exact Or.inr ⟨m, rfl, rfl, rfl⟩
  | _ => exact Or.inl ⟨rfl, rfl, rfl⟩

/-- An iteration serves the queue, or leaves the commands alone. -/
theorem InitVehicle.commands_stateHandler (v : InitVehicle) (now : Time) :
    ((v.stateHandler now).1.isOnline = true ∧
        (v.stateHandler now).2.vehicle = v.vehicle.sysOnlineHandler.2) ∨
      ((v.stateHandler now).1.isOnline = false ∧
        SameCommands v.vehicle (v.stateHandler now).2.vehicle) := by
  unfold stateHandler
  split
  · split
    · exact Or.inr ⟨rfl, rfl, rfl, rfl⟩
    · split
      · exact Or.inr ⟨rfl, rfl, rfl, rfl⟩
      · simp only
        split
        · exact Or.inl ⟨rfl, rfl⟩
        · split
          · have hsame := SameCommands.requestEach
              { v with
                missingParams := v.progress.notFound
                paramForceInit := true } v.progress.notFound
            exact Or.inr ⟨rfl, hsame⟩
          · exact Or.inr ⟨rfl, SameCommands.requestEach v _⟩
  · exact Or.inr ⟨rfl, rfl, rfl, rfl⟩

namespace CommandRun

/-- The queue of a vehicle, whatever the vehicle has sent. -/
def ofVehicle (v : InitVehicle) : CommandRun := ⟨v.vehicle, [], []⟩

variable {s t : CommandRun} {v : InitVehicle} {w : Workload CmdRef ℤ}

theorem Simulates.congr (hs : s.Simulates w)
    (hsame : SameCommands s.vehicle t.vehicle) : t.Simulates w where
  allocated := hs.allocated.of_same hsame.commandQueue hsame.nextCommand
  waiting ref := by
    rw [Queued, hsame.commandQueue]
    exact hs.waiting ref
  arrived ref := by
    rw [hsame.nextCommand]
    exact hs.arrived ref
  priority := by
    rw [hsame.commandQueue]
    exact hs.priority
  attempts := by
    rw [hsame.commandQueue, hsame.commands]
    exact hs.attempts

theorem Simulates.packet (hs : (ofVehicle v).Simulates w) (now : Time)
    (p : Packet) :
    (ofVehicle (v.happen (now, .init (.packet p)))).Simulates w := by
  have hadopt : (CommandRun.mk (v.vehicle.adoptSystem p) [] []).Simulates w :=
    hs.congr (SameCommands.adoptSystem v.vehicle p)
  change (CommandRun.mk (v.vehicle.processPacket p now) [] []).Simulates w
  rw [Vehicle.processPacket_eq]
  cases readMessage p with
  | none => exact hadopt.congr ⟨rfl, rfl, rfl⟩
  | some read =>
      rcases (v.vehicle.adoptSystem p).commands_applyMessage now read.2 with
        hsame | ⟨ack, hsame⟩
      · exact hadopt.congr hsame
      · have hack : (CommandRun.mk
            ((v.vehicle.adoptSystem p).UpdateFromAck ack) [] []).Simulates w :=
          hadopt.ack rfl
        exact hack.congr hsame

/-- An event of a vehicle is nothing to the queue, or one turn. -/
theorem Simulates.happen (hs : (ofVehicle v).Simulates w)
    (event : Time × VehicleEvent) :
    ((ofVehicle (v.happen event)).Simulates w ∧ v.serves event = false ∧
      ∀ p, event.2.requestsUpTo p = false) ∨
    ∃ turn w', w.step turn = some w' ∧
      (ofVehicle (v.happen event)).Simulates w' ∧
      turn.isService = v.serves event ∧
      ∀ p, turn.demand p = 7 * (event.2.requestsUpTo p).toNat := by
  obtain ⟨now, event⟩ := event
  cases event with
  | init event =>
      cases event with
      | packet p => exact Or.inl ⟨hs.packet now p, rfl, fun _ => rfl⟩
      | command Command op =>
          let next := ofVehicle (v.happen (now, .init (.command Command op)))
          have hvehicle : next.vehicle =
              (ofVehicle v).vehicle.pushCommand Command op := rfl
          obtain ⟨hturn, hnext⟩ := hs.request Command op hvehicle
          refine Or.inr ⟨_, _, hturn, hnext, rfl, fun p => ?_⟩
          by_cases hle : op ≤ p <;>
            simp [Turn.demand, VehicleEvent.requestsUpTo, hle]
      | stateHandler =>
          rcases v.commands_stateHandler now with
            ⟨honline, hcalled⟩ | ⟨hidle, hsame⟩
          · let next := ofVehicle (v.happen (now, .init .stateHandler))
            have hvehicle : next.vehicle =
                (ofVehicle v).vehicle.sysOnlineHandler.2 := hcalled
            obtain ⟨turn, w', hturn, hnext, hof⟩ := hs.tick hvehicle
            refine Or.inr ⟨turn, w', hturn, hnext, ?_, fun p => ?_⟩
            · rw [hof.service]
              exact honline.symm
            · rw [hof.demand]
              rfl
          · exact Or.inl ⟨hs.congr hsame, hidle, fun _ => rfl⟩
      | _ => exact Or.inl ⟨hs.congr ⟨rfl, rfl, rfl⟩, rfl, fun _ => rfl⟩
  | SendRCOverride vals enabled timestamp =>
      refine Or.inl ⟨hs.congr ?_, rfl, fun _ => rfl⟩
      simp only [ofVehicle, InitVehicle.happen, Vehicle.SendRCOverride]
      split <;> exact ⟨rfl, rfl, rfl⟩
  | _ => exact Or.inl ⟨hs.congr ⟨rfl, rfl, rfl⟩, rfl, fun _ => rfl⟩

/-- The turns of a history of a vehicle. -/
theorem Simulates.history (hs : (ofVehicle v).Simulates w)
    (events : List (Time × VehicleEvent)) :
    ∃ turns w', Run Workload.step w turns w' ∧
      (ofVehicle (events.foldl InitVehicle.happen v)).Simulates w' ∧
      turns.countP Turn.isService =
        countAlong InitVehicle.happen InitVehicle.serves v events ∧
      ∀ p, (turns.map (Turn.demand p)).sum =
        7 * events.countP (fun event => event.2.requestsUpTo p) := by
  induction events generalizing v w with
  | nil => exact ⟨[], w, .nil, hs, rfl, fun _ => rfl⟩
  | cons event events ih =>
      rcases hs.happen event with
        ⟨hnext, hserves, hrequests⟩ | ⟨turn, w', hturn, hnext, hservice, hone⟩
      · obtain ⟨turns, w', hrun, hlast, hcount, hdemand⟩ := ih hnext
        refine ⟨turns, w', hrun, hlast, ?_, fun p => ?_⟩
        · rw [countAlong, hserves, hcount]
          exact (Nat.zero_add _).symm
        · rw [hdemand p, List.countP_cons_of_neg (by simp [hrequests p])]
      · obtain ⟨turns, w'', hrun, hlast, hcount, hdemand⟩ := ih hnext
        refine ⟨turn :: turns, w'', hrun.cons trivial hturn, hlast, ?_,
          fun p => ?_⟩
        · rw [countAlong, countP_cons_eq_add, hservice, hcount]
        · rw [List.map_cons, List.sum_cons, hone p, hdemand p,
            countP_cons_eq_add, Nat.mul_add]

theorem exists_simulates (writer : Encoder) (start : Time)
    (events : List (Time × VehicleEvent)) :
    ∃ w, (ofVehicle (InitVehicle.after writer start events)).Simulates w := by
  have hinitial :
      (ofVehicle (InitVehicle.NewVehicle writer start)).Simulates
        nothingQueued :=
    (initial_simulates writer (Vehicle.NewVehicle writer start).api
      start).congr (SameCommands.refl _)
  obtain ⟨_, w, -, hlast, -, -⟩ := hinitial.history events
  exact ⟨w, hlast⟩

end CommandRun

/-! ## Both together -/

namespace InitVehicle

theorem after_append (writer : Encoder) (start : Time)
    (before events : List (Time × VehicleEvent)) :
    after writer start (before ++ events) =
      events.foldl happen (after writer start before) :=
  List.foldl_append

/-- From the moment on at which a vehicle is online, with its capabilities and
a parameter, and as long as it stays online and nobody resets it: past the
deadline a queued command is gone after one iteration and seven for each
command that does not stand behind it, whether or not the parameters ever
become complete. -/
theorem queued_command_leaves (writer : Encoder) (start : Time)
    {before events : List (Time × VehicleEvent)} {v : InitVehicle}
    (hv : after writer start before = v) (hready : v.progress.Ready)
    (honline : ∀ seen, seen <+: events →
      (after writer start (before ++ seen)).progress.online)
    (hkept : ∀ event ∈ events, ¬ event.2.Resets) {x : Item CmdRef}
    (hx : x ∈ v.vehicle.commandQueue.contents)
    (hlate : 7 * (((CommandRun.ofVehicle v).queuedUpTo x.priority).length +
        events.countP (fun event => event.2.requestsUpTo x.priority)) <
      events.countP (VehicleEvent.iteratesAfter v.deadline)) :
    x ∉ (after writer start
      (before ++ events)).vehicle.commandQueue.contents := by
  intro hstill
  obtain ⟨w, hs⟩ := CommandRun.exists_simulates writer start before
  simp only [after_append, hv] at honline hstill hs
  obtain ⟨turns, w', hturns, ht, hservice, hdemand⟩ := hs.history events
  have hlt := hs.turns_lt hturns ht hx hstill
  have hgate := late_le_served hready honline hkept
  have hone := Bool.toNat_le (!v.paramForceInit)
  rw [hdemand, hservice] at hlt
  omega

/-- A takeoff for a vehicle that has sent one of its three parameters. -/
theorem queued_command_leaves_waiting :
    (⟨0, 22⟩ : Item CmdRef) ∉
      (after (NewEncoder none) 0
        ([(1, .init (.packet heartbeatPacket)),
          (2, .init (.packet versionPacket)),
          (3, .init .stateHandler),
          (4, .init (.packet (paramPacket 3 0 65))),
          (5, .init (.command { Command := 22 } 22))] ++
            List.replicate 8 (11 * second, .init .stateHandler)
        )).vehicle.commandQueue.contents := by
  refine queued_command_leaves (NewEncoder none) 0 rfl (by decide +kernel)
    ?_ ?_ (by decide +kernel) (by decide +kernel)
  · intro seen hseen
    rw [← List.mem_inits] at hseen
    revert seen
    decide +kernel
  · intro event hevent
    rw [List.eq_of_mem_replicate hevent]
    exact id

end InitVehicle

end DronesmithEngine
