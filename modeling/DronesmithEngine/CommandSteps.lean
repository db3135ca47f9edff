import DronesmithEngine.Vehicle
import Mathlib.Tactic

/-!
# What one step does to the queued commands

Requests, handler calls and acknowledgements, each reduced to its effect on
the queue and on the memory of commands.  Every invariant of the command
queue is derived from the lemmas of this file.
-/

namespace DronesmithEngine

open Mavlink Utils Api

inductive CommandRequest
  | setModeAndArm (updateMode updateArm : Bool) (mode : String)
      (armed : Bool)
  | setHome (lat lon alt : Float32) (relative : Bool)
  | doGenericCommand (op : ℤ) (params : Vector Float32 7)

namespace CommandRequest

def apply (v : Vehicle) : CommandRequest → Vehicle
  | .setModeAndArm updateMode updateArm mode armed =>
      v.SetModeAndArm updateMode updateArm mode armed
  | .setHome lat lon alt relative => v.SetHome lat lon alt relative
  | .doGenericCommand op params => v.DoGenericCommand op params

def op : CommandRequest → ℤ
  | .setModeAndArm _ _ _ _ => 176
  | .setHome _ _ _ _ => 179
  | .doGenericCommand op _ => op

/-- Every request is one push of a fresh command. -/
theorem apply_eq_push (request : CommandRequest) (v : Vehicle) :
    ∃ Command : CommandLong,
      request.apply v = v.pushCommand Command request.op ∧
        Command.Command = UInt16.ofInt request.op := by
  cases request with
  | setModeAndArm updateMode updateArm mode armed => exact ⟨_, rfl, rfl⟩
  | setHome lat lon alt relative => exact ⟨_, rfl, rfl⟩
  | doGenericCommand op params => exact ⟨_, rfl, rfl⟩

end CommandRequest

namespace Vehicle

/-- The queued pointers are in use, and none is queued twice. -/
structure Allocated (v : Vehicle) : Prop where
  lt_next : ∀ x ∈ v.commandQueue.contents, x.value < v.nextCommand
  nodup : (v.commandQueue.contents.map Item.value).Nodup

theorem Allocated.eq_of_value {v : Vehicle} (hv : v.Allocated)
    {x y : Item CmdRef} (hx : x ∈ v.commandQueue.contents)
    (hy : y ∈ v.commandQueue.contents) (hvalue : x.value = y.value) :
    x = y :=
  List.inj_on_of_nodup_map hv.nodup hx hy hvalue

/-! ## Pushing -/

theorem pushCommand_of_lt (v : Vehicle) (Command : CommandLong) (op : ℤ)
    {ref : CmdRef} (hlt : ref < v.nextCommand) :
    (v.pushCommand Command op).commands ref = v.commands ref :=
  Function.update_of_ne hlt.ne _ _

@[simp] theorem pushCommand_self (v : Vehicle) (Command : CommandLong)
    (op : ℤ) :
    (v.pushCommand Command op).commands v.nextCommand =
      ⟨10, 0, Command⟩ :=
  Function.update_self _ _ _

theorem mem_pushCommand {v : Vehicle} {Command : CommandLong} {op : ℤ}
    {x : Item CmdRef} :
    x ∈ (v.pushCommand Command op).commandQueue.contents ↔
      x = ⟨v.nextCommand, op⟩ ∨ x ∈ v.commandQueue.contents := by
  have hperm := v.commandQueue.Push_contents v.nextCommand op
  exact hperm.mem_iff.trans List.mem_cons

theorem Allocated.push {v : Vehicle} (hv : v.Allocated)
    (Command : CommandLong) (op : ℤ) :
    (v.pushCommand Command op).Allocated where
  lt_next := by
    intro x hx
    rcases mem_pushCommand.mp hx with rfl | hold
    · exact Nat.lt_succ_self v.nextCommand
    · exact Nat.lt_succ_of_lt (hv.lt_next x hold)
  nodup := by
    have hperm := (v.commandQueue.Push_contents v.nextCommand op).map
      Item.value
    rw [List.map_cons] at hperm
    apply hperm.nodup_iff.mpr
    rw [List.nodup_cons]
    refine ⟨?_, hv.nodup⟩
    intro hmem
    obtain ⟨x, hx, hvalue⟩ := List.mem_map.mp hmem
    exact absurd hvalue (hv.lt_next x hx).ne

/-! ## Removing and sending -/

theorem mem_of_mem_pop {v : Vehicle} {x y : Item CmdRef}
    (hx : v.commandQueue.Head = some x)
    (hy : y ∈ v.commandQueue.Pop.2.contents) :
    y ∈ v.commandQueue.contents :=
  (CommandQueue.Pop_of_some hx).2.mem_iff.mpr (List.mem_cons_of_mem x hy)

theorem sendCommand_self (v : Vehicle) (ref : CmdRef) :
    (v.sendCommand ref).commands ref =
      { v.commands ref with TimesSent := (v.commands ref).TimesSent + 1 } :=
  Function.update_self _ _ _

theorem sendCommand_of_ne (v : Vehicle) {ref other : CmdRef}
    (hne : other ≠ ref) :
    (v.sendCommand ref).commands other = v.commands other :=
  Function.update_of_ne hne _ _

@[simp] theorem sendCommand_queue (v : Vehicle) (ref : CmdRef) :
    (v.sendCommand ref).commandQueue = v.commandQueue := rfl

theorem sendCommand_status (v : Vehicle) (ref other : CmdRef) :
    ((v.sendCommand ref).commands other).Status =
      (v.commands other).Status := by
  by_cases hsame : other = ref
  · subst hsame
    rw [sendCommand_self]
  · rw [sendCommand_of_ne v hsame]

theorem finished_of_sendCommand {v : Vehicle} (ref other : CmdRef)
    (hfinished : finished (v.commands other)) :
    finished ((v.sendCommand ref).commands other) := by
  by_cases hsame : other = ref
  · subst hsame
    rw [sendCommand_self]
    rcases hfinished with haccepted | hrefused | htimes
    · exact Or.inl haccepted
    · exact Or.inr (Or.inl hrefused)
    · exact Or.inr (Or.inr (Nat.lt_succ_of_lt htimes))
  · rwa [sendCommand_of_ne v hsame]

/-- A handler call does nothing, removes a finished head or sends an
unfinished one. -/
theorem sysOnlineHandler_cases (v : Vehicle) :
    (v.commandQueue.Head = none ∧ v.sysOnlineHandler = (.idle, v)) ∨
    (∃ x, v.commandQueue.Head = some x ∧
      finished (v.commands x.value) ∧
      v.sysOnlineHandler =
        (.removed x.value,
          { v.recordLast (v.commands x.value) with
            commandQueue := v.commandQueue.Pop.2 })) ∨
    (∃ x, v.commandQueue.Head = some x ∧
      ¬ finished (v.commands x.value) ∧
      v.sysOnlineHandler =
        (.sent x.value,
          (v.recordLast (v.commands x.value)).sendCommand x.value)) := by
  cases hhead : v.commandQueue.Head with
  | none => exact Or.inl ⟨rfl, by rw [sysOnlineHandler, hhead]⟩
  | some x =>
      right
      by_cases hfinished : finished (v.commands x.value)
      · left
        refine ⟨x, rfl, hfinished, ?_⟩
        rw [sysOnlineHandler, hhead]
        exact if_pos hfinished
      · right
        refine ⟨x, rfl, hfinished, ?_⟩
        rw [sysOnlineHandler, hhead]
        exact if_neg hfinished

theorem Allocated.of_pop {v next : Vehicle} (hv : v.Allocated)
    {x : Item CmdRef} (hx : v.commandQueue.Head = some x)
    (hqueue : next.commandQueue = v.commandQueue.Pop.2)
    (hnext : next.nextCommand = v.nextCommand) : next.Allocated where
  lt_next := by
    intro y hy
    rw [hqueue] at hy
    rw [hnext]
    exact hv.lt_next y (mem_of_mem_pop hx hy)
  nodup := by
    have hperm := (CommandQueue.Pop_of_some hx).2.map Item.value
    have hold := hperm.nodup_iff.mp hv.nodup
    rw [List.map_cons, List.nodup_cons] at hold
    rw [hqueue]
    exact hold.2

theorem Allocated.of_same {v next : Vehicle} (hv : v.Allocated)
    (hqueue : next.commandQueue = v.commandQueue)
    (hnext : next.nextCommand = v.nextCommand) : next.Allocated where
  lt_next := by rw [hqueue, hnext]; exact hv.lt_next
  nodup := by rw [hqueue]; exact hv.nodup

/-! ## Acknowledgements -/

theorem setStatus_self (v : Vehicle) (ref : CmdRef) (status : ℕ) :
    (v.setStatus ref status).commands ref =
      { v.commands ref with Status := status } :=
  Function.update_self _ _ _

theorem setStatus_of_ne (v : Vehicle) {ref other : CmdRef}
    (hne : other ≠ ref) (status : ℕ) :
    (v.setStatus ref status).commands other = v.commands other :=
  Function.update_of_ne hne _ _

@[simp] theorem setStatus_queue (v : Vehicle) (ref : CmdRef)
    (status : ℕ) :
    (v.setStatus ref status).commandQueue = v.commandQueue := rfl

@[simp] theorem setStatus_next (v : Vehicle) (ref : CmdRef) (status : ℕ) :
    (v.setStatus ref status).nextCommand = v.nextCommand := rfl

/-- The head is the command an acknowledgement is taken to answer. -/
def Matches (v : Vehicle) (m : CommandAck) (x : Item CmdRef) : Prop :=
  v.commandQueue.Head = some x ∧ x.priority = m.Command.toNat

/-- An acknowledgement changes nothing but the status of a head with its op
number. -/
theorem UpdateFromAck_cases (v : Vehicle) (m : CommandAck) :
    (v.UpdateFromAck m = v ∧ ∀ x, ¬ v.Matches m x) ∨
    (∃ x, v.Matches m x ∧
      v.UpdateFromAck m = v.setStatus x.value m.Result.toNat) := by
  cases hhead : v.commandQueue.Head with
  | none =>
      left
      refine ⟨by rw [UpdateFromAck, hhead], ?_⟩
      rintro x ⟨hx, -⟩
      rw [hhead] at hx
      cases hx
  | some x =>
      by_cases hop : x.priority = m.Command.toNat
      · right
        refine ⟨x, ⟨hhead, hop⟩, ?_⟩
        rw [UpdateFromAck, hhead]
        exact if_pos hop
      · left
        refine ⟨?_, ?_⟩
        · rw [UpdateFromAck, hhead]
          exact if_neg hop
        · rintro y ⟨hy, hopy⟩
          rw [hhead] at hy
          cases hy
          exact hop hopy

@[simp] theorem UpdateFromAck_next (v : Vehicle) (m : CommandAck) :
    (v.UpdateFromAck m).nextCommand = v.nextCommand := by
  rcases v.UpdateFromAck_cases m with ⟨hsame, -⟩ | ⟨x, -, hset⟩
  · rw [hsame]
  · rw [hset, setStatus_next]

@[simp] theorem UpdateFromAck_queue (v : Vehicle) (m : CommandAck) :
    (v.UpdateFromAck m).commandQueue = v.commandQueue := by
  rcases v.UpdateFromAck_cases m with ⟨hsame, -⟩ | ⟨x, -, hset⟩
  · rw [hsame]
  · rw [hset, setStatus_queue]

/-! ## Counting transmissions -/

/-- `TimesSent` counts how often a command occurs among those sent. -/
structure SendLedger (v : Vehicle) (sent : List CmdRef) : Prop where
  allocated : v.Allocated
  sent_lt : ∀ ref ∈ sent, ref < v.nextCommand
  timesSent : ∀ ref, ref < v.nextCommand →
    (v.commands ref).TimesSent = sent.count ref

@[simp] theorem newVehicle_contents (writer : Encoder) (now : Time) :
    (NewVehicle writer now).commandQueue.contents = [] := rfl

theorem newVehicle_sendLedger (writer : Encoder) (api : VehicleApi)
    (now : Time) :
    ({ NewVehicle writer now with api := api } :
      Vehicle).SendLedger [] where
  allocated := ⟨by simp, by simp⟩
  sent_lt := by simp
  timesSent ref hlt := absurd hlt (Nat.not_lt_zero ref)

theorem SendLedger.mem_sent {v : Vehicle} {sent : List CmdRef}
    (hs : v.SendLedger sent) {x : Item CmdRef}
    (hx : x ∈ v.commandQueue.contents) :
    x.value ∈ sent ↔ 0 < (v.commands x.value).TimesSent := by
  rw [hs.timesSent x.value (hs.allocated.lt_next x hx), List.count_pos_iff]

theorem SendLedger.push {v : Vehicle} {sent : List CmdRef}
    (hs : v.SendLedger sent) (Command : CommandLong) (op : ℤ) :
    (v.pushCommand Command op).SendLedger sent where
  allocated := hs.allocated.push Command op
  sent_lt ref hmem := Nat.lt_succ_of_lt (hs.sent_lt ref hmem)
  timesSent := by
    intro ref hlt
    rcases Nat.lt_succ_iff_lt_or_eq.mp hlt with hold | hnew
    · rw [pushCommand_of_lt _ _ _ hold]
      exact hs.timesSent ref hold
    · have hfresh : ref ∉ sent :=
        fun hmem => absurd hnew (hs.sent_lt ref hmem).ne
      rw [hnew, pushCommand_self, ← hnew,
        List.count_eq_zero_of_not_mem hfresh]

theorem SendLedger.pop {v next : Vehicle} {sent : List CmdRef}
    (hs : v.SendLedger sent) {x : Item CmdRef}
    (hx : v.commandQueue.Head = some x)
    (hqueue : next.commandQueue = v.commandQueue.Pop.2)
    (hnext : next.nextCommand = v.nextCommand)
    (hcommands : next.commands = v.commands) : next.SendLedger sent where
  allocated := hs.allocated.of_pop hx hqueue hnext
  sent_lt := by rw [hnext]; exact hs.sent_lt
  timesSent := by rw [hnext, hcommands]; exact hs.timesSent

theorem SendLedger.send {v : Vehicle} {sent : List CmdRef}
    (hs : v.SendLedger sent) {ref : CmdRef} (hlt : ref < v.nextCommand) :
    (v.sendCommand ref).SendLedger (sent ++ [ref]) where
  allocated := hs.allocated.of_same rfl rfl
  sent_lt := by
    intro other hmem
    rcases List.mem_append.mp hmem with hold | hnew
    · exact hs.sent_lt other hold
    · rw [List.mem_singleton.mp hnew]
      exact hlt
  timesSent := by
    intro other hother
    rw [List.count_append]
    by_cases hsame : other = ref
    · subst hsame
      rw [sendCommand_self, List.count_singleton_self]
      exact congrArg (· + 1) (hs.timesSent other hlt)
    · rw [sendCommand_of_ne _ hsame, List.count_singleton,
        if_neg (by simpa using Ne.symm hsame)]
      exact hs.timesSent other hother

theorem SendLedger.recordLast {v : Vehicle} {sent : List CmdRef}
    (hs : v.SendLedger sent) (cmd : VehicleCommand) :
    (v.recordLast cmd).SendLedger sent :=
  ⟨hs.allocated.of_same rfl rfl, hs.sent_lt, hs.timesSent⟩

theorem SendLedger.ack {v : Vehicle} {sent : List CmdRef}
    (hs : v.SendLedger sent) (m : CommandAck) :
    (v.UpdateFromAck m).SendLedger sent := by
  rcases v.UpdateFromAck_cases m with ⟨hsame, -⟩ | ⟨x, -, hset⟩
  · rw [hsame]
    exact hs
  · rw [hset]
    refine ⟨hs.allocated.of_same rfl rfl, hs.sent_lt, ?_⟩
    intro ref href
    rw [← hs.timesSent ref href]
    by_cases hsame : ref = x.value
    · subst hsame
      rw [setStatus_self]
    · rw [setStatus_of_ne _ hsame]

end Vehicle

end DronesmithEngine
