import DronesmithEngine.AcceptedCommands
import Mathlib.Tactic

/-!
# The life of a command

From its push to its removal, over every run of requests, handler calls and
acknowledgements.  Next to what was sent, a run records what the handler has
removed.
-/

namespace DronesmithEngine

open Mavlink Utils Api LabelledRuns Vehicle CommandRun

structure QueueRun where
  run : CommandRun
  removed : List CmdRef

namespace QueueRun

def initial (writer : Encoder) (api : VehicleApi) (now : Time) :
    QueueRun where
  run := CommandRun.initial writer api now
  removed := []

def removedBy : HandlerAction → List CmdRef
  | .removed ref => [ref]
  | _ => []

def removes (s : QueueRun) : CommandEvent → List CmdRef
  | .tick => removedBy s.run.vehicle.sysOnlineHandler.1
  | _ => []

def step (s : QueueRun) (event : CommandEvent) : Option QueueRun :=
  (s.run.step event).map fun run => ⟨run, s.removed ++ s.removes event⟩

def queued (s : QueueRun) : List CmdRef :=
  s.run.vehicle.commandQueue.contents.map Item.value

/-- A pushed command is in the queue or was removed, and not both; its
transmissions are counted and are at most six; and it was removed only when
it was answered for good or had been sent six times. -/
structure Accounted (s : QueueRun) : Prop where
  once : ∀ ref, s.queued.count ref + s.removed.count ref =
    if ref < s.run.vehicle.nextCommand then 1 else 0
  timesSent : ∀ ref, ref < s.run.vehicle.nextCommand →
    (s.run.vehicle.commands ref).TimesSent = s.run.sent.count ref ∧
      s.run.sent.count ref ≤ 6
  concluded : ∀ ref ∈ s.removed,
    Terminal (s.run.vehicle.commands ref).Status ∨
      s.run.sent.count ref = 6

/-- The head was transmitted once, and stays in the queue. -/
structure Sends (s next : QueueRun) (x : Item CmdRef) : Prop where
  encoded : next.run.vehicle.mavlinkWriter =
    (s.run.vehicle.mavlinkWriter.Encode 0 0
      (s.run.vehicle.commands x.value).Command.Pack).2
  sent : next.run.sent = s.run.sent ++ [x.value]
  queue : next.run.vehicle.commandQueue = s.run.vehicle.commandQueue
  removed : next.removed = s.removed

/-- The head, and nothing else, was removed, for one of the reasons there
are. -/
structure Removes (s next : QueueRun) (x : Item CmdRef) : Prop where
  queue : s.run.vehicle.commandQueue.contents.Perm
    (x :: next.run.vehicle.commandQueue.contents)
  removed : next.removed = s.removed ++ [x.value]
  concluded : Terminal (s.run.vehicle.commands x.value).Status ∨
    s.run.sent.count x.value = 6
  sent : next.run.sent = s.run.sent
  encoded :
    next.run.vehicle.mavlinkWriter = s.run.vehicle.mavlinkWriter

/-- Nothing was sent and nothing removed. -/
structure Keeps (s next : QueueRun) : Prop where
  sent : next.run.sent = s.run.sent
  encoded :
    next.run.vehicle.mavlinkWriter = s.run.vehicle.mavlinkWriter
  removed : next.removed = s.removed

/-- What a step of each kind does to the queue. -/
def Acts (s next : QueueRun) : CommandEvent → Prop
  | .request request =>
      s.Keeps next ∧
        next.run.vehicle.nextCommand = s.run.vehicle.nextCommand + 1 ∧
        next.run.vehicle.commandQueue.contents.Perm
          (⟨s.run.vehicle.nextCommand, request.op⟩ ::
            s.run.vehicle.commandQueue.contents)
  | .tick =>
      match s.run.vehicle.commandQueue.Head with
      | none => s.Keeps next ∧
          next.run.vehicle.commandQueue = s.run.vehicle.commandQueue
      | some x => s.Sends next x ∨ s.Removes next x
  | .ack _ _ =>
      s.Keeps next ∧
        next.run.vehicle.commandQueue = s.run.vehicle.commandQueue

/-! ## Invariants -/

/-- As `Accounted`, together with the ledger it rests on. -/
structure Lifecycle (s : QueueRun) : Prop where
  ledger : s.run.Ledger
  once : ∀ ref, s.queued.count ref + s.removed.count ref =
    if ref < s.run.vehicle.nextCommand then 1 else 0
  bounded : ∀ ref, ref < s.run.vehicle.nextCommand →
    (s.run.vehicle.commands ref).TimesSent ≤ 6
  concluded : ∀ ref ∈ s.removed,
    Terminal (s.run.vehicle.commands ref).Status ∨
      (s.run.vehicle.commands ref).TimesSent = 6

theorem initial_lifecycle (writer : Encoder) (api : VehicleApi)
    (now : Time) : (initial writer api now).Lifecycle where
  ledger := initial_ledger writer api now
  once ref := by
    have hnext : (NewVehicle writer now).nextCommand = 0 := rfl
    simp [queued, initial, CommandRun.initial, hnext]
  bounded ref hlt := absurd hlt (Nat.not_lt_zero ref)
  concluded := by simp [initial]

theorem Lifecycle.removed_lt {s : QueueRun} (hs : s.Lifecycle)
    {ref : CmdRef} (hmem : ref ∈ s.removed) :
    ref < s.run.vehicle.nextCommand := by
  by_contra hlt
  have honce := hs.once ref
  rw [if_neg hlt] at honce
  have hpos := List.count_pos_iff.mpr hmem
  omega

/-- A command that was removed is no longer queued. -/
theorem Lifecycle.not_removed {s : QueueRun} (hs : s.Lifecycle)
    {x : Item CmdRef} (hx : x ∈ s.run.vehicle.commandQueue.contents) :
    x.value ∉ s.removed := by
  intro hmem
  have honce := hs.once x.value
  rw [if_pos (hs.removed_lt hmem)] at honce
  have hremoved := List.count_pos_iff.mpr hmem
  have hqueued : 0 < s.queued.count x.value :=
    List.count_pos_iff.mpr (List.mem_map_of_mem hx)
  omega

theorem Lifecycle.accounted {s : QueueRun} (hs : s.Lifecycle) :
    s.Accounted where
  once := hs.once
  timesSent ref hlt := by
    have hcount := hs.ledger.sends.timesSent ref hlt
    exact ⟨hcount, hcount ▸ hs.bounded ref hlt⟩
  concluded ref hmem := by
    rw [← hs.ledger.sends.timesSent ref (hs.removed_lt hmem)]
    exact hs.concluded ref hmem

theorem finished_iff {cmd : VehicleCommand} (hfew : cmd.TimesSent ≤ 6) :
    finished cmd ↔ Terminal cmd.Status ∨ cmd.TimesSent = 6 := by
  unfold finished Terminal
  constructor
  · rintro (h | h | h)
    · exact Or.inl (Or.inl h)
    · exact Or.inl (Or.inr h)
    · exact Or.inr (by omega)
  · rintro ((h | h) | h)
    · exact Or.inl h
    · exact Or.inr (Or.inl h)
    · exact Or.inr (Or.inr (by omega))

/-! ## Steps -/

theorem step_run {s next : QueueRun} {event : CommandEvent}
    (hstep : s.step event = some next) :
    s.run.step event = some next.run ∧
      next.removed = s.removed ++ s.removes event := by
  simp only [step, Option.map_eq_some_iff] at hstep
  obtain ⟨run, hrun, rfl⟩ := hstep
  exact ⟨hrun, rfl⟩

theorem Lifecycle.request {s next : QueueRun} {request : CommandRequest}
    (hs : s.Lifecycle) (hstep : s.step (.request request) = some next) :
    next.Lifecycle ∧ s.Acts next (.request request) := by
  obtain ⟨hrun, hremoved⟩ := step_run hstep
  have hledger := hs.ledger.step hrun
  obtain ⟨Command, hpush, -⟩ := request.apply_eq_push s.run.vehicle
  simp only [CommandRun.step, hpush, Option.some.injEq] at hrun
  simp only [removes, List.append_nil] at hremoved
  have hperm := s.run.vehicle.commandQueue.Push_contents
    s.run.vehicle.nextCommand request.op
  have hnext : next.run.vehicle.nextCommand =
      s.run.vehicle.nextCommand + 1 := by rw [← hrun]; rfl
  have hqueue : next.run.vehicle.commandQueue.contents.Perm
      (⟨s.run.vehicle.nextCommand, request.op⟩ ::
        s.run.vehicle.commandQueue.contents) := by
    rw [← hrun]
    exact hperm
  refine ⟨⟨hledger, ?_, ?_, ?_⟩, ⟨?_, ?_, hremoved⟩, hnext, hqueue⟩
  · intro ref
    have hcount : next.queued.count ref =
        (s.run.vehicle.nextCommand :: s.queued).count ref :=
      (hqueue.map Item.value).count_eq ref
    have honce := hs.once ref
    rw [hcount, hremoved, hnext, List.count_cons]
    by_cases hnew : s.run.vehicle.nextCommand = ref
    · subst hnew
      rw [if_neg (lt_irrefl _)] at honce
      rw [if_pos (Nat.lt_succ_self _), if_pos (beq_self_eq_true _)]
      omega
    · have hlt : ref < s.run.vehicle.nextCommand + 1 ↔
          ref < s.run.vehicle.nextCommand :=
        ⟨fun hle => (Nat.lt_succ_iff_lt_or_eq.mp hle).resolve_right
          (Ne.symm hnew), Nat.lt_succ_of_lt⟩
      simp only [beq_iff_eq, hnew, if_false, Nat.add_zero, hlt]
      exact honce
  · intro ref hlt
    rw [hnext] at hlt
    rw [← hrun]
    rcases Nat.lt_succ_iff_lt_or_eq.mp hlt with hold | rfl
    · rw [pushCommand_of_lt _ _ _ hold]
      exact hs.bounded ref hold
    · rw [pushCommand_self]
      exact Nat.zero_le 6
  · intro ref hmem
    rw [hremoved] at hmem
    rw [← hrun, pushCommand_of_lt _ _ _ (hs.removed_lt hmem)]
    exact hs.concluded ref hmem
  · rw [← hrun]
  · rw [← hrun]
    rfl

theorem Lifecycle.ack {s next : QueueRun} {m : CommandAck}
    {answers : Option CmdRef} (hs : s.Lifecycle)
    (hstep : s.step (.ack m answers) = some next) :
    next.Lifecycle ∧ s.Acts next (.ack m answers) := by
  obtain ⟨hrun, hremoved⟩ := step_run hstep
  have hledger := hs.ledger.step hrun
  obtain ⟨hvehicle, hsent⟩ := step_ack hrun
  simp only [removes, List.append_nil] at hremoved
  have hqueue : next.run.vehicle.commandQueue =
      s.run.vehicle.commandQueue := by rw [hvehicle, UpdateFromAck_queue]
  have hnext : next.run.vehicle.nextCommand =
      s.run.vehicle.nextCommand := by rw [hvehicle, UpdateFromAck_next]
  have htimes (ref : CmdRef) (hlt : ref < s.run.vehicle.nextCommand) :
      (next.run.vehicle.commands ref).TimesSent =
        (s.run.vehicle.commands ref).TimesSent := by
    rw [hledger.sends.timesSent ref (hnext ▸ hlt), hsent,
      hs.ledger.sends.timesSent ref hlt]
  refine ⟨⟨hledger, ?_, ?_, ?_⟩, ⟨hsent, ?_, hremoved⟩, hqueue⟩
  · intro ref
    rw [queued, hqueue, hremoved, hnext]
    exact hs.once ref
  · intro ref hlt
    rw [hnext] at hlt
    rw [htimes ref hlt]
    exact hs.bounded ref hlt
  · intro ref hmem
    rw [hremoved] at hmem
    -- The acknowledgement is for the head, which has not been removed.
    have hsame : next.run.vehicle.commands ref =
        s.run.vehicle.commands ref := by
      rw [hvehicle]
      rcases s.run.vehicle.UpdateFromAck_cases m with
        ⟨hsame, -⟩ | ⟨x, hx, hset⟩
      · rw [hsame]
      · rw [hset, setStatus_of_ne]
        rintro rfl
        exact hs.not_removed (CommandQueue.Head_mem hx.1) hmem
    rw [hsame]
    exact hs.concluded ref hmem
  · rw [hvehicle]
    rcases s.run.vehicle.UpdateFromAck_cases m with
      ⟨hsame, -⟩ | ⟨x, -, hset⟩
    · rw [hsame]
    · rw [hset]
      rfl

theorem Lifecycle.tick {s next : QueueRun} (hs : s.Lifecycle)
    (hstep : s.step .tick = some next) :
    next.Lifecycle ∧ s.Acts next .tick := by
  obtain ⟨hrun, hremoved⟩ := step_run hstep
  have hledger := hs.ledger.step hrun
  simp only [CommandRun.step, Option.some.injEq] at hrun
  simp only [removes] at hremoved
  rcases s.run.vehicle.sysOnlineHandler_cases with
    ⟨hhead, hidle⟩ | ⟨x, hx, hfinished, haction⟩ |
      ⟨x, hx, hunfinished, haction⟩
  · rw [hidle] at hrun hremoved
    simp only [transmitted, removedBy, List.append_nil] at hrun hremoved
    have hsame : next = s := by
      cases next
      cases s
      simp only at hrun hremoved
      rw [← hrun, hremoved]
    subst hsame
    refine ⟨hs, ?_⟩
    simp only [Acts, hhead, and_true]
    exact ⟨rfl, rfl, rfl⟩
  · rw [haction] at hrun hremoved
    simp only [transmitted, removedBy, List.append_nil] at hrun hremoved
    have hmem := CommandQueue.Head_mem hx
    have hlt := hs.ledger.sends.allocated.lt_next x hmem
    have hperm := (CommandQueue.Pop_of_some hx).2
    have hconcluded := (finished_iff (hs.bounded x.value hlt)).mp hfinished
    have hcommands : next.run.vehicle.commands =
        s.run.vehicle.commands := by rw [← hrun]; rfl
    have hnext : next.run.vehicle.nextCommand =
        s.run.vehicle.nextCommand := by rw [← hrun]; rfl
    have hqueue : s.run.vehicle.commandQueue.contents.Perm
        (x :: next.run.vehicle.commandQueue.contents) := by
      rw [← hrun]
      exact hperm
    refine ⟨⟨hledger, ?_, ?_, ?_⟩, ?_⟩
    · intro ref
      have honce := hs.once ref
      have hcount : s.queued.count ref =
          (x.value :: next.queued).count ref :=
        (hqueue.map Item.value).count_eq ref
      rw [hcount, List.count_cons] at honce
      rw [hremoved, hnext, List.count_append, List.count_singleton,
        ← honce]
      omega
    · rw [hcommands, hnext]
      exact hs.bounded
    · intro ref hmem
      rw [hcommands]
      rw [hremoved] at hmem
      rcases List.mem_append.mp hmem with hold | hnew
      · exact hs.concluded ref hold
      · rw [List.mem_singleton.mp hnew]
        exact hconcluded
    · simp only [Acts, hx]
      right
      refine ⟨hqueue, hremoved, ?_, by rw [← hrun], by rw [← hrun]; rfl⟩
      rw [← hs.ledger.sends.timesSent x.value hlt]
      exact hconcluded
  · rw [haction] at hrun hremoved
    simp only [transmitted, removedBy, List.append_nil] at hrun hremoved
    have hmem := CommandQueue.Head_mem hx
    have hlt := hs.ledger.sends.allocated.lt_next x hmem
    have hnext : next.run.vehicle.nextCommand =
        s.run.vehicle.nextCommand := by rw [← hrun]; rfl
    have hqueue : next.run.vehicle.commandQueue =
        s.run.vehicle.commandQueue := by rw [← hrun]; rfl
    have hother (ref : CmdRef) (hne : ref ≠ x.value) :
        next.run.vehicle.commands ref = s.run.vehicle.commands ref := by
      rw [← hrun]
      exact sendCommand_of_ne _ hne
    refine ⟨⟨hledger, ?_, ?_, ?_⟩, ?_⟩
    · intro ref
      rw [queued, hqueue, hremoved, hnext]
      exact hs.once ref
    · intro ref href
      rw [hnext] at href
      by_cases hsame : ref = x.value
      · subst hsame
        have hfew := hs.bounded x.value href
        rw [finished_iff hfew] at hunfinished
        push Not at hunfinished
        rw [← hrun, sendCommand_self]
        change (s.run.vehicle.commands x.value).TimesSent + 1 ≤ 6
        have hne := hunfinished.2
        omega
      · rw [hother ref hsame]
        exact hs.bounded ref href
    · intro ref hmem'
      rw [hremoved] at hmem'
      have hne : ref ≠ x.value := by
        rintro rfl
        exact hs.not_removed hmem hmem'
      rw [hother ref hne]
      exact hs.concluded ref hmem'
    · simp only [Acts, hx]
      left
      exact ⟨by rw [← hrun]; rfl, by rw [← hrun], hqueue, hremoved⟩

theorem Lifecycle.step {s next : QueueRun} {event : CommandEvent}
    (hs : s.Lifecycle) (hstep : s.step event = some next) :
    next.Lifecycle ∧ s.Acts next event := by
  cases event with
  | request request => exact hs.request hstep
  | tick => exact hs.tick hstep
  | ack m answers => exact hs.ack hstep

/-- In every run every pushed command is accounted for, and every step acts
as its kind of event should: a request queues one command, a handler call on
a queue that is not empty sends or removes its head, and an acknowledgement
does neither. -/
theorem commands_accounted (writer : Encoder) (api : VehicleApi)
    (now : Time) {events : List CommandEvent} {s : QueueRun}
    (hrun : Run step (initial writer api now) events s) :
    s.Accounted ∧
      ∀ event next, s.step event = some next → s.Acts next event := by
  have hs : s.Lifecycle := hrun.invariant
    (fun s event next hs _ hstep => (hs.step hstep).1)
    (initial_lifecycle writer api now)
  exact ⟨hs.accounted, fun event next hstep => (hs.step hstep).2⟩

theorem commands_accounted_single :
    ∃ s, Run step (initial (NewEncoder none) {} 0)
        [.request (.doGenericCommand 22 (Vector.replicate 7 0)), .tick,
          .ack ⟨22, 0⟩ none, .tick] s ∧
      s.Accounted := by
  have hexec : (exec step (fun _ _ => True)
      (initial (NewEncoder none) {} 0)
      [.request (.doGenericCommand 22 (Vector.replicate 7 0)), .tick,
        .ack ⟨22, 0⟩ none, .tick]).isSome := by
    decide
  obtain ⟨s, hrun⟩ := GuardedRun.of_exec_isSome hexec
  exact ⟨s, hrun, (commands_accounted (NewEncoder none) {} 0 hrun).1⟩

end QueueRun

end DronesmithEngine
