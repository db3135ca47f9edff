import DronesmithEngine.AcceptedCommands
import DronesmithEngine.PriorityService
import Mathlib.Tactic

/-!
# How long a command stays in the queue

`sysOnlineHandler` is the server of `PriorityService`: a call transmits or
removes a queued command of the least op number, and a command has at most six
transmissions.  So the commands that do not stand behind another one bound
how many calls leave it in the queue.
-/

namespace DronesmithEngine

open Mavlink Utils Api LabelledRuns Vehicle PriorityService

namespace CommandEvent

def isTick : CommandEvent → Bool
  | .tick => true
  | _ => false

/-- The request of a command that does not stand behind `p`. -/
def requestsUpTo (p : ℤ) : CommandEvent → Bool
  | .request asked => decide (asked.op ≤ p)
  | _ => false

end CommandEvent

namespace CommandRun

/-- How often the handler can still transmit a command. -/
def attemptsLeft (cmd : VehicleCommand) : ℕ := 6 - cmd.TimesSent

/-- The commands in the queue up to op number `p`. -/
def queuedUpTo (s : CommandRun) (p : ℤ) : List (Item CmdRef) :=
  s.vehicle.commandQueue.contents.filter (·.priority ≤ p)

structure Simulates (s : CommandRun) (w : Workload CmdRef ℤ) : Prop where
  allocated : s.vehicle.Allocated
  waiting : ∀ ref, ref ∈ w.waiting ↔ s.Queued ref
  arrived : ∀ ref, ref ∈ w.arrived ↔ ref < s.vehicle.nextCommand
  priority : ∀ x ∈ s.vehicle.commandQueue.contents,
    w.priority x.value = x.priority
  attempts : ∀ x ∈ s.vehicle.commandQueue.contents,
    w.attempts x.value = attemptsLeft (s.vehicle.commands x.value)

def nothingQueued : Workload CmdRef ℤ where
  waiting := ∅
  arrived := ∅
  priority := fun _ => 0
  attempts := fun _ => 0

theorem initial_simulates (writer : Encoder) (api : VehicleApi)
    (now : Time) : (initial writer api now).Simulates nothingQueued where
  allocated := (initial_ledger writer api now).sends.allocated
  waiting ref := by simp [nothingQueued, Queued, initial]
  arrived ref := by
    have hzero : (initial writer api now).vehicle.nextCommand = 0 := rfl
    simp [nothingQueued, hzero]
  priority x hx := by simp [initial] at hx
  attempts x hx := by simp [initial] at hx

variable {s next : CommandRun} {w : Workload CmdRef ℤ}

theorem Simulates.sound (hs : s.Simulates w) : w.Sound := by
  intro ref href
  obtain ⟨x, hx, rfl⟩ := (hs.waiting ref).mp href
  exact (hs.arrived x.value).mpr (hs.allocated.lt_next x hx)

theorem Simulates.mem (hs : s.Simulates w) {x : Item CmdRef}
    (hx : x ∈ s.vehicle.commandQueue.contents) : x.value ∈ w.waiting :=
  (hs.waiting x.value).mpr ⟨x, hx, rfl⟩

/-- The head of the queue is a first task. -/
theorem Simulates.first (hs : s.Simulates w) {x : Item CmdRef}
    (hx : s.vehicle.commandQueue.Head = some x) : w.First x.value := by
  have hmem := CommandQueue.Head_mem hx
  refine ⟨hs.mem hmem, ?_⟩
  intro ref href
  obtain ⟨y, hy, rfl⟩ := (hs.waiting ref).mp href
  rw [hs.priority x hmem, hs.priority y hy]
  exact CommandQueue.Head_le hx hy

/-! ## A step is a turn -/

theorem Simulates.request (hs : s.Simulates w) (Command : CommandLong)
    (op : ℤ)
    (hvehicle : next.vehicle = s.vehicle.pushCommand Command op) :
    w.step (.arrive s.vehicle.nextCommand op 6) =
        some (w.arrive s.vehicle.nextCommand op 6) ∧
      next.Simulates (w.arrive s.vehicle.nextCommand op 6) := by
  have hnew : s.vehicle.nextCommand ∉ w.arrived := fun hmem =>
    lt_irrefl _ ((hs.arrived _).mp hmem)
  have hold : ∀ x ∈ s.vehicle.commandQueue.contents,
      x.value ≠ s.vehicle.nextCommand :=
    fun x hx => (hs.allocated.lt_next x hx).ne
  refine ⟨if_neg hnew, ?_⟩
  constructor
  · rw [hvehicle]
    exact hs.allocated.push Command op
  · intro ref
    rw [Workload.arrive, Finset.mem_insert, hs.waiting, Queued, Queued,
      hvehicle]
    simp only [mem_pushCommand, or_and_right, exists_or, exists_eq_left]
    rw [eq_comm]
  · intro ref
    rw [Workload.arrive, Finset.mem_insert, hs.arrived, hvehicle]
    exact or_comm.trans Nat.lt_succ_iff_lt_or_eq.symm
  · intro x hx
    rw [hvehicle] at hx
    rcases mem_pushCommand.mp hx with rfl | hx
    · exact Workload.arrive_priority_self 6
    · rw [Workload.arrive_priority_of_ne (hold x hx), hs.priority x hx]
  · intro x hx
    rw [hvehicle] at hx ⊢
    rcases mem_pushCommand.mp hx with rfl | hx
    · rw [Workload.arrive_attempts_self, pushCommand_self]
      rfl
    · rw [Workload.arrive_attempts_of_ne (hold x hx), hs.attempts x hx,
        pushCommand_of_lt _ _ _ (hs.allocated.lt_next x hx)]

theorem Simulates.sent (hs : s.Simulates w) {x : Item CmdRef}
    (hx : s.vehicle.commandQueue.Head = some x)
    (hunfinished : ¬ finished (s.vehicle.commands x.value))
    (hvehicle : next.vehicle =
      (s.vehicle.recordLast (s.vehicle.commands x.value)).sendCommand
        x.value) :
    w.step (.attempt x.value) = some (w.attempt x.value) ∧
      next.Simulates (w.attempt x.value) := by
  have hmem := CommandQueue.Head_mem hx
  have hfew : (s.vehicle.commands x.value).TimesSent ≤ 5 := by
    by_contra hmany
    exact hunfinished (Or.inr (Or.inr (by omega)))
  have hleft := hs.attempts x hmem
  have hpos : 0 < w.attempts x.value := by
    rw [hleft, attemptsLeft]
    omega
  refine ⟨if_pos ⟨hs.first hx, hpos⟩, ?_⟩
  have hqueue : next.vehicle.commandQueue = s.vehicle.commandQueue := by
    rw [hvehicle]
    rfl
  constructor
  · exact hs.allocated.of_same hqueue (by rw [hvehicle]; rfl)
  · intro ref
    rw [Queued, hqueue]
    exact hs.waiting ref
  · intro ref
    rw [hvehicle]
    exact hs.arrived ref
  · intro y hy
    rw [hqueue] at hy
    exact hs.priority y hy
  · intro y hy
    rw [hqueue] at hy
    rw [hvehicle]
    by_cases hsame : y.value = x.value
    · rw [hsame, Workload.attempt_attempts_self, hleft, sendCommand_self]
      exact Nat.sub_sub 6 _ 1
    · rw [Workload.attempt_attempts_of_ne hsame, hs.attempts y hy,
        sendCommand_of_ne _ hsame]
      rfl

theorem Simulates.removed (hs : s.Simulates w) {x : Item CmdRef}
    (hx : s.vehicle.commandQueue.Head = some x)
    (hvehicle : next.vehicle =
      { s.vehicle.recordLast (s.vehicle.commands x.value) with
        commandQueue := s.vehicle.commandQueue.Pop.2 }) :
    w.step (.release x.value) = some (w.release x.value) ∧
      next.Simulates (w.release x.value) := by
  refine ⟨if_pos (hs.first hx), ?_⟩
  have hperm := (CommandQueue.Pop_of_some hx).2
  have hnodup := (hperm.map Item.value).nodup_iff.mp hs.allocated.nodup
  rw [List.map_cons, List.nodup_cons] at hnodup
  have hqueue : next.vehicle.commandQueue =
      s.vehicle.commandQueue.Pop.2 := by
    rw [hvehicle]
  have hkept : ∀ y ∈ next.vehicle.commandQueue.contents,
      y ∈ s.vehicle.commandQueue.contents := by
    intro y hy
    rw [hqueue] at hy
    exact mem_of_mem_pop hx hy
  constructor
  · exact hs.allocated.of_pop hx hqueue (by rw [hvehicle]; rfl)
  · intro ref
    rw [Workload.release, Finset.mem_erase, hs.waiting, Queued, Queued,
      hqueue]
    constructor
    · rintro ⟨hne, y, hy, rfl⟩
      have hother : y ≠ x := fun heq => hne (congrArg Item.value heq)
      exact ⟨y, (List.mem_cons.mp (hperm.mem_iff.mp hy)).resolve_left hother,
        rfl⟩
    · rintro ⟨y, hy, rfl⟩
      refine ⟨?_, y, mem_of_mem_pop hx hy, rfl⟩
      intro hsame
      exact hnodup.1 (hsame ▸ List.mem_map_of_mem hy)
  · intro ref
    rw [hvehicle]
    exact hs.arrived ref
  · intro y hy
    exact hs.priority y (hkept y hy)
  · intro y hy
    rw [hvehicle]
    exact hs.attempts y (hkept y hy)

/-- An acknowledgement is no turn, whatever status it sets. -/
theorem Simulates.ack (hs : s.Simulates w) {m : CommandAck}
    (hvehicle : next.vehicle = s.vehicle.UpdateFromAck m) :
    next.Simulates w := by
  have hqueue : next.vehicle.commandQueue = s.vehicle.commandQueue := by
    rw [hvehicle, UpdateFromAck_queue]
  have hnext : next.vehicle.nextCommand = s.vehicle.nextCommand := by
    rw [hvehicle, UpdateFromAck_next]
  have htimes : ∀ ref, (next.vehicle.commands ref).TimesSent =
      (s.vehicle.commands ref).TimesSent := by
    intro ref
    rw [hvehicle]
    rcases s.vehicle.UpdateFromAck_cases m with ⟨hsame, -⟩ | ⟨x, -, hset⟩
    · rw [hsame]
    · rw [hset]
      by_cases hsame : ref = x.value
      · rw [hsame, setStatus_self]
      · rw [setStatus_of_ne _ hsame]
  constructor
  · exact hs.allocated.of_same hqueue hnext
  · intro ref
    rw [Queued, hqueue]
    exact hs.waiting ref
  · intro ref
    rw [hnext]
    exact hs.arrived ref
  · intro x hx
    rw [hqueue] at hx
    exact hs.priority x hx
  · intro x hx
    rw [hqueue] at hx
    rw [hs.attempts x hx, attemptsLeft, attemptsLeft, htimes]

/-- Every step but an acknowledgement is one turn: a request the arrival of a
task with six attempts, a handler call a turn of the server. -/
structure TurnOf (event : CommandEvent) (turn : Turn CmdRef ℤ) : Prop where
  service : turn.isService = event.isTick
  demand : ∀ p, turn.demand p = 7 * (event.requestsUpTo p).toNat

theorem turnOf_request (request : CommandRequest) (ref : CmdRef) :
    TurnOf (.request request) (.arrive ref request.op 6) where
  service := rfl
  demand p := by
    by_cases hle : request.op ≤ p <;>
      simp [Turn.demand, CommandEvent.requestsUpTo, hle]

theorem Simulates.tick (hs : s.Simulates w)
    (hvehicle : next.vehicle = s.vehicle.sysOnlineHandler.2) :
    ∃ turn w', w.step turn = some w' ∧ next.Simulates w' ∧
      TurnOf .tick turn := by
  rcases s.vehicle.sysOnlineHandler_cases with
    ⟨hnone, hidle⟩ | ⟨x, hx, -, hremoved⟩ | ⟨x, hx, hunfinished, hsent⟩
  · rw [hidle] at hvehicle
    have hempty : w.waiting = ∅ := by
      refine Finset.eq_empty_of_forall_notMem fun ref href => ?_
      obtain ⟨x, hx, -⟩ := (hs.waiting ref).mp href
      rw [CommandQueue.Head_eq_none_iff_contents.mp hnone] at hx
      cases hx
    refine ⟨.idle, w, if_pos hempty, ?_, rfl, fun _ => rfl⟩
    obtain ⟨vehicle, sent, accepted⟩ := next
    subst hvehicle
    exact ⟨hs.allocated, hs.waiting, hs.arrived, hs.priority, hs.attempts⟩
  · rw [hremoved] at hvehicle
    obtain ⟨hstep, hnext⟩ := hs.removed hx hvehicle
    exact ⟨_, _, hstep, hnext, rfl, fun _ => rfl⟩
  · rw [hsent] at hvehicle
    obtain ⟨hstep, hnext⟩ := hs.sent hx hunfinished hvehicle
    exact ⟨_, _, hstep, hnext, rfl, fun _ => rfl⟩

theorem Simulates.step {event : CommandEvent} (hs : s.Simulates w)
    (hstep : s.step event = some next) :
    (next.Simulates w ∧ event.isTick = false ∧
      ∀ p, event.requestsUpTo p = false) ∨
    ∃ turn w', w.step turn = some w' ∧ next.Simulates w' ∧
      TurnOf event turn := by
  cases event with
  | request request =>
      obtain ⟨Command, hpush, -⟩ := request.apply_eq_push s.vehicle
      simp only [CommandRun.step, hpush, Option.some.injEq] at hstep
      have hvehicle : next.vehicle =
          s.vehicle.pushCommand Command request.op := by
        rw [← hstep]
      obtain ⟨hturn, hnext⟩ := hs.request Command request.op hvehicle
      exact Or.inr ⟨_, _, hturn, hnext, turnOf_request request _⟩
  | tick =>
      simp only [CommandRun.step, Option.some.injEq] at hstep
      subst hstep
      exact Or.inr (hs.tick rfl)
  | ack m answers =>
      obtain ⟨hvehicle, -⟩ := step_ack hstep
      exact Or.inl ⟨hs.ack hvehicle, rfl, fun _ => rfl⟩

/-- The turns of a run. -/
theorem Simulates.run {events : List CommandEvent} {t : CommandRun}
    (hs : s.Simulates w) (hrun : Run CommandRun.step s events t) :
    ∃ turns w', Run Workload.step w turns w' ∧ t.Simulates w' ∧
      turns.countP Turn.isService = events.countP CommandEvent.isTick ∧
      ∀ p, (turns.map (Turn.demand p)).sum =
        7 * events.countP (CommandEvent.requestsUpTo p) := by
  induction hrun with
  | nil => exact ⟨[], w, .nil, hs, rfl, fun _ => rfl⟩
  | @snoc events middle next event _ _ hstep ih =>
      obtain ⟨turns, w', hrun, hmiddle, hservice, hdemand⟩ := ih
      rcases hmiddle.step hstep with
        ⟨hnext, htick, hrequests⟩ | ⟨turn, w'', hturn, hnext, hone⟩
      · refine ⟨turns, w', hrun, hnext, ?_, fun p => ?_⟩
        · rw [List.countP_append, List.countP_singleton, htick, hservice]
          rfl
        · rw [List.countP_append, List.countP_singleton, hrequests p,
            hdemand p]
          rfl
      · refine ⟨turns ++ [turn], w'', hrun.snoc trivial hturn, hnext, ?_,
          fun p => ?_⟩
        · rw [List.countP_append, List.countP_append, List.countP_singleton,
            List.countP_singleton, hservice, hone.service]
        · rw [List.map_append, List.sum_append, List.countP_append,
            List.countP_singleton, hdemand p, List.map_singleton,
            List.sum_singleton, hone.demand p, Nat.mul_add]
          cases event.requestsUpTo p <;> rfl

/-! ## Response time -/

theorem Simulates.backlog_le (hs : s.Simulates w) (p : ℤ) :
    w.backlog p ≤ 7 * (s.queuedUpTo p).length := by
  have hcard : (w.waiting.filter (w.priority · ≤ p)).card ≤
      (s.queuedUpTo p).length := by
    rw [← List.length_map (f := Item.value)]
    refine le_trans (Finset.card_le_card ?_) (List.toFinset_card_le _)
    intro ref href
    obtain ⟨hwaits, hle⟩ := Finset.mem_filter.mp href
    obtain ⟨x, hx, rfl⟩ := (hs.waiting ref).mp hwaits
    rw [hs.priority x hx] at hle
    rw [List.mem_toFinset]
    exact List.mem_map_of_mem
      (List.mem_filter.mpr ⟨hx, decide_eq_true hle⟩)
  have hseven : ∀ ref ∈ w.waiting.filter (w.priority · ≤ p),
      w.attempts ref + 1 ≤ 7 := by
    intro ref href
    obtain ⟨x, hx, rfl⟩ :=
      (hs.waiting ref).mp (Finset.mem_filter.mp href).1
    rw [hs.attempts x hx, attemptsLeft]
    omega
  have hsum := Finset.sum_le_card_nsmul _ _ 7 hseven
  rw [smul_eq_mul, mul_comm] at hsum
  exact hsum.trans (Nat.mul_le_mul_left 7 hcard)

/-- While a command waits, every turn goes to one that does not stand behind
it. -/
theorem Simulates.turns_lt (hs : s.Simulates w) {t : CommandRun}
    {w' : Workload CmdRef ℤ} {turns : List (Turn CmdRef ℤ)}
    (hturns : Run Workload.step w turns w') (ht : t.Simulates w')
    {x : Item CmdRef} (hx : x ∈ s.vehicle.commandQueue.contents)
    (hstill : x ∈ t.vehicle.commandQueue.contents) :
    turns.countP Turn.isService <
      7 * (s.queuedUpTo x.priority).length +
        (turns.map (Turn.demand x.priority)).sum := by
  have hlt := Workload.turns_le hs.sound (hs.mem hx) hturns (ht.mem hstill)
  have hbacklog := hs.backlog_le x.priority
  rw [hs.priority x hx] at hlt
  omega

/-- From any reachable state on, a queued command is gone after seven handler
calls for each command that does not stand behind it: those of its op number
or a lower one that are queued with it or requested meanwhile, itself
included. -/
theorem removed_in_time (writer : Encoder) (api : VehicleApi) (now : Time)
    {before events : List CommandEvent} {s t : CommandRun}
    (hbefore : Run step (initial writer api now) before s)
    (hrun : Run step s events t) {x : Item CmdRef}
    (hx : x ∈ s.vehicle.commandQueue.contents)
    (hticks : 7 * ((s.queuedUpTo x.priority).length +
        events.countP (CommandEvent.requestsUpTo x.priority)) ≤
      events.countP CommandEvent.isTick) :
    x ∉ t.vehicle.commandQueue.contents := by
  intro hstill
  obtain ⟨-, w, -, hs, -, -⟩ :=
    (initial_simulates writer api now).run hbefore
  obtain ⟨turns, w', hturns, ht, hservice, hdemand⟩ := hs.run hrun
  have hlt := hs.turns_lt hturns ht hx hstill
  rw [hdemand, hservice] at hlt
  omega

/-- A mode change, and a takeoff that overtakes it. -/
theorem removed_in_time_overtaken :
    ∃ s t, Run step (initial (NewEncoder none) {} 0)
        [.request (.doGenericCommand 176 (Vector.replicate 7 0))] s ∧
      Run step s (.request (.doGenericCommand 22 (Vector.replicate 7 0)) ::
        List.replicate 14 .tick) t ∧
      (⟨0, 176⟩ : Item CmdRef) ∈ s.vehicle.commandQueue.contents ∧
      (⟨0, 176⟩ : Item CmdRef) ∉ t.vehicle.commandQueue.contents := by
  let request : CommandRequest :=
    .doGenericCommand 176 (Vector.replicate 7 0)
  let s : CommandRun :=
    { initial (NewEncoder none) {} 0 with
      vehicle := request.apply (initial (NewEncoder none) {} 0).vehicle }
  have hbefore : Run step (initial (NewEncoder none) {} 0)
      [.request request] s := GuardedRun.cons trivial rfl .nil
  have hexec : (exec step (fun _ _ => True) s
      (.request (.doGenericCommand 22 (Vector.replicate 7 0)) ::
        List.replicate 14 .tick)).isSome := by
    decide +kernel
  have hx : (⟨0, 176⟩ : Item CmdRef) ∈ s.vehicle.commandQueue.contents :=
    mem_pushCommand.mpr (Or.inl rfl)
  obtain ⟨t, hrun⟩ := GuardedRun.of_exec_isSome hexec
  exact ⟨s, t, hbefore, hrun, hx,
    removed_in_time (NewEncoder none) {} 0 hbefore hrun hx
      (by decide +kernel)⟩

end CommandRun

end DronesmithEngine
