import DronesmithEngine.AcceptedCommands
import Mathlib.Tactic

/-!
# The handler's calls among those of other threads

`sysOnlineHandler` asks the queue for its size, for its head and for its
removal in separate calls, each of which holds the lock.  Here requests and
acknowledgements may come between them.  What was removed, and for which
command the handler meant it, is recorded.
-/

namespace DronesmithEngine

open Mavlink Utils Api LabelledRuns Vehicle CommandRun

inductive TickPhase
  | idle
  | nonEmpty
  | examining (x : Item CmdRef)
  | removing (x : Item CmdRef)
  deriving DecidableEq

/-- A command the handler examined and decided to remove, and the one that
its `Pop` removed. -/
structure Removal where
  examined : CmdRef
  popped : Option CmdRef
  deriving DecidableEq

inductive HandlerEvent
  | request (request : CommandRequest)
  | ack (m : CommandAck)
  | callSize
  | callHead
  | examine
  | callPop

structure HandlerRun where
  vehicle : Vehicle
  phase : TickPhase
  sent : List CmdRef
  answered : List CmdRef
  removals : List Removal

namespace HandlerRun

def initial (writer : Encoder) (api : VehicleApi) (now : Time) :
    HandlerRun where
  vehicle := { NewVehicle writer now with api := api }
  phase := .idle
  sent := []
  answered := []
  removals := []

/-- The commands an acknowledgement answers for good. -/
def answeredBy (v : Vehicle) (m : CommandAck) : List CmdRef :=
  match v.commandQueue.Head with
  | some x =>
      if x.priority = m.Command.toNat ∧ Terminal m.Result.toNat then
        [x.value]
      else []
  | none => []

def step (s : HandlerRun) : HandlerEvent → Option HandlerRun
  | .request request => some { s with vehicle := request.apply s.vehicle }
  | .ack m =>
      some
        { s with
          vehicle := s.vehicle.UpdateFromAck m
          answered := s.answered ++ answeredBy s.vehicle m }
  | .callSize =>
      match s.phase with
      | .idle =>
          if 0 < s.vehicle.commandQueue.Size then
            some { s with phase := .nonEmpty }
          else some s
      | _ => none
  | .callHead =>
      match s.phase, s.vehicle.commandQueue.Head with
      | .nonEmpty, some x => some { s with phase := .examining x }
      -- The type assertion on a nil head would panic.
      | _, _ => none
  | .examine =>
      match s.phase with
      | .examining x =>
          let cmd := s.vehicle.commands x.value
          let v := s.vehicle.recordLast cmd
          if finished cmd then
            some { s with vehicle := v, phase := .removing x }
          else
            some
              { s with
                vehicle := v.sendCommand x.value
                phase := .idle
                sent := s.sent ++ [x.value] }
      | _ => none
  | .callPop =>
      match s.phase with
      | .removing x =>
          let (popped, queue) := s.vehicle.commandQueue.Pop
          some
            { s with
              vehicle := { s.vehicle with commandQueue := queue }
              phase := .idle
              removals := s.removals ++ [⟨x.value, popped.map Item.value⟩] }
      | _ => none

/-- Without anything in between, the calls of one tick do what
`sysOnlineHandler` does. -/
theorem uninterrupted_tick (s : HandlerRun) (hidle : s.phase = .idle) :
    ∃ events t, Run step s events t ∧ t.phase = .idle ∧
      t.vehicle = s.vehicle.sysOnlineHandler.2 := by
  cases hhead : s.vehicle.commandQueue.Head with
  | none =>
      have hsize := CommandQueue.Head_eq_none.mp hhead
      refine ⟨[] ++ [.callSize], s, .snoc .nil trivial ?_, hidle, ?_⟩
      · simp [step, hidle, hsize]
      · rw [sysOnlineHandler, hhead]
  | some x =>
      have hsize : 0 < s.vehicle.commandQueue.Size := by
        rw [Nat.pos_iff_ne_zero]
        intro hzero
        rw [CommandQueue.Head_eq_none.mpr hzero] at hhead
        cases hhead
      have hsized : s.step .callSize =
          some { s with phase := .nonEmpty } := by
        simp [step, hidle, hsize]
      have hheaded : ({ s with phase := .nonEmpty } : HandlerRun).step
          .callHead = some { s with phase := .examining x } := by
        simp [step, hhead]
      have hexamining : Run step s ([] ++ [.callSize] ++ [.callHead])
          { s with phase := .examining x } :=
        .snoc (.snoc .nil trivial hsized) trivial hheaded
      by_cases hfinished : finished (s.vehicle.commands x.value)
      · have hexamined : ({ s with phase := .examining x } :
            HandlerRun).step .examine = some
              { s with
                vehicle :=
                  s.vehicle.recordLast (s.vehicle.commands x.value)
                phase := .removing x } := by
          simp [step, hfinished]
        have hpopped : ({ s with
            vehicle := s.vehicle.recordLast (s.vehicle.commands x.value)
            phase := .removing x } : HandlerRun).step .callPop = some _ :=
          rfl
        refine ⟨_, _, (hexamining.snoc trivial hexamined).snoc trivial
          hpopped, rfl, ?_⟩
        rw [sysOnlineHandler, hhead]
        simp only [hfinished, if_true]
        rfl
      · have hexamined : ({ s with phase := .examining x } :
            HandlerRun).step .examine = some
              { s with
                vehicle := (s.vehicle.recordLast
                  (s.vehicle.commands x.value)).sendCommand x.value
                phase := .idle
                sent := s.sent ++ [x.value] } := by
          simp [step, hfinished]
        refine ⟨_, _, hexamining.snoc trivial hexamined, rfl, ?_⟩
        rw [sysOnlineHandler, hhead]
        simp only [hfinished, if_false]

/-! ## What the handler removes -/

def Concluded (s : HandlerRun) (ref : CmdRef) : Prop :=
  ref ∈ s.answered ∨ 6 ≤ s.sent.count ref

/-- Every command that was removed is the one the handler examined, and was
not removed early. -/
structure RemovesExamined (s : HandlerRun) : Prop where
  same : ∀ removal ∈ s.removals, removal.popped = some removal.examined
  concluded :
    ∀ removal ∈ s.removals, ∀ ref ∈ removal.popped, s.Concluded ref

/-- A command with this op number does not get ahead of one that is up for
removal. -/
def StaysBehind (v : Vehicle) (op : ℤ) : TickPhase → Prop
  | .examining x => finished (v.commands x.value) → x.priority ≤ op
  | .removing x => x.priority ≤ op
  | _ => True

instance (v : Vehicle) (op : ℤ) :
    ∀ phase, Decidable (StaysBehind v op phase)
  | .idle => .isTrue trivial
  | .nonEmpty => .isTrue trivial
  | .examining _ => inferInstanceAs (Decidable (_ → _))
  | .removing _ => inferInstanceAs (Decidable (_ ≤ _))

def KeepsExamined (s : HandlerRun) : HandlerEvent → Prop
  | .request request => StaysBehind s.vehicle request.op s.phase
  | _ => True

instance (s : HandlerRun) : ∀ event, Decidable (s.KeepsExamined event)
  | .request request =>
      inferInstanceAs (Decidable (StaysBehind s.vehicle request.op s.phase))
  | .ack _ => .isTrue trivial
  | .callSize => .isTrue trivial
  | .callHead => .isTrue trivial
  | .examine => .isTrue trivial
  | .callPop => .isTrue trivial

def InPhase (s : HandlerRun) : Prop :=
  match s.phase with
  | .idle => True
  | .nonEmpty => s.vehicle.commandQueue.contents ≠ []
  | .examining x =>
      x ∈ s.vehicle.commandQueue.contents ∧
        (finished (s.vehicle.commands x.value) →
          s.vehicle.commandQueue.Head = some x)
  | .removing x =>
      s.vehicle.commandQueue.Head = some x ∧ s.Concluded x.value

structure Recorded (s : HandlerRun) : Prop where
  sends : s.vehicle.SendLedger s.sent
  answered_lt : ∀ ref ∈ s.answered, ref < s.vehicle.nextCommand
  terminal : ∀ ref, ref < s.vehicle.nextCommand →
    Terminal (s.vehicle.commands ref).Status → ref ∈ s.answered
  phase : s.InPhase
  removes : s.RemovesExamined

theorem initial_recorded (writer : Encoder) (api : VehicleApi)
    (now : Time) : (initial writer api now).Recorded where
  sends := newVehicle_sendLedger writer api now
  answered_lt := by simp [initial]
  terminal ref hlt := absurd hlt (Nat.not_lt_zero ref)
  phase := trivial
  removes := ⟨by simp [initial], by simp [initial]⟩

theorem RemovesExamined.mono {s next : HandlerRun}
    (hs : s.RemovesExamined) (hremovals : next.removals = s.removals)
    (hconcluded : ∀ ref, s.Concluded ref → next.Concluded ref) :
    next.RemovesExamined where
  same := by rw [hremovals]; exact hs.same
  concluded := by
    intro removal hmem ref href
    rw [hremovals] at hmem
    exact hconcluded ref (hs.concluded removal hmem ref href)

theorem Recorded.concluded {s : HandlerRun} (hs : s.Recorded)
    {ref : CmdRef} (hlt : ref < s.vehicle.nextCommand)
    (hfinished : finished (s.vehicle.commands ref)) : s.Concluded ref := by
  rcases hfinished with haccepted | hrefused | htimes
  · exact Or.inl (hs.terminal ref hlt (Or.inl haccepted))
  · exact Or.inl (hs.terminal ref hlt (Or.inr hrefused))
  · rw [hs.sends.timesSent ref hlt] at htimes
    exact Or.inr htimes

theorem not_terminal_fresh : ¬ Terminal 10 := by decide

theorem Recorded.request {s : HandlerRun} (hs : s.Recorded)
    {request : CommandRequest}
    (hguard : s.KeepsExamined (.request request)) :
    ({ s with vehicle := request.apply s.vehicle } :
      HandlerRun).Recorded := by
  obtain ⟨Command, hpush, -⟩ := request.apply_eq_push s.vehicle
  rw [hpush]
  refine ⟨hs.sends.push Command request.op, ?_, ?_, ?_, ?_⟩
  · exact fun ref hmem => Nat.lt_succ_of_lt (hs.answered_lt ref hmem)
  · intro ref hlt hterminal
    rcases Nat.lt_succ_iff_lt_or_eq.mp hlt with hold | hnew
    · simp only [pushCommand_of_lt _ _ _ hold] at hterminal
      exact hs.terminal ref hold hterminal
    · simp only [hnew, pushCommand_self] at hterminal
      exact absurd hterminal not_terminal_fresh
  · have hphase := hs.phase
    unfold InPhase at hphase ⊢
    unfold KeepsExamined at hguard
    cases hat : s.phase with
    | idle => trivial
    | nonEmpty =>
        exact List.ne_nil_of_mem (mem_pushCommand.mpr (Or.inl rfl))
    | examining x =>
        simp only [hat, StaysBehind] at hphase hguard ⊢
        obtain ⟨hmem, hhead⟩ := hphase
        have hlt := hs.sends.allocated.lt_next x hmem
        rw [pushCommand_of_lt _ _ _ hlt]
        exact ⟨mem_pushCommand.mpr (Or.inr hmem), fun hfinished =>
          CommandQueue.Head_Push (hhead hfinished) (hguard hfinished)⟩
    | removing x =>
        simp only [hat, StaysBehind] at hphase hguard ⊢
        exact ⟨CommandQueue.Head_Push hphase.1 hguard, hphase.2⟩
  · exact hs.removes.mono rfl (fun ref hconcluded => hconcluded)

theorem mem_answeredBy {v : Vehicle} {m : CommandAck} {x : Item CmdRef}
    (hx : v.Matches m x) (hterminal : Terminal m.Result.toNat) :
    x.value ∈ answeredBy v m := by
  rw [answeredBy, hx.1]
  simp [hx.2, hterminal]

theorem answeredBy_lt {v : Vehicle} (hv : v.Allocated) {m : CommandAck}
    {ref : CmdRef} (hmem : ref ∈ answeredBy v m) : ref < v.nextCommand := by
  unfold answeredBy at hmem
  split at hmem
  next x hx =>
      split at hmem
      · rw [List.mem_singleton.mp hmem]
        exact hv.lt_next x (CommandQueue.Head_mem hx)
      · cases hmem
  next => cases hmem

theorem Recorded.ack {s : HandlerRun} (hs : s.Recorded) (m : CommandAck) :
    ({ s with
      vehicle := s.vehicle.UpdateFromAck m
      answered := s.answered ++ answeredBy s.vehicle m } :
      HandlerRun).Recorded := by
  have hgrows : ∀ ref, s.Concluded ref →
      ref ∈ s.answered ++ answeredBy s.vehicle m ∨
        6 ≤ s.sent.count ref :=
    fun ref hconcluded => hconcluded.imp_left (List.mem_append_left _)
  refine ⟨hs.sends.ack m, ?_, ?_, ?_, hs.removes.mono rfl hgrows⟩
  · intro ref hmem
    rw [UpdateFromAck_next]
    rcases List.mem_append.mp hmem with hold | hnew
    · exact hs.answered_lt ref hold
    · exact answeredBy_lt hs.sends.allocated hnew
  · intro ref hlt hterminal
    simp only [UpdateFromAck_next] at hlt
    rcases s.vehicle.UpdateFromAck_cases m with ⟨hsame, -⟩ | ⟨x, hx, hset⟩
    · simp only [hsame] at hterminal
      exact List.mem_append_left _ (hs.terminal ref hlt hterminal)
    · simp only [hset] at hterminal
      by_cases hvalue : ref = x.value
      · subst hvalue
        rw [setStatus_self] at hterminal
        exact List.mem_append_right _ (mem_answeredBy hx hterminal)
      · rw [setStatus_of_ne _ hvalue] at hterminal
        exact List.mem_append_left _ (hs.terminal ref hlt hterminal)
  · have hphase := hs.phase
    unfold InPhase at hphase ⊢
    cases hat : s.phase with
    | idle => trivial
    | nonEmpty =>
        simp only [hat, UpdateFromAck_queue] at hphase ⊢
        exact hphase
    | examining x =>
        simp only [hat, UpdateFromAck_queue] at hphase ⊢
        obtain ⟨hmem, hhead⟩ := hphase
        refine ⟨hmem, ?_⟩
        rcases s.vehicle.UpdateFromAck_cases m with
          ⟨hsame, -⟩ | ⟨y, hy, hset⟩
        · rw [hsame]
          exact hhead
        · rw [hset]
          intro hfinished
          by_cases hvalue : x.value = y.value
          · rw [hs.sends.allocated.eq_of_value hmem
              (CommandQueue.Head_mem hy.1) hvalue]
            exact hy.1
          · rw [setStatus_of_ne _ hvalue] at hfinished
            exact hhead hfinished
    | removing x =>
        simp only [hat, UpdateFromAck_queue] at hphase ⊢
        exact ⟨hphase.1, hgrows x.value hphase.2⟩

theorem Recorded.callSize {s next : HandlerRun} (hs : s.Recorded)
    (hstep : s.step .callSize = some next) : next.Recorded := by
  simp only [HandlerRun.step] at hstep
  split at hstep
  next =>
      split at hstep
      next hsize =>
          cases hstep
          refine ⟨hs.sends, hs.answered_lt, hs.terminal, ?_, ?_⟩
          · intro hempty
            have hzero := CommandQueue.Head_eq_none.mp
              (CommandQueue.Head_eq_none_iff_contents.mpr hempty)
            exact hsize.ne' hzero
          · exact hs.removes.mono rfl (fun ref hconcluded => hconcluded)
      next =>
          cases hstep
          exact hs
  next => cases hstep

theorem Recorded.callHead {s next : HandlerRun} (hs : s.Recorded)
    (hstep : s.step .callHead = some next) : next.Recorded := by
  simp only [HandlerRun.step] at hstep
  split at hstep
  next x hphase hhead =>
      cases hstep
      refine ⟨hs.sends, hs.answered_lt, hs.terminal, ?_, ?_⟩
      · exact ⟨CommandQueue.Head_mem hhead, fun _ => hhead⟩
      · exact hs.removes.mono rfl (fun ref hconcluded => hconcluded)
  next => cases hstep

theorem Recorded.examine {s next : HandlerRun} (hs : s.Recorded)
    (hstep : s.step .examine = some next) : next.Recorded := by
  simp only [HandlerRun.step] at hstep
  split at hstep
  next x hat =>
      have hphase := hs.phase
      simp only [InPhase, hat] at hphase
      obtain ⟨hmem, hhead⟩ := hphase
      have hlt := hs.sends.allocated.lt_next x hmem
      split at hstep
      next hfinished =>
          cases hstep
          refine ⟨hs.sends.recordLast _, hs.answered_lt, hs.terminal, ?_, ?_⟩
          · exact ⟨hhead hfinished, hs.concluded hlt hfinished⟩
          · exact hs.removes.mono rfl (fun ref hconcluded => hconcluded)
      next hunfinished =>
          cases hstep
          refine ⟨(hs.sends.recordLast _).send hlt, hs.answered_lt, ?_,
            trivial, ?_⟩
          · intro ref href hterminal
            rw [sendCommand_status] at hterminal
            exact hs.terminal ref href hterminal
          · refine hs.removes.mono rfl ?_
            intro ref hconcluded
            refine hconcluded.imp_right ?_
            intro hcount
            rw [List.count_append]
            omega
  next => cases hstep

theorem Recorded.callPop {s next : HandlerRun} (hs : s.Recorded)
    (hstep : s.step .callPop = some next) : next.Recorded := by
  simp only [HandlerRun.step] at hstep
  split at hstep
  next x hat =>
      have hphase := hs.phase
      simp only [InPhase, hat] at hphase
      obtain ⟨hhead, hconcluded⟩ := hphase
      have hpopped := (CommandQueue.Pop_of_some hhead).1
      cases hstep
      refine ⟨hs.sends.pop hhead rfl rfl rfl, hs.answered_lt, hs.terminal,
        trivial, ?_, ?_⟩
      · intro removal hmem
        rcases List.mem_append.mp hmem with hold | hnew
        · exact hs.removes.same removal hold
        · rw [List.mem_singleton.mp hnew, hpopped]
          rfl
      · intro removal hmem ref href
        rcases List.mem_append.mp hmem with hold | hnew
        · exact hs.removes.concluded removal hold ref href
        · rw [List.mem_singleton.mp hnew, hpopped] at href
          obtain rfl : x.value = ref := Option.some.inj href
          exact hconcluded
  next => cases hstep

theorem Recorded.step {s next : HandlerRun} {event : HandlerEvent}
    (hs : s.Recorded) (hguard : s.KeepsExamined event)
    (hstep : s.step event = some next) : next.Recorded := by
  cases event with
  | request request =>
      cases hstep
      exact hs.request hguard
  | ack m =>
      cases hstep
      exact hs.ack m
  | callSize => exact hs.callSize hstep
  | callHead => exact hs.callHead hstep
  | examine => exact hs.examine hstep
  | callPop => exact hs.callPop hstep

/-- The type assertion on the head does not panic: the queue that had a size
still has a head. -/
theorem Recorded.callHead_enabled {s : HandlerRun} (hs : s.Recorded)
    (hat : s.phase = .nonEmpty) : ∃ next, s.step .callHead = some next := by
  have hphase := hs.phase
  simp only [InPhase, hat] at hphase
  cases hhead : s.vehicle.commandQueue.Head with
  | none =>
      exact absurd (CommandQueue.Head_eq_none_iff_contents.mp hhead) hphase
  | some x =>
      refine ⟨{ s with phase := .examining x }, ?_⟩
      simp only [HandlerRun.step, hat, hhead]

/-! ## A command that gets ahead -/

/-- A command other than the examined one was removed, and neither answered
for good nor sent the full number of times. -/
def RemovedEarly (s : HandlerRun) : Prop :=
  ∃ removal ∈ s.removals, ∃ ref ∈ removal.popped,
    ref ≠ removal.examined ∧ ¬ s.Concluded ref

theorem RemovedEarly.not_removesExamined {s : HandlerRun}
    (hs : s.RemovedEarly) : ¬ s.RemovesExamined := by
  intro hremoves
  obtain ⟨removal, hmem, ref, href, -, hearly⟩ := hs
  exact hearly (hremoves.concluded removal hmem ref href)

theorem callPop_removes_other {s : HandlerRun} {x y : Item CmdRef}
    (hat : s.phase = .removing x)
    (hhead : s.vehicle.commandQueue.Head = some y)
    (hne : y.value ≠ x.value) (hearly : ¬ s.Concluded y.value) :
    ∃ t, s.step .callPop = some t ∧ t.RemovedEarly := by
  have hpopped := (CommandQueue.Pop_of_some hhead).1
  simp only [HandlerRun.step, hat, Option.some.injEq, exists_eq_left']
  refine ⟨⟨x.value, some y.value⟩, ?_, y.value, rfl, hne, hearly⟩
  rw [hpopped]
  exact List.mem_append_right _ (List.mem_singleton.mpr rfl)

theorem Recorded.not_concluded_fresh {s : HandlerRun} (hs : s.Recorded) :
    ¬ s.Concluded s.vehicle.nextCommand := by
  rintro (hanswered | hsent)
  · exact absurd (hs.answered_lt _ hanswered) (lt_irrefl _)
  · have hmem : s.vehicle.nextCommand ∈ s.sent :=
      List.count_pos_iff.mp (by omega)
    exact absurd (hs.sends.sent_lt _ hmem) (lt_irrefl _)

/-- A request that gets ahead of a command up for removal is removed in its
place by the calls the handler still makes. -/
theorem Recorded.exists_removedEarly {s next : HandlerRun}
    {event : HandlerEvent} (hs : s.Recorded)
    (hstep : s.step event = some next) (hguard : ¬ s.KeepsExamined event) :
    ∃ later t, Run HandlerRun.step next later t ∧ t.RemovedEarly := by
  cases event with
  | request request =>
      obtain ⟨Command, hpush, -⟩ := request.apply_eq_push s.vehicle
      simp only [HandlerRun.step, hpush, Option.some.injEq] at hstep
      have hfresh := hs.not_concluded_fresh
      have hphase := hs.phase
      simp only [KeepsExamined] at hguard
      cases hat : s.phase with
      | idle => simp [StaysBehind, hat] at hguard
      | nonEmpty => simp [StaysBehind, hat] at hguard
      | examining x =>
          simp only [StaysBehind, hat, Classical.not_imp,
            not_le] at hguard
          simp only [InPhase, hat] at hphase
          obtain ⟨hfinished, hlower⟩ := hguard
          obtain ⟨hmem, hhead⟩ := hphase
          have hlt := hs.sends.allocated.lt_next x hmem
          have hexamined : next.step .examine =
              some
                { next with
                  vehicle := next.vehicle.recordLast
                    (next.vehicle.commands x.value)
                  phase := .removing x } := by
            subst hstep
            simp only [HandlerRun.step, hat, pushCommand_of_lt _ _ _ hlt,
              hfinished, if_true]
          have hahead : next.vehicle.commandQueue.Head =
              some ⟨s.vehicle.nextCommand, request.op⟩ := by
            subst hstep
            exact CommandQueue.Head_Push_lower (hhead hfinished) hlower
          have hearly : ¬ next.Concluded s.vehicle.nextCommand := by
            subst hstep
            exact hfresh
          obtain ⟨t, hpop, ht⟩ := callPop_removes_other
            (s := { next with
              vehicle := next.vehicle.recordLast
                (next.vehicle.commands x.value)
              phase := .removing x }) rfl hahead hlt.ne' hearly
          exact ⟨_, t, (GuardedRun.nil.snoc trivial hexamined).snoc trivial
            hpop, ht⟩
      | removing x =>
          simp only [StaysBehind, hat, not_le] at hguard
          simp only [InPhase, hat] at hphase
          have hlt := hs.sends.allocated.lt_next x
            (CommandQueue.Head_mem hphase.1)
          have hahead : next.vehicle.commandQueue.Head =
              some ⟨s.vehicle.nextCommand, request.op⟩ := by
            subst hstep
            exact CommandQueue.Head_Push_lower hphase.1 hguard
          have hearly : ¬ next.Concluded s.vehicle.nextCommand := by
            subst hstep
            exact hfresh
          have hstill : next.phase = .removing x := by
            subst hstep
            exact hat
          obtain ⟨t, hpop, ht⟩ :=
            callPop_removes_other hstill hahead hlt.ne' hearly
          exact ⟨_, t, GuardedRun.nil.snoc trivial hpop, ht⟩
  | ack m => exact absurd trivial hguard
  | callSize => exact absurd trivial hguard
  | callHead => exact absurd trivial hguard
  | examine => exact absurd trivial hguard
  | callPop => exact absurd trivial hguard

/-- As long as no request gets ahead of a command that is up for removal, the
handler removes the commands it examined, and none of them early; and the
first request that does is removed in the place of such a command by the
calls that complete the tick. -/
theorem handler_removes_examined (writer : Encoder) (api : VehicleApi)
    (now : Time) {events : List HandlerEvent} {s : HandlerRun}
    (hrun : GuardedRun step KeepsExamined (initial writer api now)
      events s) :
    s.RemovesExamined ∧
      ∀ event next, s.step event = some next → ¬ s.KeepsExamined event →
        ∃ later t, Run step next later t ∧
          t.RemovedEarly ∧ ¬ t.RemovesExamined := by
  have hs : s.Recorded := hrun.invariant
    (fun _ _ _ hs hguard hstep => hs.step hguard hstep)
    (initial_recorded writer api now)
  refine ⟨hs.removes, ?_⟩
  intro event next hstep hguard
  obtain ⟨later, t, hlater, hearly⟩ := hs.exists_removedEarly hstep hguard
  exact ⟨later, t, hlater, hearly, hearly.not_removesExamined⟩

theorem handler_removes_examined_single :
    ∃ s, Run step (initial (NewEncoder none) {} 0)
        [.request (.doGenericCommand 22 (Vector.replicate 7 0)), .callSize,
          .callHead, .examine, .ack ⟨22, 0⟩, .callSize, .callHead, .examine,
          .callPop] s ∧
      s.RemovesExamined := by
  have hexec : (exec step KeepsExamined (initial (NewEncoder none) {} 0)
      [.request (.doGenericCommand 22 (Vector.replicate 7 0)), .callSize,
        .callHead, .examine, .ack ⟨22, 0⟩, .callSize, .callHead, .examine,
        .callPop]).isSome := by
    decide +kernel
  obtain ⟨s, hrun⟩ := GuardedRun.of_exec_isSome hexec
  exact ⟨s, hrun.run,
    (handler_removes_examined (NewEncoder none) {} 0 hrun).1⟩

/-- A takeoff command is queued between the handler's look at a mode change
and its removal, and is removed instead. -/
theorem handler_removes_lower_push :
    ¬ ∀ events s,
      Run step (initial (NewEncoder none) {} 0) events s →
        s.RemovesExamined := by
  intro hall
  let events : List HandlerEvent :=
    [.request (.doGenericCommand 176 (Vector.replicate 7 0)), .callSize,
      .callHead, .examine, .ack ⟨176, 0⟩, .callSize, .callHead, .examine,
      .request (.doGenericCommand 22 (Vector.replicate 7 0)), .callPop]
  have hexec : (exec step (fun _ _ => True)
      (initial (NewEncoder none) {} 0) events).map HandlerRun.removals =
        some [⟨0, some 1⟩] := by
    decide +kernel
  obtain ⟨s, hrun, hremovals⟩ := GuardedRun.of_exec_map hexec
  have hsame := (hall events s hrun).same ⟨0, some 1⟩
    (by rw [hremovals]; exact List.mem_singleton.mpr rfl)
  exact absurd hsame (by decide)

end HandlerRun

end DronesmithEngine
