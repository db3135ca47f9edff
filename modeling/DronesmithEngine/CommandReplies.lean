import DronesmithEngine.AcceptedCommands
import Mathlib.Tactic

/-!
# Replies to command requests

A request for a command pushes it and polls the last command and its result,
which the handler leaves in one place for all clients.  A client that finds
its own op number there with a result takes the result as its reply; one that
does not in ten polls replies with what it saw last.  The result is read and
cleared in separate steps.
-/

namespace DronesmithEngine

open Mavlink Utils Api LabelledRuns Vehicle CommandRun

/-- Where `commandBlock` stands: polling after a number of attempts, about to
clear the result it has found, or done, with the number of times its command
had been sent by then. -/
inductive ClientPhase
  | polling (attempts : ℕ)
  | matched (num : ℤ)
  | replied (num : ℤ) (timesSent : ℕ)
  deriving DecidableEq

def ClientPhase.Polling : ClientPhase → Prop
  | .polling _ => True
  | _ => False

instance : ∀ phase : ClientPhase, Decidable phase.Polling
  | .polling _ => .isTrue trivial
  | .matched _ => .isFalse id
  | .replied _ _ => .isFalse id

structure Client where
  ref : CmdRef
  cmd : ℤ
  phase : ClientPhase
  deriving DecidableEq

inductive ClientEvent
  | commandBlock (request : CommandRequest)
  | queue (event : CommandEvent)
  | poll (k : ℕ)
  | null (k : ℕ)

structure ClientRun where
  run : CommandRun
  clients : List Client

namespace ClientRun

def initial (writer : Encoder) (api : VehicleApi) (now : Time) :
    ClientRun where
  run := CommandRun.initial writer api now
  clients := []

/-- One iteration of the loop of `commandBlock`, after `attempts`. -/
def pollOnce (cmd : ℤ) (attempts timesSent : ℕ) (v : Vehicle) :
    ClientPhase :=
  let (op, _, num) := v.GetLastSuccessfulCmd
  if op = cmd ∧ num ≠ 10 then .matched num
  else if 10 ≤ attempts + 1 then .replied num timesSent
  else .polling (attempts + 1)

def step (s : ClientRun) : ClientEvent → Option ClientRun
  | .commandBlock request =>
      (s.run.step (.request request)).map fun run =>
        { run := run
          clients := s.clients ++
            [⟨s.run.vehicle.nextCommand, request.op, .polling 0⟩] }
  | .queue event => (s.run.step event).map fun run => { s with run := run }
  | .poll k => do
      let c ← s.clients[k]?
      match c.phase with
      | .polling attempts =>
          let phase := pollOnce c.cmd attempts (s.run.sent.count c.ref)
            s.run.vehicle
          some { s with clients := s.clients.set k { c with phase := phase } }
      | _ => none
  | .null k => do
      let c ← s.clients[k]?
      match c.phase with
      | .matched num =>
          some
            { run :=
                { s.run with
                  vehicle := s.run.vehicle.NullLastSuccessfulCmd }
              clients := s.clients.set k
                { c with
                  phase := .replied num (s.run.sent.count c.ref) } }
      | _ => none

/-- The command has left the queue with this result, and was transmitted if
it was accepted. -/
structure Concluded (s : CommandRun) (ref : CmdRef) (num : ℤ) : Prop where
  left : ¬ s.Queued ref
  status : ((s.vehicle.commands ref).Status : ℤ) = num
  transmitted : num = MAV_RESULT_ACCEPTED → ref ∈ s.sent

/-- Every reply gives the result its command has left the queue with, and the
command has not been sent since. -/
def RepliesFinal (s : ClientRun) : Prop :=
  ∀ c ∈ s.clients, ∀ num timesSent, c.phase = .replied num timesSent →
    Concluded s.run c.ref num ∧ s.run.sent.count c.ref = timesSent

/-! ## When replies are right -/

/-- The op number that the handler leaves with a command's result. -/
def opLeft (v : Vehicle) (ref : CmdRef) : ℤ :=
  (v.commands ref).Command.Command.toNat

/-- No client polls for this op number. -/
def Unread (s : ClientRun) (op : ℤ) : Prop :=
  ∀ c ∈ s.clients, c.phase.Polling → c.cmd ≠ op

/-- No queued command and no result left over from an earlier one has this
op number. -/
def Fresh (v : Vehicle) (op : ℤ) : Prop :=
  (∀ x ∈ v.commandQueue.contents, opLeft v x.value ≠ op) ∧
    (v.commandLast = op → v.commandLastInfo = 10)

/-- An acknowledgement of the head, as far as the client that waits for it is
concerned, does not leave it in the queue with a result, and does not accept
it before it was sent. -/
def Acknowledges (s : ClientRun) (m : CommandAck) (c : Client) : Prop :=
  (c.cmd = opLeft s.run.vehicle c.ref →
    m.Result.toNat = 10 ∨ Terminal m.Result.toNat ∨
      5 < (s.run.vehicle.commands c.ref).TimesSent) ∧
  (m.Result.toNat = MAV_RESULT_ACCEPTED →
    0 < (s.run.vehicle.commands c.ref).TimesSent)

/-- A command is pushed only while no client polls for its op number and
nothing in the queue or in the last result has the number its client polls
for; acknowledgements meet the condition above; a client whose last poll finds
nothing has seen its command leave the queue, with the result that is stored;
and no client polls for the number 10 while a result is cleared. -/
def Apart (s : ClientRun) : ClientEvent → Prop
  | .commandBlock request =>
      s.Unread (UInt16.ofInt request.op).toNat ∧
        Fresh s.run.vehicle request.op
  | .queue (.request request) => s.Unread (UInt16.ofInt request.op).toNat
  | .queue .tick => True
  | .queue (.ack m _) =>
      ∀ x ∈ s.run.vehicle.commandQueue.Head,
        x.priority = m.Command.toNat →
          ∀ c ∈ s.clients, c.phase.Polling → c.ref = x.value →
            s.Acknowledges m c
  | .poll k =>
      ∀ c ∈ s.clients[k]?, c.phase = .polling 9 →
        (s.run.vehicle.commandLast = c.cmd →
          s.run.vehicle.commandLastInfo = 10) →
          ¬ s.run.Queued c.ref ∧
            (s.run.vehicle.commands c.ref).Status =
              s.run.vehicle.commandLastInfo
  | .null _ => s.Unread 10

instance (s : ClientRun) (op : ℤ) : Decidable (s.Unread op) :=
  inferInstanceAs (Decidable (∀ c ∈ s.clients, _))

instance (v : Vehicle) (op : ℤ) : Decidable (Fresh v op) :=
  inferInstanceAs (Decidable (_ ∧ _))

instance (s : ClientRun) (m : CommandAck) (c : Client) :
    Decidable (s.Acknowledges m c) :=
  inferInstanceAs (Decidable (_ ∧ _))

instance (s : ClientRun) : ∀ event, Decidable (s.Apart event)
  | .commandBlock _ => inferInstanceAs (Decidable (_ ∧ _))
  | .queue (.request _) => inferInstanceAs (Decidable (s.Unread _))
  | .queue .tick => .isTrue trivial
  | .queue (.ack _ _) => inferInstanceAs (Decidable (∀ x ∈ _, _))
  | .poll _ => inferInstanceAs (Decidable (∀ c ∈ _, _))
  | .null _ => inferInstanceAs (Decidable (s.Unread _))

/-! ## Concluded commands -/

/-- A step keeps a command's conclusion, and does not send the command. -/
theorem Concluded.step {s next : CommandRun} {event : CommandEvent}
    {ref : CmdRef} {num : ℤ}
    (hlt : ref < s.vehicle.nextCommand) (hconcluded : Concluded s ref num)
    (hstep : s.step event = some next) :
    Concluded next ref num ∧ next.sent.count ref = s.sent.count ref := by
  obtain ⟨hleft, hstatus, htransmitted⟩ := hconcluded
  have hqueued {x : Item CmdRef}
      (hx : x ∈ s.vehicle.commandQueue.contents) : ref ≠ x.value :=
    fun hvalue => hleft ⟨x, hx, hvalue.symm⟩
  cases event with
  | request request =>
      obtain ⟨Command, hpush, -⟩ := request.apply_eq_push s.vehicle
      simp only [CommandRun.step, hpush, Option.some.injEq] at hstep
      subst hstep
      refine ⟨⟨?_, ?_, htransmitted⟩, rfl⟩
      · rintro ⟨x, hx, hvalue⟩
        rcases mem_pushCommand.mp hx with rfl | hold
        · exact absurd hvalue hlt.ne'
        · exact hleft ⟨x, hold, hvalue⟩
      · rw [pushCommand_of_lt _ _ _ hlt]
        exact hstatus
  | tick =>
      simp only [CommandRun.step, Option.some.injEq] at hstep
      subst hstep
      rcases s.vehicle.sysOnlineHandler_cases with
        ⟨-, hidle⟩ | ⟨x, hx, -, hremoved⟩ | ⟨x, hx, -, hsent⟩
      · rw [hidle]
        simp only [CommandRun.transmitted, List.append_nil]
        exact ⟨⟨hleft, hstatus, htransmitted⟩, trivial⟩
      · rw [hremoved]
        simp only [CommandRun.transmitted, List.append_nil]
        refine ⟨⟨?_, hstatus, htransmitted⟩, trivial⟩
        rintro ⟨y, hy, hvalue⟩
        exact hleft ⟨y, mem_of_mem_pop hx hy, hvalue⟩
      · rw [hsent]
        have hne := hqueued (CommandQueue.Head_mem hx)
        refine ⟨⟨hleft, ?_, ?_⟩, ?_⟩
        · rw [sendCommand_of_ne _ hne]
          exact hstatus
        · intro haccepted
          exact List.mem_append_left _ (htransmitted haccepted)
        · simp [CommandRun.transmitted, List.count_append, hne.symm]
  | ack m answers =>
      obtain ⟨hvehicle, hsent⟩ := step_ack hstep
      refine ⟨⟨?_, ?_, ?_⟩, by rw [hsent]⟩
      · rintro ⟨x, hx, hvalue⟩
        rw [hvehicle, UpdateFromAck_queue] at hx
        exact hleft ⟨x, hx, hvalue⟩
      · rw [hvehicle]
        rcases s.vehicle.UpdateFromAck_cases m with
          ⟨hsame, -⟩ | ⟨x, hx, hset⟩
        · rw [hsame]
          exact hstatus
        · rw [hset, setStatus_of_ne _ (hqueued (CommandQueue.Head_mem hx.1))]
          exact hstatus
      · rw [hsent]
        exact htransmitted

theorem opLeft_push {v : Vehicle} (Command : CommandLong) (op : ℤ)
    {ref : CmdRef} (hlt : ref < v.nextCommand) :
    opLeft (v.pushCommand Command op) ref = opLeft v ref := by
  rw [opLeft, pushCommand_of_lt _ _ _ hlt]
  rfl

theorem opLeft_send (v : Vehicle) (ref other : CmdRef) :
    opLeft (v.sendCommand ref) other = opLeft v other := by
  unfold opLeft
  by_cases hsame : other = ref
  · subst hsame
    rw [sendCommand_self]
  · rw [sendCommand_of_ne v hsame]

theorem opLeft_ack (v : Vehicle) (m : CommandAck) (ref : CmdRef) :
    opLeft (v.UpdateFromAck m) ref = opLeft v ref := by
  rcases v.UpdateFromAck_cases m with ⟨hsame, -⟩ | ⟨x, -, hset⟩
  · rw [hsame]
  · rw [hset, opLeft]
    by_cases hvalue : ref = x.value
    · subst hvalue
      rw [setStatus_self]
      rfl
    · rw [setStatus_of_ne _ hvalue]
      rfl

/-! ## Waiting clients -/

/-- What holds of a client's command while it polls. -/
structure Waits (s : CommandRun) (ref : CmdRef) (cmd : ℤ) : Prop where
  own : ∀ x ∈ s.vehicle.commandQueue.contents,
    opLeft s.vehicle x.value = cmd → x.value = ref
  settled : cmd = opLeft s.vehicle ref → s.Queued ref →
    (s.vehicle.commands ref).Status = 10 ∨ finished (s.vehicle.commands ref)
  transmitted : (s.vehicle.commands ref).Status = MAV_RESULT_ACCEPTED →
    ref ∈ s.sent
  found : s.vehicle.commandLast = cmd → s.vehicle.commandLastInfo ≠ 10 →
    Concluded s ref s.vehicle.commandLastInfo

theorem Waits.request {s next : CommandRun} {request : CommandRequest}
    {ref : CmdRef} {cmd : ℤ} (hs : s.Ledger)
    (hlt : ref < s.vehicle.nextCommand) (hwaits : Waits s ref cmd)
    (hne : cmd ≠ (UInt16.ofInt request.op).toNat)
    (hstep : s.step (.request request) = some next) :
    Waits next ref cmd := by
  obtain ⟨Command, hpush, hop⟩ := request.apply_eq_push s.vehicle
  have hconcluded {num : ℤ} (h : Concluded s ref num) :=
    (h.step hlt hstep).1
  simp only [CommandRun.step, hpush, Option.some.injEq] at hstep
  subst hstep
  refine ⟨?_, ?_, ?_, fun hlast hinfo => hconcluded (hwaits.found hlast hinfo)⟩
  · intro x hx hleft
    rcases mem_pushCommand.mp hx with rfl | hold
    · rw [opLeft, pushCommand_self, hop] at hleft
      exact absurd hleft.symm hne
    · rw [opLeft_push _ _ (hs.sends.allocated.lt_next x hold)] at hleft
      exact hwaits.own x hold hleft
  · rw [opLeft_push _ _ hlt, pushCommand_of_lt _ _ _ hlt]
    rintro hcmd ⟨x, hx, hvalue⟩
    rcases mem_pushCommand.mp hx with rfl | hold
    · exact absurd hvalue hlt.ne'
    · exact hwaits.settled hcmd ⟨x, hold, hvalue⟩
  · rw [pushCommand_of_lt _ _ _ hlt]
    exact hwaits.transmitted

/-- A client whose op number is fresh begins to wait. -/
theorem Waits.begin {s next : CommandRun} {request : CommandRequest}
    (hs : s.Ledger) (hfresh : Fresh s.vehicle request.op)
    (hstep : s.step (.request request) = some next) :
    Waits next s.vehicle.nextCommand request.op := by
  obtain ⟨Command, hpush, -⟩ := request.apply_eq_push s.vehicle
  simp only [CommandRun.step, hpush, Option.some.injEq] at hstep
  subst hstep
  refine ⟨?_, ?_, ?_, ?_⟩
  · intro x hx hleft
    rcases mem_pushCommand.mp hx with rfl | hold
    · rfl
    · rw [opLeft_push _ _ (hs.sends.allocated.lt_next x hold)] at hleft
      exact absurd hleft (hfresh.1 x hold)
  · intro _ _
    rw [pushCommand_self]
    exact Or.inl rfl
  · rw [pushCommand_self]
    intro haccepted
    simp at haccepted
  · intro hlast hinfo
    exact absurd (hfresh.2 hlast) hinfo

theorem Waits.tick {s next : CommandRun} {ref : CmdRef} {cmd : ℤ}
    (hs : s.Ledger) (hwaits : Waits s ref cmd)
    (hstep : s.step .tick = some next) : Waits next ref cmd := by
  simp only [CommandRun.step, Option.some.injEq] at hstep
  subst hstep
  rcases s.vehicle.sysOnlineHandler_cases with
    ⟨-, hidle⟩ | ⟨x, hx, hfinished, hremoved⟩ | ⟨x, hx, hunfinished, hsent⟩
  · rw [hidle]
    simp only [CommandRun.transmitted, List.append_nil]
    exact hwaits
  · rw [hremoved]
    simp only [CommandRun.transmitted, List.append_nil]
    have hmem := CommandQueue.Head_mem hx
    refine ⟨?_, ?_, hwaits.transmitted, ?_⟩
    · intro y hy hleft
      exact hwaits.own y (mem_of_mem_pop hx hy) hleft
    · rintro hcmd ⟨y, hy, hvalue⟩
      exact hwaits.settled hcmd ⟨y, mem_of_mem_pop hx hy, hvalue⟩
    · -- The result left behind is that of the client's own command.
      intro hlast _
      have hown : x.value = ref := hwaits.own x hmem hlast
      subst hown
      refine ⟨?_, rfl, ?_⟩
      · rintro ⟨y, hy, hvalue⟩
        have hperm := (CommandQueue.Pop_of_some hx).2.map Item.value
        have hnodup := hperm.nodup_iff.mp hs.sends.allocated.nodup
        rw [List.map_cons, List.nodup_cons] at hnodup
        exact hnodup.1 (List.mem_map.mpr ⟨y, hy, hvalue⟩)
      · intro haccepted
        exact hwaits.transmitted (Int.ofNat_inj.mp haccepted)
  · rw [hsent]
    have hmem := CommandQueue.Head_mem hx
    refine ⟨?_, ?_, ?_, ?_⟩
    · intro y hy hleft
      rw [opLeft_send] at hleft
      exact hwaits.own y hy hleft
    · intro hcmd hqueued
      rw [opLeft_send] at hcmd
      rw [sendCommand_status]
      rcases hwaits.settled hcmd hqueued with hten | hfinished
      · exact Or.inl hten
      · exact Or.inr (finished_of_sendCommand x.value ref hfinished)
    · rw [sendCommand_status]
      intro haccepted
      exact List.mem_append_left _ (hwaits.transmitted haccepted)
    · -- A command that is sent again has no result yet.
      intro hlast hinfo
      have hown : x.value = ref := hwaits.own x hmem hlast
      subst hown
      rcases hwaits.settled hlast.symm ⟨x, hmem, rfl⟩ with
        hten | hfinished
      · exact absurd (congrArg Int.ofNat hten) hinfo
      · exact absurd hfinished hunfinished

theorem Waits.ack {s next : CommandRun} {m : CommandAck}
    {answers : Option CmdRef} {ref : CmdRef} {cmd : ℤ} (hs : s.Ledger)
    (hlt : ref < s.vehicle.nextCommand) (hwaits : Waits s ref cmd)
    (hguard : ∀ x, s.vehicle.Matches m x → ref = x.value →
      (cmd = opLeft s.vehicle ref → m.Result.toNat = 10 ∨
        Terminal m.Result.toNat ∨ 5 < (s.vehicle.commands ref).TimesSent) ∧
      (m.Result.toNat = MAV_RESULT_ACCEPTED →
        0 < (s.vehicle.commands ref).TimesSent))
    (hstep : s.step (.ack m answers) = some next) : Waits next ref cmd := by
  have hconcluded {num : ℤ} (h : Concluded s ref num) :=
    (h.step hlt hstep).1
  obtain ⟨hvehicle, hsent⟩ := step_ack hstep
  have hlast : next.vehicle.commandLast = s.vehicle.commandLast ∧
      next.vehicle.commandLastInfo = s.vehicle.commandLastInfo := by
    rw [hvehicle]
    rcases s.vehicle.UpdateFromAck_cases m with ⟨hsame, -⟩ | ⟨x, -, hset⟩
    · rw [hsame]
      exact ⟨rfl, rfl⟩
    · rw [hset]
      exact ⟨rfl, rfl⟩
  have hqueued (other : CmdRef) : next.Queued other ↔ s.Queued other := by
    rw [Queued, hvehicle, UpdateFromAck_queue]
    rfl
  refine ⟨?_, ?_, ?_, ?_⟩
  · intro x hx hleft
    rw [hvehicle, UpdateFromAck_queue] at hx
    rw [hvehicle, opLeft_ack] at hleft
    exact hwaits.own x hx hleft
  · rw [hqueued, hvehicle, opLeft_ack]
    intro hcmd hmem
    rcases s.vehicle.UpdateFromAck_cases m with ⟨hsame, -⟩ | ⟨x, hx, hset⟩
    · rw [hsame]
      exact hwaits.settled hcmd hmem
    · rw [hset]
      by_cases hvalue : ref = x.value
      · have hresult := (hguard x hx hvalue).1 hcmd
        rw [hvalue] at hresult ⊢
        rw [setStatus_self]
        rcases hresult with hten | hterminal | htimes
        · exact Or.inl hten
        · exact Or.inr (finished_of_terminal hterminal)
        · exact Or.inr (Or.inr (Or.inr htimes))
      · rw [setStatus_of_ne _ hvalue]
        exact hwaits.settled hcmd hmem
  · rw [hsent, hvehicle]
    rcases s.vehicle.UpdateFromAck_cases m with ⟨hsame, -⟩ | ⟨x, hx, hset⟩
    · rw [hsame]
      exact hwaits.transmitted
    · rw [hset]
      by_cases hvalue : ref = x.value
      · have hresult := (hguard x hx hvalue).2
        rw [hvalue] at hresult ⊢
        rw [setStatus_self,
          hs.sends.mem_sent (CommandQueue.Head_mem hx.1)]
        exact hresult
      · rw [setStatus_of_ne _ hvalue]
        exact hwaits.transmitted
  · rw [hlast.1, hlast.2]
    intro hop hinfo
    exact hconcluded (hwaits.found hop hinfo)

/-! ## All clients -/

structure Served (s : CommandRun) (c : Client) : Prop where
  lt : c.ref < s.vehicle.nextCommand
  attempts : ∀ attempts, c.phase = .polling attempts → attempts < 10
  waits : c.phase.Polling → Waits s c.ref c.cmd
  matched : ∀ num, c.phase = .matched num → Concluded s c.ref num
  replied : ∀ num timesSent, c.phase = .replied num timesSent →
    Concluded s c.ref num ∧ s.sent.count c.ref = timesSent

structure AllServed (s : ClientRun) : Prop where
  ledger : s.run.Ledger
  served : ∀ c ∈ s.clients, Served s.run c

theorem AllServed.repliesFinal {s : ClientRun} (hs : s.AllServed) :
    s.RepliesFinal :=
  fun c hc num timesSent hphase => (hs.served c hc).replied num timesSent
    hphase

theorem initial_allServed (writer : Encoder) (api : VehicleApi)
    (now : Time) : (initial writer api now).AllServed where
  ledger := initial_ledger writer api now
  served := by simp [initial]

theorem nextCommand_le {s next : CommandRun} {event : CommandEvent}
    (hstep : s.step event = some next) :
    s.vehicle.nextCommand ≤ next.vehicle.nextCommand := by
  cases event with
  | request request =>
      obtain ⟨Command, hpush, -⟩ := request.apply_eq_push s.vehicle
      simp only [CommandRun.step, hpush, Option.some.injEq] at hstep
      subst hstep
      exact Nat.le_succ _
  | tick =>
      simp only [CommandRun.step, Option.some.injEq] at hstep
      subst hstep
      rcases s.vehicle.sysOnlineHandler_cases with
        ⟨-, hidle⟩ | ⟨x, -, -, hremoved⟩ | ⟨x, -, -, hsent⟩
      · rw [hidle]
      · rw [hremoved]
        exact le_rfl
      · rw [hsent]
        exact le_rfl
  | ack m answers =>
      rw [(step_ack hstep).1, UpdateFromAck_next]

/-- A step of the queue that keeps a polling client waiting keeps every
client served. -/
theorem Served.step {s next : CommandRun} {event : CommandEvent}
    {c : Client} (hc : Served s c) (hstep : s.step event = some next)
    (hwaits : c.phase.Polling → Waits next c.ref c.cmd) :
    Served next c where
  lt := lt_of_lt_of_le hc.lt (nextCommand_le hstep)
  attempts := hc.attempts
  waits := hwaits
  matched num hphase :=
    ((hc.matched num hphase).step hc.lt hstep).1
  replied num timesSent hphase := by
    obtain ⟨hconcluded, hcount⟩ := hc.replied num timesSent hphase
    obtain ⟨hkept, hsame⟩ := hconcluded.step hc.lt hstep
    exact ⟨hkept, hsame.trans hcount⟩

theorem AllServed.queue {s : ClientRun} {next : CommandRun}
    {event : CommandEvent} (hs : s.AllServed)
    (hguard : s.Apart (.queue event))
    (hstep : s.run.step event = some next) :
    AllServed { s with run := next } where
  ledger := hs.ledger.step hstep
  served := by
    intro c hc
    have hserved := hs.served c hc
    apply hserved.step hstep
    intro hpolling
    have hwaits := hserved.waits hpolling
    cases event with
    | request request =>
        exact hwaits.request hs.ledger hserved.lt (hguard c hc hpolling)
          hstep
    | tick => exact hwaits.tick hs.ledger hstep
    | ack m answers =>
        apply hwaits.ack hs.ledger hserved.lt _ hstep
        intro x hx hvalue
        exact hguard x hx.1 hx.2 c hc hpolling hvalue

theorem AllServed.commandBlock {s : ClientRun} {next : CommandRun}
    {request : CommandRequest} (hs : s.AllServed)
    (hguard : s.Apart (.commandBlock request))
    (hstep : s.run.step (.request request) = some next) :
    AllServed
      { run := next
        clients := s.clients ++
          [⟨s.run.vehicle.nextCommand, request.op, .polling 0⟩] } where
  ledger := hs.ledger.step hstep
  served := by
    obtain ⟨hunread, hfresh⟩ := hguard
    intro c hc
    rcases List.mem_append.mp hc with hold | hnew
    · have hserved := hs.served c hold
      apply hserved.step hstep
      intro hpolling
      exact (hserved.waits hpolling).request hs.ledger hserved.lt
        (hunread c hold hpolling) hstep
    · rw [List.mem_singleton.mp hnew]
      have hwaits := Waits.begin hs.ledger hfresh hstep
      obtain ⟨Command, hpush, -⟩ := request.apply_eq_push s.run.vehicle
      simp only [CommandRun.step, hpush, Option.some.injEq] at hstep
      subst hstep
      refine ⟨Nat.lt_succ_self _, ?_, fun _ => hwaits, by simp, by simp⟩
      rintro attempts ⟨rfl⟩
      exact Nat.zero_lt_succ 9

/-- What a poll makes of a client. -/
theorem Served.poll {s : CommandRun} {c : Client} (hc : Served s c)
    {attempts : ℕ} (hphase : c.phase = .polling attempts)
    (hlast : attempts = 9 →
      (s.vehicle.commandLast = c.cmd →
        s.vehicle.commandLastInfo = 10) →
        ¬ s.Queued c.ref ∧
          (s.vehicle.commands c.ref).Status =
            s.vehicle.commandLastInfo) :
    Served s
      { c with
        phase := pollOnce c.cmd attempts (s.sent.count c.ref)
          s.vehicle } := by
  have hfew := hc.attempts attempts hphase
  have hwaits := hc.waits (by rw [hphase]; trivial)
  unfold pollOnce GetLastSuccessfulCmd
  simp only
  by_cases hfound : s.vehicle.commandLast = c.cmd ∧
      s.vehicle.commandLastInfo ≠ 10
  · rw [if_pos hfound]
    refine ⟨hc.lt, by simp, fun hpolling => absurd hpolling id, ?_,
      by simp⟩
    rintro num ⟨rfl⟩
    exact hwaits.found hfound.1 hfound.2
  · rw [if_neg hfound]
    by_cases hend : 10 ≤ attempts + 1
    · rw [if_pos hend]
      obtain ⟨hleft, hstatus⟩ := hlast (by omega) (by tauto)
      refine ⟨hc.lt, by simp, fun hpolling => absurd hpolling id, by simp,
        ?_⟩
      rintro num timesSent ⟨rfl, rfl⟩
      refine ⟨⟨hleft, hstatus, ?_⟩, rfl⟩
      intro haccepted
      rw [haccepted] at hstatus
      exact hwaits.transmitted (Int.ofNat_inj.mp hstatus)
    · rw [if_neg hend]
      refine ⟨hc.lt, ?_, fun _ => hwaits, by simp, by simp⟩
      rintro next ⟨rfl⟩
      omega

/-- Clearing the last result leaves the queue and the commands alone. -/
theorem Served.null {s : CommandRun} {c : Client} (hc : Served s c)
    (hother : c.phase.Polling → c.cmd ≠ 10) :
    Served { s with vehicle := s.vehicle.NullLastSuccessfulCmd } c where
  lt := hc.lt
  attempts := hc.attempts
  waits hpolling := by
    obtain ⟨hown, hsettled, htransmitted, -⟩ := hc.waits hpolling
    refine ⟨hown, hsettled, htransmitted, ?_⟩
    intro hop _
    exact absurd hop.symm (hother hpolling)
  matched num hphase := by
    obtain ⟨hleft, hstatus, htransmitted⟩ := hc.matched num hphase
    exact ⟨hleft, hstatus, htransmitted⟩
  replied num timesSent hphase := by
    obtain ⟨⟨hleft, hstatus, htransmitted⟩, hcount⟩ :=
      hc.replied num timesSent hphase
    exact ⟨⟨hleft, hstatus, htransmitted⟩, hcount⟩

theorem AllServed.step {s next : ClientRun} {event : ClientEvent}
    (hs : s.AllServed) (hguard : s.Apart event)
    (hstep : s.step event = some next) : next.AllServed := by
  cases event with
  | commandBlock request =>
      simp only [ClientRun.step, Option.map_eq_some_iff] at hstep
      obtain ⟨run, hrun, rfl⟩ := hstep
      exact hs.commandBlock hguard hrun
  | queue event =>
      simp only [ClientRun.step, Option.map_eq_some_iff] at hstep
      obtain ⟨run, hrun, rfl⟩ := hstep
      exact hs.queue hguard hrun
  | poll k =>
      simp only [ClientRun.step, Option.bind_eq_bind,
        Option.bind_eq_some_iff] at hstep
      obtain ⟨c, hc, hphase⟩ := hstep
      have hserved := hs.served c (List.mem_of_getElem? hc)
      cases hpolling : c.phase with
      | polling attempts =>
          simp only [hpolling, Option.some.injEq] at hphase
          subst hphase
          have hpolled := hserved.poll hpolling (by
            rintro rfl hnone
            exact hguard c hc hpolling hnone)
          refine ⟨hs.ledger, ?_⟩
          intro other hother
          rcases List.mem_or_eq_of_mem_set hother with hold | rfl
          · exact hs.served other hold
          · exact hpolled
      | matched num => simp [hpolling] at hphase
      | replied num timesSent => simp [hpolling] at hphase
  | null k =>
      simp only [ClientRun.step, Option.bind_eq_bind,
        Option.bind_eq_some_iff] at hstep
      obtain ⟨c, hc, hphase⟩ := hstep
      have hmem := List.mem_of_getElem? hc
      cases hmatched : c.phase with
      | polling attempts => simp [hmatched] at hphase
      | replied num timesSent => simp [hmatched] at hphase
      | matched num =>
          simp only [hmatched, Option.some.injEq] at hphase
          subst hphase
          have hsends := hs.ledger.sends
          refine ⟨⟨⟨hsends.allocated.of_same rfl rfl, hsends.sent_lt,
            hsends.timesSent⟩, hs.ledger.accepted_lt⟩, ?_⟩
          intro other hother
          rcases List.mem_or_eq_of_mem_set hother with hold | rfl
          · exact (hs.served other hold).null (hguard other hold)
          · have hserved := (hs.served c hmem).null (hguard c hmem)
            have hconcluded := hserved.matched num hmatched
            refine ⟨hserved.lt, by simp,
              fun hpolling => absurd hpolling id, by simp, ?_⟩
            rintro num' timesSent ⟨rfl, rfl⟩
            exact ⟨hconcluded, rfl⟩

/-- In every run whose steps meet the condition, every reply gives the result
its own command has left the queue with, an accepted command was transmitted,
and no command is transmitted after the reply. -/
theorem replies_final (writer : Encoder) (api : VehicleApi) (now : Time)
    {events : List ClientEvent} {s : ClientRun}
    (hrun : GuardedRun step Apart (initial writer api now) events s) :
    s.RepliesFinal := by
  have hs : s.AllServed := hrun.invariant
    (fun s event next hs hguard hstep => hs.step hguard hstep)
    (initial_allServed writer api now)
  exact hs.repliesFinal

theorem replies_final_single :
    ∃ s, Run step (initial (NewEncoder none) {} 0)
        [.commandBlock (.doGenericCommand 22 (Vector.replicate 7 0)),
          .queue .tick, .poll 0, .queue (.ack ⟨22, 0⟩ none), .queue .tick,
          .poll 0, .null 0] s ∧
      s.RepliesFinal := by
  have hexec : (exec step Apart (initial (NewEncoder none) {} 0)
      [.commandBlock (.doGenericCommand 22 (Vector.replicate 7 0)),
        .queue .tick, .poll 0, .queue (.ack ⟨22, 0⟩ none), .queue .tick,
        .poll 0, .null 0]).isSome := by
    decide +kernel
  obtain ⟨s, hrun⟩ := GuardedRun.of_exec_isSome hexec
  exact ⟨s, hrun.run,
    replies_final (NewEncoder none) {} 0 hrun⟩

/-- Two clients ask for the same command.  The first command is accepted, and
the second client polls first: it replies that its command was accepted,
which was not transmitted. -/
theorem reply_for_another_command :
    ¬ ∀ events s, Run step (initial (NewEncoder none) {} 0) events s →
      s.RepliesFinal := by
  intro hall
  let events : List ClientEvent :=
    [.commandBlock (.doGenericCommand 22 (Vector.replicate 7 0)),
      .queue .tick,
      .commandBlock (.doGenericCommand 22 (Vector.replicate 7 0)),
      .queue (.ack ⟨22, 0⟩ none), .queue .tick, .poll 1, .null 1]
  have hexec : (exec step (fun _ _ => True)
      (initial (NewEncoder none) {} 0) events).map (fun s =>
        (s.clients[1]?, s.run.sent)) =
          some (some ⟨1, 22, .replied 0 0⟩, [0]) := by
    decide +kernel
  obtain ⟨s, hrun, heq⟩ := GuardedRun.of_exec_map hexec
  simp only [Prod.mk.injEq] at heq
  obtain ⟨hclient, hsent⟩ := heq
  have hfinal := hall events s hrun ⟨1, 22, .replied 0 0⟩
    (List.mem_of_getElem? hclient) 0 0 rfl
  have htransmitted := hfinal.1.transmitted rfl
  rw [hsent] at htransmitted
  exact absurd htransmitted (by decide)

end ClientRun

end DronesmithEngine
