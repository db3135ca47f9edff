import DronesmithEngine.CommandReplies
import Mathlib.Tactic

/-!
# Op numbers

A command is queued and waited for under the `int` of its request, and carries
a `uint16` of it.  An acknowledgement names the number that was carried, and so
does what the handler leaves.
-/

namespace DronesmithEngine

open Mavlink Utils Api LabelledRuns Vehicle CommandRun

namespace ClientRun

/-- Every entry of the queue has the op number of its command as its priority,
so that an acknowledgement of that number matches it at the head, and every
client waits for the number its command carries. -/
structure OpsAgree (s : ClientRun) : Prop where
  carried : ∀ x ∈ s.run.vehicle.commandQueue.contents,
    x.priority = opLeft s.run.vehicle x.value
  answered : ∀ x ∈ s.run.vehicle.commandQueue.Head, ∀ m : CommandAck,
    s.run.vehicle.Matches m x ↔
      m.Command = (s.run.vehicle.commands x.value).Command.Command
  awaited : ∀ c ∈ s.clients, c.cmd = opLeft s.run.vehicle c.ref

/-- A request is for a number that a `uint16` can hold. -/
def Fits : ClientEvent → Prop
  | .commandBlock request => 0 ≤ request.op ∧ request.op < 65536
  | .queue (.request request) => 0 ≤ request.op ∧ request.op < 65536
  | _ => True

/-! ## Numbers that fit -/

theorem toNat_ofInt_eq_iff (op : ℤ) :
    ((UInt16.ofInt op).toNat : ℤ) = op ↔ 0 ≤ op ∧ op < 65536 := by
  have hmod : ((UInt16.ofInt op).toNat : ℤ) = op % 65536 := by
    rw [UInt16.ofInt, UInt16.toNat_ofNat']
    omega
  rw [hmod]
  omega

/-- The priorities alone say what an acknowledgement matches. -/
theorem answered_of_carried {v : Vehicle}
    (hcarried : ∀ x ∈ v.commandQueue.contents, x.priority = opLeft v x.value)
    {x : Item CmdRef} (hx : v.commandQueue.Head = some x) (m : CommandAck) :
    v.Matches m x ↔ m.Command = (v.commands x.value).Command.Command := by
  rw [Matches, and_iff_right hx,
    hcarried x (CommandQueue.Head_mem hx), opLeft, Int.ofNat_inj,
    UInt16.toNat_inj, eq_comm]

/-! ## One step -/

/-- One command is pushed, and a client may begin to wait for it. -/
structure Pushes (s next : ClientRun) (op : ℤ) : Prop where
  push : ∃ Command : CommandLong,
    next.run.vehicle = s.run.vehicle.pushCommand Command op ∧
      Command.Command = UInt16.ofInt op
  clients : ∀ c ∈ next.clients,
    c ∈ s.clients ∨ c = ⟨s.run.vehicle.nextCommand, op, .polling 0⟩

/-- Nothing is pushed, and no command or client changes its op number. -/
structure KeepsOps (s next : ClientRun) : Prop where
  contents : ∀ x ∈ next.run.vehicle.commandQueue.contents,
    x ∈ s.run.vehicle.commandQueue.contents
  ops : ∀ ref, opLeft next.run.vehicle ref = opLeft s.run.vehicle ref
  nextCommand : next.run.vehicle.nextCommand = s.run.vehicle.nextCommand
  clients : ∀ c ∈ next.clients,
    ∃ old ∈ s.clients, c.ref = old.ref ∧ c.cmd = old.cmd

theorem request_pushes {s : ClientRun} {run : CommandRun}
    {request : CommandRequest}
    (hrun : s.run.step (.request request) = some run)
    {clients : List Client}
    (hclients : ∀ c ∈ clients, c ∈ s.clients ∨
      c = ⟨s.run.vehicle.nextCommand, request.op, .polling 0⟩) :
    Pushes s ⟨run, clients⟩ request.op := by
  obtain ⟨Command, hpush, hop⟩ := request.apply_eq_push s.run.vehicle
  simp only [CommandRun.step, hpush, Option.some.injEq] at hrun
  subst hrun
  exact ⟨⟨Command, rfl, hop⟩, hclients⟩

theorem tick_keepsOps {s : ClientRun} {run : CommandRun}
    (hrun : s.run.step .tick = some run) :
    KeepsOps s { s with run := run } := by
  simp only [CommandRun.step, Option.some.injEq] at hrun
  subst hrun
  have hsame : ∀ c ∈ s.clients,
      ∃ old ∈ s.clients, c.ref = old.ref ∧ c.cmd = old.cmd :=
    fun c hc => ⟨c, hc, rfl, rfl⟩
  rcases s.run.vehicle.sysOnlineHandler_cases with
    ⟨-, hidle⟩ | ⟨x, hx, -, hremoved⟩ | ⟨x, hx, -, hsent⟩
  · rw [hidle]
    exact ⟨fun _ hy => hy, fun _ => rfl, rfl, hsame⟩
  · rw [hremoved]
    exact ⟨fun y hy => mem_of_mem_pop hx hy, fun _ => rfl, rfl, hsame⟩
  · rw [hsent]
    exact ⟨fun _ hy => hy, fun ref => opLeft_send _ x.value ref, rfl, hsame⟩

theorem ack_keepsOps {s : ClientRun} {run : CommandRun} {m : CommandAck}
    {answers : Option CmdRef}
    (hrun : s.run.step (.ack m answers) = some run) :
    KeepsOps s { s with run := run } := by
  have hvehicle := (step_ack hrun).1
  refine ⟨?_, ?_, ?_, fun c hc => ⟨c, hc, rfl, rfl⟩⟩
  · intro x hx
    rwa [hvehicle, UpdateFromAck_queue] at hx
  · intro ref
    rw [hvehicle]
    exact opLeft_ack s.run.vehicle m ref
  · rw [hvehicle, UpdateFromAck_next]

theorem keepsOps_set {s : ClientRun} {run : CommandRun} {k : ℕ} {c : Client}
    (hc : s.clients[k]? = some c) (phase : ClientPhase)
    (hcontents : run.vehicle.commandQueue = s.run.vehicle.commandQueue)
    (hcommands : run.vehicle.commands = s.run.vehicle.commands)
    (hnext : run.vehicle.nextCommand = s.run.vehicle.nextCommand) :
    KeepsOps s
      { run := run, clients := s.clients.set k { c with phase := phase } } := by
  refine ⟨?_, ?_, hnext, ?_⟩
  · intro x hx
    rwa [hcontents] at hx
  · intro ref
    rw [opLeft, hcommands, opLeft]
  · intro other hother
    rcases List.mem_or_eq_of_mem_set hother with hold | rfl
    · exact ⟨other, hold, rfl, rfl⟩
    · exact ⟨c, List.mem_of_getElem? hc, rfl, rfl⟩

/-- Every event pushes one command or leaves the op numbers alone. -/
theorem step_cases {s next : ClientRun} {event : ClientEvent}
    (hstep : s.step event = some next) :
    (∃ op, Pushes s next op ∧ (Fits event ↔ 0 ≤ op ∧ op < 65536)) ∨
      (KeepsOps s next ∧ Fits event) := by
  cases event with
  | commandBlock request =>
      simp only [ClientRun.step, Option.map_eq_some_iff] at hstep
      obtain ⟨run, hrun, rfl⟩ := hstep
      refine Or.inl ⟨request.op, request_pushes hrun ?_, Iff.rfl⟩
      intro c hc
      rw [List.mem_append, List.mem_singleton] at hc
      exact hc
  | queue event =>
      simp only [ClientRun.step, Option.map_eq_some_iff] at hstep
      obtain ⟨run, hrun, rfl⟩ := hstep
      cases event with
      | request request =>
          exact Or.inl ⟨request.op,
            request_pushes hrun (fun c hc => Or.inl hc), Iff.rfl⟩
      | tick => exact Or.inr ⟨tick_keepsOps hrun, trivial⟩
      | ack m answers => exact Or.inr ⟨ack_keepsOps hrun, trivial⟩
  | poll k =>
      simp only [ClientRun.step, Option.bind_eq_bind,
        Option.bind_eq_some_iff] at hstep
      obtain ⟨c, hc, hphase⟩ := hstep
      cases hpolling : c.phase with
      | polling attempts =>
          simp only [hpolling, Option.some.injEq] at hphase
          subst hphase
          exact Or.inr ⟨keepsOps_set hc _ rfl rfl rfl, trivial⟩
      | matched num => simp [hpolling] at hphase
      | replied num timesSent => simp [hpolling] at hphase
  | null k =>
      simp only [ClientRun.step, Option.bind_eq_bind,
        Option.bind_eq_some_iff] at hstep
      obtain ⟨c, hc, hphase⟩ := hstep
      cases hmatched : c.phase with
      | polling attempts => simp [hmatched] at hphase
      | replied num timesSent => simp [hmatched] at hphase
      | matched num =>
          simp only [hmatched, Option.some.injEq] at hphase
          subst hphase
          exact Or.inr ⟨keepsOps_set hc _ rfl rfl rfl, trivial⟩

/-! ## Runs -/

structure Issued (s : ClientRun) : Prop where
  queued : ∀ x ∈ s.run.vehicle.commandQueue.contents,
    x.value < s.run.vehicle.nextCommand
  awaited : ∀ c ∈ s.clients, c.ref < s.run.vehicle.nextCommand

theorem Issued.step {s next : ClientRun} {event : ClientEvent}
    (hs : s.Issued) (hstep : s.step event = some next) : next.Issued := by
  rcases step_cases hstep with ⟨op, hpushes, -⟩ | ⟨hkeeps, -⟩
  · obtain ⟨Command, hpush, -⟩ := hpushes.push
    constructor
    · intro x hx
      rw [hpush] at hx ⊢
      rcases mem_pushCommand.mp hx with rfl | hold
      · exact Nat.lt_succ_self _
      · exact Nat.lt_succ_of_lt (hs.queued x hold)
    · intro c hc
      rw [hpush]
      rcases hpushes.clients c hc with hold | rfl
      · exact Nat.lt_succ_of_lt (hs.awaited c hold)
      · exact Nat.lt_succ_self _
  · constructor
    · intro x hx
      rw [hkeeps.nextCommand]
      exact hs.queued x (hkeeps.contents x hx)
    · intro c hc
      obtain ⟨old, hold, href, -⟩ := hkeeps.clients c hc
      rw [hkeeps.nextCommand, href]
      exact hs.awaited old hold

/-- The new command agrees exactly when its number fits. -/
theorem Pushes.opsAgree_iff {s next : ClientRun} {op : ℤ} (hs : s.Issued)
    (hagree : s.OpsAgree) (hpushes : Pushes s next op) :
    next.OpsAgree ↔ 0 ≤ op ∧ op < 65536 := by
  obtain ⟨Command, hpush, hop⟩ := hpushes.push
  have hnew : opLeft next.run.vehicle s.run.vehicle.nextCommand =
      (UInt16.ofInt op).toNat := by
    rw [hpush, opLeft, pushCommand_self, hop]
  have hold {ref : CmdRef} (hlt : ref < s.run.vehicle.nextCommand) :
      opLeft next.run.vehicle ref = opLeft s.run.vehicle ref := by
    rw [hpush, opLeft_push _ _ hlt]
  rw [← toNat_ofInt_eq_iff, ← hnew]
  constructor
  · intro hnext
    refine (hnext.carried ⟨s.run.vehicle.nextCommand, op⟩ ?_).symm
    rw [hpush]
    exact mem_pushCommand.mpr (Or.inl rfl)
  · intro hfits
    have hcarried : ∀ x ∈ next.run.vehicle.commandQueue.contents,
        x.priority = opLeft next.run.vehicle x.value := by
      intro x hx
      rw [hpush] at hx
      rcases mem_pushCommand.mp hx with rfl | hin
      · exact hfits.symm
      · rw [hold (hs.queued x hin)]
        exact hagree.carried x hin
    refine ⟨hcarried, fun x hx m => answered_of_carried hcarried hx m, ?_⟩
    intro c hc
    rcases hpushes.clients c hc with hin | rfl
    · rw [hold (hs.awaited c hin)]
      exact hagree.awaited c hin
    · exact hfits.symm

theorem KeepsOps.opsAgree {s next : ClientRun} (hagree : s.OpsAgree)
    (hkeeps : KeepsOps s next) : next.OpsAgree := by
  have hcarried : ∀ x ∈ next.run.vehicle.commandQueue.contents,
      x.priority = opLeft next.run.vehicle x.value := by
    intro x hx
    rw [hkeeps.ops]
    exact hagree.carried x (hkeeps.contents x hx)
  refine ⟨hcarried, fun x hx m => answered_of_carried hcarried hx m, ?_⟩
  intro c hc
  obtain ⟨old, hold, href, hcmd⟩ := hkeeps.clients c hc
  rw [hkeeps.ops, href, hcmd]
  exact hagree.awaited old hold

theorem opsAgree_iff_fits {s next : ClientRun} {event : ClientEvent}
    (hs : s.Issued) (hagree : s.OpsAgree)
    (hstep : s.step event = some next) : next.OpsAgree ↔ Fits event := by
  rcases step_cases hstep with ⟨op, hpushes, hfits⟩ | ⟨hkeeps, hfits⟩
  · rw [hfits]
    exact hpushes.opsAgree_iff hs hagree
  · exact iff_of_true (hkeeps.opsAgree hagree) hfits

section

variable (writer : Encoder) (api : VehicleApi) (now : Time)

theorem initial_empty :
    (initial writer api now).run.vehicle.commandQueue.contents = [] := rfl

theorem initial_issued : (initial writer api now).Issued where
  queued := by
    rw [initial_empty]
    intro x hx
    cases hx
  awaited := by
    intro c hc
    cases hc

theorem initial_opsAgree : (initial writer api now).OpsAgree where
  carried := by
    rw [initial_empty]
    intro x hx
    cases hx
  answered := by
    intro x hx
    have hmem := CommandQueue.Head_mem hx
    rw [initial_empty] at hmem
    cases hmem
  awaited := by
    intro c hc
    cases hc

end

/-- The op numbers agree in every state of a run exactly when each request is
for a number that a `uint16` can hold. -/
theorem ops_agree_iff (writer : Encoder) (api : VehicleApi) (now : Time)
    {events : List ClientEvent} {s : ClientRun}
    (hrun : Run step (initial writer api now) events s) :
    (∀ event ∈ events, Fits event) ↔
      EveryStep step (fun _ _ next => next.OpsAgree)
        (initial writer api now) events := by
  rw [← GuardedRun.iff_forall_mem hrun]
  have hkeep : ∀ (s : ClientRun) event next, s.Issued ∧ s.OpsAgree →
      Fits event → s.step event = some next →
        next.Issued ∧ next.OpsAgree := by
    rintro s event next ⟨hissued, hagree⟩ hfits hstep
    exact ⟨hissued.step hstep,
      (opsAgree_iff_fits hissued hagree hstep).mpr hfits⟩
  exact GuardedRun.iff_everyStep hkeep
    (fun s event next hs hstep => opsAgree_iff_fits hs.1 hs.2 hstep)
    ⟨initial_issued writer api now, initial_opsAgree writer api now⟩ hrun

/-- A first request, for the number `op`, is always pushed. -/
theorem commandBlock_step (op : ℤ) :
    ∃ s, step (initial (NewEncoder none) {} 0)
      (.commandBlock (.doGenericCommand op (Vector.replicate 7 0))) =
        some s := ⟨_, rfl⟩

theorem ops_agree_land : ∃ s,
    Run step (initial (NewEncoder none) {} 0)
        [.commandBlock (.doGenericCommand 21 (Vector.replicate 7 0))] s ∧
      ((∀ event ∈ [ClientEvent.commandBlock
          (.doGenericCommand 21 (Vector.replicate 7 0))], Fits event) ↔
        EveryStep step (fun _ _ next => next.OpsAgree)
          (initial (NewEncoder none) {} 0)
          [.commandBlock (.doGenericCommand 21 (Vector.replicate 7 0))]) := by
  obtain ⟨s, hstep⟩ := commandBlock_step 21
  have hrun : Run step (initial (NewEncoder none) {} 0)
      [.commandBlock (.doGenericCommand 21 (Vector.replicate 7 0))] s :=
    .snoc .nil trivial hstep
  exact ⟨s, hrun, ops_agree_iff (NewEncoder none) {} 0 hrun⟩

/-- The request is for 65712, and the command carries 176. -/
theorem op_above_uint16_differs :
    ¬ ∀ writer api now events s, Run step (initial writer api now) events s →
      EveryStep step (fun _ _ next => next.OpsAgree)
        (initial writer api now) events := by
  intro hall
  obtain ⟨s, hstep⟩ := commandBlock_step 65712
  have hrun : Run step (initial (NewEncoder none) {} 0)
      [.commandBlock (.doGenericCommand 65712 (Vector.replicate 7 0))] s :=
    .snoc .nil trivial hstep
  have hagree := hall _ _ _ _ s hrun [] _ _ s (List.prefix_refl _) .nil hstep
  have hfits := (opsAgree_iff_fits (initial_issued _ _ _)
    (initial_opsAgree _ _ _) hstep).mp hagree
  exact absurd hfits.2 (by decide)

end ClientRun

end DronesmithEngine
