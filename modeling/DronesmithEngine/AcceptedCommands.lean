import DronesmithEngine.CommandRuns
import Mathlib.Tactic

/-!
# Accepted commands and the handler

Whether the handler transmits a command again after the vehicle has accepted
it.  Only the head of the queue can be accepted, so this depends on where the
command stands when the acknowledgement arrives.
-/

namespace DronesmithEngine

open Mavlink Utils Api LabelledRuns Vehicle

namespace CommandRun

/-- The next handler call does not transmit an accepted command. -/
def NeverResends (s : CommandRun) : Prop :=
  ∀ ref, s.vehicle.sysOnlineHandler.1 = .sent ref → ref ∉ s.accepted

def Queued (s : CommandRun) (ref : CmdRef) : Prop :=
  ∃ x ∈ s.vehicle.commandQueue.contents, x.value = ref

def Terminal (result : ℕ) : Prop :=
  result = MAV_RESULT_ACCEPTED ∨ result = MAV_RESULT_DENIED ∨
    result = MAV_RESULT_UNSUPPORTED ∨ result = MAV_RESULT_FAILED

instance (result : ℕ) : Decidable (Terminal result) :=
  inferInstanceAs (Decidable (_ ∨ _))

/-- An accepting acknowledgement that answers a queued command finds it at the
head under its op number, or up for removal already; and no acknowledgement
that leaves a command to be sent again is taken for an answer to a head that
was accepted. -/
def AnswersHead (s : CommandRun) : CommandEvent → Prop
  | .ack m answers =>
      (∀ ref ∈ answers, m.Result.toNat = MAV_RESULT_ACCEPTED →
        s.Queued ref → ¬ finished (s.vehicle.commands ref) →
          ∃ x ∈ s.vehicle.commandQueue.Head,
            x.value = ref ∧ x.priority = m.Command.toNat) ∧
      ∀ x ∈ s.vehicle.commandQueue.Head, x.priority = m.Command.toNat →
        x.value ∈ s.accepted →
          Terminal m.Result.toNat ∨
            5 < (s.vehicle.commands x.value).TimesSent
  | _ => True

instance (s : CommandRun) (ref : CmdRef) : Decidable (s.Queued ref) :=
  inferInstanceAs (Decidable (∃ x ∈ _, _))

instance (s : CommandRun) : ∀ event, Decidable (s.AnswersHead event)
  | .request _ => .isTrue trivial
  | .tick => .isTrue trivial
  | .ack _ _ => inferInstanceAs (Decidable (_ ∧ _))

theorem finished_of_terminal {cmd : VehicleCommand}
    (hterminal : Terminal cmd.Status) : finished cmd := by
  rcases hterminal with h | h
  · exact Or.inl h
  · exact Or.inr (Or.inl h)

/-- Every queued command that was accepted is up for removal. -/
def Settled (s : CommandRun) : Prop :=
  ∀ x ∈ s.vehicle.commandQueue.contents, x.value ∈ s.accepted →
    finished (s.vehicle.commands x.value)

theorem Settled.neverResends {s : CommandRun} (hs : s.Settled) :
    s.NeverResends := by
  intro ref hsent haccepted
  rcases s.vehicle.sysOnlineHandler_cases with
    ⟨-, hidle⟩ | ⟨x, -, -, hremoved⟩ | ⟨x, hx, hunfinished, haction⟩
  · rw [hidle] at hsent
    cases hsent
  · rw [hremoved] at hsent
    cases hsent
  · rw [haction] at hsent
    cases hsent
    exact hunfinished (hs x (CommandQueue.Head_mem hx) haccepted)

theorem Settled.push {s : CommandRun} (hledger : s.Ledger) (hs : s.Settled)
    (Command : CommandLong) (op : ℤ) :
    ({ s with vehicle := s.vehicle.pushCommand Command op } :
      CommandRun).Settled := by
  intro x hx haccepted
  rcases mem_pushCommand.mp hx with rfl | hold
  · exact absurd (hledger.accepted_lt _ haccepted) (lt_irrefl _)
  · rw [pushCommand_of_lt _ _ _ (hledger.sends.allocated.lt_next x hold)]
    exact hs x hold haccepted

theorem Settled.tick {s : CommandRun} (hs : s.Settled) :
    ({ s with
      vehicle := s.vehicle.sysOnlineHandler.2
      sent := s.sent ++ transmitted s.vehicle.sysOnlineHandler.1 } :
      CommandRun).Settled := by
  intro y hy haccepted
  rcases s.vehicle.sysOnlineHandler_cases with
    ⟨-, hidle⟩ | ⟨x, hx, -, hremoved⟩ | ⟨x, hx, -, hsent⟩
  · rw [hidle] at hy ⊢
    exact hs y hy haccepted
  · rw [hremoved] at hy ⊢
    exact hs y (mem_of_mem_pop hx hy) haccepted
  · rw [hsent] at hy ⊢
    exact finished_of_sendCommand x.value y.value (hs y hy haccepted)

theorem Settled.update {s : CommandRun} (hs : s.Settled) {m : CommandAck}
    {answers : Option CmdRef} (hguard : s.AnswersHead (.ack m answers))
    {accepted : List CmdRef}
    (haccepted : ∀ ref ∈ accepted, ref ∈ s.accepted ∨
      (ref ∈ answers ∧ m.Result.toNat = MAV_RESULT_ACCEPTED)) :
    ({ s with
      vehicle := s.vehicle.UpdateFromAck m
      accepted := accepted } : CommandRun).Settled := by
  obtain ⟨hanswers, hrepeated⟩ := hguard
  intro y hy hmem
  rcases s.vehicle.UpdateFromAck_cases m with ⟨hsame, hno⟩ | ⟨x, hx, hset⟩
  · rw [hsame] at hy ⊢
    rcases haccepted y.value hmem with hold | ⟨hnew, hresult⟩
    · exact hs y hy hold
    · by_contra hunfinished
      obtain ⟨x, hhead, -, hop⟩ :=
        hanswers y.value hnew hresult ⟨y, hy, rfl⟩ hunfinished
      exact hno x ⟨hhead, hop⟩
  · rw [hset] at hy ⊢
    by_cases hvalue : y.value = x.value
    · rw [hvalue, setStatus_self]
      rcases haccepted y.value hmem with hold | ⟨-, hresult⟩
      · rw [hvalue] at hold
        rcases hrepeated x hx.1 hx.2 hold with hterminal | htimes
        · exact finished_of_terminal hterminal
        · exact Or.inr (Or.inr htimes)
      · exact Or.inl hresult
    · rw [setStatus_of_ne _ hvalue]
      rcases haccepted y.value hmem with hold | ⟨hnew, hresult⟩
      · exact hs y hy hold
      · by_contra hunfinished
        obtain ⟨x', hhead, hvalue', -⟩ :=
          hanswers y.value hnew hresult ⟨y, hy, rfl⟩ hunfinished
        obtain rfl : x = x' := Option.some.inj (hx.1.symm.trans hhead)
        exact hvalue hvalue'.symm

theorem Settled.step {s next : CommandRun} {event : CommandEvent}
    (hledger : s.Ledger) (hs : s.Settled) (hguard : s.AnswersHead event)
    (hstep : s.step event = some next) : next.Settled := by
  cases event with
  | request request =>
      obtain ⟨Command, hpush, -⟩ := request.apply_eq_push s.vehicle
      simp only [CommandRun.step, hpush, Option.some.injEq] at hstep
      subst hstep
      exact hs.push hledger Command request.op
  | tick =>
      simp only [CommandRun.step, Option.some.injEq] at hstep
      subst hstep
      exact hs.tick
  | ack m answers =>
      cases answers with
      | none =>
          simp only [CommandRun.step, Option.some.injEq] at hstep
          subst hstep
          exact hs.update hguard (fun ref hmem => Or.inl hmem)
      | some ref =>
          by_cases hcan : s.CanAnswer m ref
          · simp only [CommandRun.step, hcan, if_true,
              Option.some.injEq] at hstep
            subst hstep
            apply hs.update hguard
            intro other hmem
            split at hmem
            next hresult =>
                rcases List.mem_append.mp hmem with hold | hnew
                · exact Or.inl hold
                · rw [List.mem_singleton.mp hnew]
                  exact Or.inr ⟨rfl, hresult⟩
            next => exact Or.inl hmem
          · simp [CommandRun.step, hcan] at hstep

/-! ## The handler reaches every command -/

def patience (cmd : VehicleCommand) : ℕ := 7 - min cmd.TimesSent 6

def totalPatience (v : Vehicle) : ℕ :=
  (v.commandQueue.contents.map
    fun x => patience (v.commands x.value)).sum

theorem patience_pos (cmd : VehicleCommand) : 0 < patience cmd := by
  unfold patience
  omega

theorem totalPatience_pop {v : Vehicle} {x : Item CmdRef}
    (hx : v.commandQueue.Head = some x) {next : Vehicle}
    (hqueue : next.commandQueue = v.commandQueue.Pop.2)
    (hcommands : next.commands = v.commands) :
    totalPatience next < totalPatience v := by
  have hperm := ((CommandQueue.Pop_of_some hx).2.map
    fun y => patience (v.commands y.value)).sum_eq
  have hpos := patience_pos (v.commands x.value)
  unfold totalPatience
  rw [hqueue, hcommands, hperm, List.map_cons, List.sum_cons]
  omega

theorem patience_sendCommand (v : Vehicle) (ref other : CmdRef) :
    patience ((v.sendCommand ref).commands other) ≤
      patience (v.commands other) := by
  by_cases hsame : other = ref
  · subst hsame
    rw [sendCommand_self]
    unfold patience
    simp only
    omega
  · rw [sendCommand_of_ne v hsame]

theorem totalPatience_send {v : Vehicle} {x : Item CmdRef}
    (hx : v.commandQueue.Head = some x)
    (hunfinished : ¬ finished (v.commands x.value)) :
    totalPatience (v.sendCommand x.value) < totalPatience v := by
  have hmem := CommandQueue.Head_mem hx
  have hfew : (v.commands x.value).TimesSent ≤ 5 := by
    by_contra hmany
    exact hunfinished (Or.inr (Or.inr (by omega)))
  unfold totalPatience
  rw [sendCommand_queue]
  apply List.sum_lt_sum
  · intro y _
    exact patience_sendCommand v x.value y.value
  · refine ⟨x, hmem, ?_⟩
    rw [sendCommand_self]
    unfold patience
    simp only
    omega

/-- From every state, handler calls alone lead to the transmission of any
queued command that is not up for removal. -/
theorem exists_tick_sends {x : Item CmdRef} (s : CommandRun)
    (hallocated : s.vehicle.Allocated)
    (hx : x ∈ s.vehicle.commandQueue.contents)
    (hunfinished : ¬ finished (s.vehicle.commands x.value)) :
    ∃ ticks t, Run step s (List.replicate ticks .tick) t ∧
      t.accepted = s.accepted ∧
      t.vehicle.sysOnlineHandler.1 = .sent x.value := by
  induction hsize : totalPatience s.vehicle using Nat.strong_induction_on
    generalizing s with
  | _ n ih =>
      let next : CommandRun :=
        { s with
          vehicle := s.vehicle.sysOnlineHandler.2
          sent := s.sent ++ transmitted s.vehicle.sysOnlineHandler.1 }
      have hnext : s.step .tick = some next := rfl
      rcases s.vehicle.sysOnlineHandler_cases with
        ⟨hnone, -⟩ | ⟨y, hy, hfinished, haction⟩ | ⟨y, hy, hyfew, haction⟩
      · rw [CommandQueue.Head_eq_none_iff_contents.mp hnone] at hx
        cases hx
      · have hne : x ≠ y := by
          rintro rfl
          exact hunfinished hfinished
        have hvehicle : next.vehicle =
            { s.vehicle.recordLast (s.vehicle.commands y.value) with
              commandQueue := s.vehicle.commandQueue.Pop.2 } := by
          change s.vehicle.sysOnlineHandler.2 = _
          rw [haction]
        have hpopped : x ∈ next.vehicle.commandQueue.contents := by
          rw [hvehicle]
          have hperm := (CommandQueue.Pop_of_some hy).2
          exact (List.mem_cons.mp (hperm.mem_iff.mp hx)).resolve_left hne
        have hless : totalPatience next.vehicle < n := by
          rw [← hsize, hvehicle]
          exact totalPatience_pop hy rfl rfl
        obtain ⟨ticks, t, hrun, haccepted, hsent⟩ := ih _ hless next
          (by rw [hvehicle]; exact hallocated.of_pop hy rfl rfl) hpopped
          (by rw [hvehicle]; exact hunfinished) rfl
        exact ⟨ticks + 1, t, hrun.cons trivial hnext, haccepted, hsent⟩
      · by_cases hsame : x = y
        · subst hsame
          exact ⟨0, s, .nil, rfl, by rw [haction]⟩
        · have hvalue : x.value ≠ y.value := fun heq => hsame
            (hallocated.eq_of_value hx (CommandQueue.Head_mem hy) heq)
          have hvehicle : next.vehicle =
              (s.vehicle.recordLast
                (s.vehicle.commands y.value)).sendCommand y.value := by
            change s.vehicle.sysOnlineHandler.2 = _
            rw [haction]
          have hless : totalPatience next.vehicle < n := by
            rw [← hsize, hvehicle]
            exact totalPatience_send
              (v := s.vehicle.recordLast (s.vehicle.commands y.value))
              hy hyfew
          obtain ⟨ticks, t, hrun, haccepted, hsent⟩ := ih _ hless next
            (by rw [hvehicle]; exact hallocated.of_same rfl rfl)
            (by rw [hvehicle]; exact hx)
            (by
              rw [hvehicle, sendCommand_of_ne _ hvalue]
              exact hunfinished) rfl
          exact ⟨ticks + 1, t, hrun.cons trivial hnext, haccepted, hsent⟩

/-! ## The condition is exact -/

theorem step_ack_accepted {s next : CommandRun} {m : CommandAck}
    {answers : Option CmdRef} (hstep : s.step (.ack m answers) = some next) :
    (∀ ref ∈ s.accepted, ref ∈ next.accepted) ∧
      ∀ ref ∈ answers, m.Result.toNat = MAV_RESULT_ACCEPTED →
        ref ∈ next.accepted := by
  cases answers with
  | none =>
      simp only [CommandRun.step, Option.some.injEq] at hstep
      subst hstep
      refine ⟨fun ref hmem => hmem, ?_⟩
      intro ref hmem
      cases hmem
  | some ref =>
      by_cases hcan : s.CanAnswer m ref
      · simp only [CommandRun.step, hcan, if_true, Option.some.injEq] at hstep
        subst hstep
        constructor
        · intro other hmem
          split
          · exact List.mem_append_left _ hmem
          · exact hmem
        · rintro other hother hresult
          obtain rfl : ref = other := Option.some.inj hother
          simp [hresult]
      · simp [CommandRun.step, hcan] at hstep

theorem exists_resend {s : CommandRun} (hallocated : s.vehicle.Allocated)
    {x : Item CmdRef} (hx : x ∈ s.vehicle.commandQueue.contents)
    (haccepted : x.value ∈ s.accepted)
    (hunfinished : ¬ finished (s.vehicle.commands x.value)) :
    ∃ ticks t, Run step s (List.replicate ticks .tick) t ∧
      ¬ t.NeverResends := by
  obtain ⟨ticks, t, hrun, hsame, hsent⟩ :=
    exists_tick_sends s hallocated hx hunfinished
  refine ⟨ticks, t, hrun, ?_⟩
  intro hnever
  exact hnever x.value hsent (hsame ▸ haccepted)

theorem exists_resend_of_not_answersHead {s next : CommandRun}
    {event : CommandEvent} (hledger : s.Ledger)
    (hstep : s.step event = some next) (hguard : ¬ s.AnswersHead event) :
    ∃ ticks t, Run step next (List.replicate ticks .tick) t ∧
      ¬ t.NeverResends := by
  have hledger' := hledger.step hstep
  cases event with
  | request request => exact absurd trivial hguard
  | tick => exact absurd trivial hguard
  | ack m answers =>
      obtain ⟨hvehicle, -⟩ := step_ack hstep
      obtain ⟨hkept, hnew⟩ := step_ack_accepted hstep
      rw [AnswersHead, not_and_or] at hguard
      rcases hguard with hanswers | hrepeated
      · -- The acknowledgement misses the command it answers.
        push Not at hanswers
        obtain ⟨ref, href, hresult, ⟨x, hx, rfl⟩, hunfinished, hmissed⟩ :=
          hanswers
        have hcommand : next.vehicle.commands x.value =
            s.vehicle.commands x.value := by
          rw [hvehicle]
          rcases s.vehicle.UpdateFromAck_cases m with
            ⟨hsame, -⟩ | ⟨y, hy, hset⟩
          · rw [hsame]
          · rw [hset, setStatus_of_ne]
            intro hvalue
            exact hmissed y hy.1 hvalue.symm hy.2
        have hqueue : next.vehicle.commandQueue =
            s.vehicle.commandQueue := by
          rw [hvehicle, UpdateFromAck_queue]
        exact exists_resend hledger'.sends.allocated (by rw [hqueue]; exact hx)
          (hnew x.value href hresult) (by rw [hcommand]; exact hunfinished)
      · -- The acknowledgement takes the result of an accepted head back.
        push Not at hrepeated
        obtain ⟨x, hx, hop, haccepted, hterminal, hfew⟩ := hrepeated
        rcases s.vehicle.UpdateFromAck_cases m with
          ⟨-, hno⟩ | ⟨y, hy, hset⟩
        · exact absurd ⟨hx, hop⟩ (hno x)
        · obtain rfl : x = y := Option.some.inj (hx.symm.trans hy.1)
          rw [hset] at hvehicle
          apply exists_resend hledger'.sends.allocated (x := x)
          · rw [hvehicle]
            exact CommandQueue.Head_mem hx
          · exact hkept x.value haccepted
          · rw [hvehicle, setStatus_self]
            rintro (h | h | h)
            · exact hterminal (Or.inl h)
            · exact hterminal (Or.inr h)
            · exact absurd h (not_lt.mpr hfew)

/-- As long as every acknowledgement meets the condition, the handler does
not transmit a command after its acceptance; and after the first step that
breaks it, handler calls alone lead to such a transmission. -/
theorem accepted_never_resent (writer : Encoder) (api : VehicleApi)
    (now : Time) {events : List CommandEvent} {s : CommandRun}
    (hrun : GuardedRun step AnswersHead (initial writer api now) events s) :
    s.NeverResends ∧
      ∀ event next, s.step event = some next → ¬ s.AnswersHead event →
        ∃ ticks t, Run step next (List.replicate ticks .tick) t ∧
          ¬ t.NeverResends := by
  have hinv : s.Ledger ∧ s.Settled := by
    apply hrun.invariant
    · rintro s event next ⟨hledger, hs⟩ hguard hstep
      exact ⟨hledger.step hstep, hs.step hledger hguard hstep⟩
    · refine ⟨initial_ledger writer api now, ?_⟩
      intro x hx
      simp [initial] at hx
  obtain ⟨hledger, hs⟩ := hinv
  exact ⟨hs.neverResends, fun event next hstep hguard =>
    exists_resend_of_not_answersHead hledger hstep hguard⟩

theorem accepted_never_resent_single :
    ∃ s, Run step (initial (NewEncoder none) {} 0)
        [.request (.doGenericCommand 22 (Vector.replicate 7 0)), .tick,
          .ack ⟨22, 0⟩ (some 0)] s ∧
      s.NeverResends := by
  have hexec : (exec step AnswersHead (initial (NewEncoder none) {} 0)
      [.request (.doGenericCommand 22 (Vector.replicate 7 0)), .tick,
        .ack ⟨22, 0⟩ (some 0)]).isSome := by
    decide +kernel
  obtain ⟨s, hrun⟩ := GuardedRun.of_exec_isSome hexec
  exact ⟨s, hrun.run,
    (accepted_never_resent (NewEncoder none) {} 0 hrun).1⟩

/-- A takeoff command is queued between the transmission of a mode change and
its acknowledgement, which is then lost on the new head. -/
theorem accepted_resent_after_lower_push :
    ¬ ∀ events s,
      Run step (initial (NewEncoder none) {} 0) events s →
        s.NeverResends := by
  intro hall
  let events : List CommandEvent :=
    [.request (.doGenericCommand 176 (Vector.replicate 7 0)), .tick,
      .request (.doGenericCommand 22 (Vector.replicate 7 0)),
      .ack ⟨176, 0⟩ (some 0), .tick, .ack ⟨22, 0⟩ (some 1), .tick]
  have hexec : (exec step (fun _ _ => True)
      (initial (NewEncoder none) {} 0) events).map (fun s =>
        (s.vehicle.sysOnlineHandler.1, s.accepted)) =
          some (.sent 0, [0, 1]) := by
    decide +kernel
  obtain ⟨s, hrun, heq⟩ := GuardedRun.of_exec_map hexec
  simp only [Prod.mk.injEq] at heq
  obtain ⟨hsent, haccepted⟩ := heq
  apply hall events s hrun 0 hsent
  rw [haccepted]
  decide

end CommandRun

end DronesmithEngine
