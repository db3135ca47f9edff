import DronesmithEngine.SessionReplies
import Mathlib.Tactic

/-!
# The timeout of a session

The countdown of `cloudlink/cloudlink.go`: `checkOnline` counts it down and
clears the session at zero, and four operations set it back.  A status tick,
a datagram, a read error and `Logout` are one step each.
-/

namespace DronesmithEngine.Cloudlink

open Go LabelledRuns

inductive LinkEvent
  | Serve
  | sendStatus
  | datagram (data : List UInt8)
  | readFailed
  | Logout (left : StringMap)
  | setIdentity (uid : String) (store : StringMap)

/-- The datagram is parsed, and so it is handled. -/
def Parsed (json : Unmarshaler) (data : List UInt8) : Bool :=
  match ParseMsg json data with
  | .ok (.ok _) => true
  | _ => false

/-- The status ticks since the session was last heard of, given the number
before an event.  The tick that reaches the limit starts over. -/
def silentTicks (json : Unmarshaler) (n : ℕ) : LinkEvent → ℕ
  | .Serve => 0
  | .sendStatus => if (n + 1 : ℤ) = TIME_OUT_CNT then 0 else n + 1
  | .datagram data => if Parsed json data then 0 else n
  | .readFailed => n
  | .Logout _ => 0
  | .setIdentity _ _ => n

/-- The number of ticks at the end of a list of events. -/
def silence (json : Unmarshaler) (events : List LinkEvent) : ℕ :=
  events.foldl (silentTicks json) 0

theorem silence_snoc (json : Unmarshaler) (events : List LinkEvent)
    (event : LinkEvent) :
    silence json (events ++ [event]) =
      silentTicks json (silence json events) event := by
  rw [silence, List.foldl_append]
  rfl

namespace CloudLink

section

variable {ε : Type} (json : Unmarshaler)
  (Marshal : Outgoing StatusMsg → Except ε (List UInt8))

/-- A panic ends the program. -/
def linkStep (cl : CloudLink) : LinkEvent → Option CloudLink
  | .Serve => some cl.Serve
  | .sendStatus => after (sendStatus Marshal) cl
  | .datagram data =>
      if data.length = 0 then some cl
      else
        match cl.receive json data with
        | (.ok _, next) => some next
        | (.error _, _) => none
  | .readFailed => some cl.readFailed
  | .Logout left => some (cl.Logout left)
  | .setIdentity uid store => some { cl with uid := uid, store := store }

/-- The countdown has been counted down once for every silent tick, and is
not at zero. -/
structure CountsDown (cl : CloudLink) (n : ℕ) : Prop where
  count : cl.messageCnt = TIME_OUT_CNT - n
  lt : (n : ℤ) < TIME_OUT_CNT

variable {json} {Marshal} {cl cl' : CloudLink} {n : ℕ}

theorem countsDown_reset (hcount : cl.messageCnt = TIME_OUT_CNT) :
    cl.CountsDown 0 where
  count := by rw [hcount]; rfl
  lt := by decide

variable (Marshal) in
/-- A status tick is never stopped by its message. -/
theorem sendStatus_eq_checkOnline (cl : CloudLink) :
    ∃ next : CloudLink, next.sessionId = cl.sessionId ∧
      next.messageCnt = cl.messageCnt ∧
      after (sendStatus Marshal) cl = some next.checkOnline := by
  obtain ⟨-, hsession, hcount⟩ := cl.stopOffline_spec
  have hgenerated : ∃ generated, GenerateMsg Marshal OP_STATUS
      cl.stopOffline.sessionId (.value cl.stopOffline.statusMsg) =
        .ok generated := by
    unfold GenerateMsg messagePayload
    rw [if_neg (by decide), if_pos (by decide)]
    cases Marshal (.value cl.stopOffline.statusMsg) with
    | error e => exact ⟨_, rfl⟩
    | ok payload => exact ⟨_, rfl⟩
  obtain ⟨generated, hgenerated⟩ := hgenerated
  simp only [after, sendStatus, Effect.modify_bind, Effect.read_bind, id,
    hgenerated, Effect.lift_ok_bind]
  rcases generated with e | ddpdata
  · exact ⟨cl.stopOffline, hsession, hcount, rfl⟩
  · exact ⟨cl.stopOffline.record (.write ddpdata), hsession, hcount, rfl⟩

variable (json Marshal) in
/-- The tick that brings the silence to the limit clears the session, and any
other leaves it alone. -/
theorem CountsDown.sendStatus (hcl : cl.CountsDown n) :
    ∃ next, linkStep json Marshal cl .sendStatus = some next ∧
      next.CountsDown (silentTicks json n .sendStatus) ∧
      next.sessionId =
        if (n + 1 : ℤ) = TIME_OUT_CNT then 0 else cl.sessionId := by
  obtain ⟨sent, hsession, hcount, hafter⟩ :=
    cl.sendStatus_eq_checkOnline Marshal
  have hcl' := hcl.count
  refine ⟨sent.checkOnline, hafter, ?_⟩
  rw [checkOnline, silentTicks, hcount]
  by_cases hlimit : (n + 1 : ℤ) = TIME_OUT_CNT
  · rw [if_pos (by omega), if_pos hlimit, if_pos hlimit]
    exact ⟨countsDown_reset rfl, rfl⟩
  · rw [if_neg (by omega), if_neg hlimit, if_neg hlimit]
    refine ⟨⟨?_, ?_⟩, hsession⟩
    · simp only [hcl', Nat.cast_add, Nat.cast_one]
      omega
    · have hlt := hcl.lt
      push_cast
      omega

@[simp] theorem stopOther_messageCnt (userId droneId : String)
    (cl : CloudLink) :
    (cl.stopOther userId droneId).messageCnt = cl.messageCnt := by
  unfold stopOther
  split <;> rfl

@[simp] theorem startStopped_messageCnt (userId droneId : String)
    (cl : CloudLink) :
    (cl.startStopped userId droneId).messageCnt = cl.messageCnt := by
  unfold startStopped startSyncer
  split
  · rfl
  · split <;> rfl

@[simp] theorem handleTerminal_messageCnt (terminal : Bool)
    (cl : CloudLink) :
    (cl.handleTerminal terminal).messageCnt = cl.messageCnt := by
  unfold handleTerminal
  split <;> split <;> rfl

theorem handled_messageCnt {decoded : Msg}
    (hhandled : after (handleMessage decoded) cl = some cl') :
    cl'.messageCnt = TIME_OUT_CNT := by
  rcases handleMessage_cases hhandled with
    ⟨-, chunk, rfl⟩ | ⟨statusMsg, droneId, -, rfl⟩
  · rfl
  · simp only [handleStatus, handleTerminal_messageCnt,
      startStopped_messageCnt, stopOther_messageCnt]
    rfl

/-- A datagram is handled, or it changes nothing. -/
theorem linkStep_datagram {data : List UInt8} {next : CloudLink}
    (hstep : linkStep json Marshal cl (.datagram data) = some next) :
    (Parsed json data = true ∧ next.messageCnt = TIME_OUT_CNT) ∨
      (Parsed json data = false ∧ next = cl) := by
  simp only [linkStep] at hstep
  split at hstep
  next hempty =>
    have hparse : ParseMsg json data = .error .sliceBounds :=
      ParseMsg_tiny json (by omega)
    exact Or.inr ⟨by rw [Parsed, hparse], (Option.some.inj hstep).symm⟩
  rcases hparse : ParseMsg json data with e | err | decoded
  · rw [receive, hparse] at hstep
    cases hstep
  · rw [receive_rejected hparse] at hstep
    cases hstep
    exact Or.inr ⟨by rw [Parsed, hparse], rfl⟩
  · rw [receive_parsed hparse] at hstep
    left
    refine ⟨by rw [Parsed, hparse], ?_⟩
    rcases hhandled : handleMessage decoded cl with ⟨e | _, cl'⟩
    · rw [Effect.bind_of_error hhandled] at hstep
      cases hstep
    · rw [Effect.bind_of_ok hhandled] at hstep
      cases hstep
      have hafter : after (handleMessage decoded) cl = some next := by
        rw [after, hhandled]
      exact handled_messageCnt hafter

theorem CountsDown.datagram (hcl : cl.CountsDown n) {data : List UInt8}
    {next : CloudLink}
    (hstep : linkStep json Marshal cl (.datagram data) = some next) :
    next.CountsDown (silentTicks json n (.datagram data)) := by
  rcases linkStep_datagram hstep with ⟨hparsed, hcount⟩ | ⟨hparsed, rfl⟩
  · rw [silentTicks, hparsed]
    exact countsDown_reset hcount
  · rw [silentTicks, hparsed]
    exact hcl

theorem CountsDown.step (hcl : cl.CountsDown n) {event : LinkEvent}
    {next : CloudLink}
    (hstep : linkStep json Marshal cl event = some next) :
    next.CountsDown (silentTicks json n event) := by
  cases event with
  | sendStatus =>
      obtain ⟨ticked, hticked, hcounts, -⟩ :=
        hcl.sendStatus json Marshal
      rw [hticked, Option.some.injEq] at hstep
      exact hstep ▸ hcounts
  | datagram data => exact hcl.datagram hstep
  | Serve => cases hstep; exact countsDown_reset rfl
  | Logout left => cases hstep; exact countsDown_reset rfl
  | readFailed => cases hstep; exact ⟨hcl.count, hcl.lt⟩
  | setIdentity uid store => cases hstep; exact ⟨hcl.count, hcl.lt⟩

theorem countsDown_of_run {start : CloudLink} {events : List LinkEvent}
    (hrun : Run (linkStep json Marshal) start.Serve events cl) :
    cl.CountsDown (silence json events) := by
  induction hrun with
  | nil => exact countsDown_reset rfl
  | snoc _ _ hstep ih =>
      rw [silence_snoc]
      exact ih.step hstep

variable (json Marshal) in
/-- Ticks alone, up to the limit. -/
theorem CountsDown.ticks (hcl : cl.CountsDown 0) (k : ℕ)
    (hk : (k : ℤ) < TIME_OUT_CNT) :
    ∃ next, Run (linkStep json Marshal) cl (List.replicate k .sendStatus)
        next ∧
      next.CountsDown k ∧ next.sessionId = cl.sessionId := by
  induction k with
  | zero => exact ⟨cl, .nil, hcl, rfl⟩
  | succ k ih =>
      obtain ⟨middle, hrun, hcounts, hsession⟩ := ih (by push_cast at hk; omega)
      obtain ⟨next, hstep, hnext, hnextSession⟩ :=
        hcounts.sendStatus json Marshal
      have hlimit : (k + 1 : ℤ) ≠ TIME_OUT_CNT := by push_cast at hk; omega
      rw [silentTicks, if_neg hlimit] at hnext
      rw [if_neg hlimit, hsession] at hnextSession
      refine ⟨next, ?_, hnext, hnextSession⟩
      rw [List.replicate_succ']
      exact hrun.snoc trivial hstep

/-- The countdown stays in range; a status tick clears the session exactly
when it is the last of so many silent ticks; and so a session ends after just
as many ticks and nothing else. -/
theorem session_ends_after_silence {start : CloudLink}
    {events : List LinkEvent}
    (hrun : Run (linkStep json Marshal) start.Serve events cl) :
    (1 ≤ cl.messageCnt ∧ cl.messageCnt ≤ TIME_OUT_CNT) ∧
    (∃ next, linkStep json Marshal cl .sendStatus = some next ∧
      (next.messageCnt = TIME_OUT_CNT ↔
        (silence json events + 1 : ℤ) = TIME_OUT_CNT) ∧
      next.sessionId =
        if (silence json events + 1 : ℤ) = TIME_OUT_CNT then 0
        else cl.sessionId) ∧
    (silence json events = 0 → ∀ k : ℕ, (k : ℤ) ≤ TIME_OUT_CNT →
      ∃ next, Run (linkStep json Marshal) cl
          (List.replicate k .sendStatus) next ∧
        next.sessionId =
          if (k : ℤ) = TIME_OUT_CNT then 0 else cl.sessionId) := by
  have hcl := countsDown_of_run hrun
  have hcount := hcl.count
  have hlt := hcl.lt
  refine ⟨⟨by omega, by omega⟩, ?_, ?_⟩
  · obtain ⟨next, hstep, hnext, hsession⟩ :=
      hcl.sendStatus json Marshal
    refine ⟨next, hstep, ?_, hsession⟩
    have hnextCount := hnext.count
    rw [silentTicks] at hnextCount
    split at hnextCount
    next hlimit => exact iff_of_true hnextCount hlimit
    next hlimit =>
      refine iff_of_false (fun hfull => ?_) hlimit
      push_cast at hnextCount
      omega
  · intro hsilence k hk
    rw [hsilence] at hcl
    by_cases hlast : (k : ℤ) = TIME_OUT_CNT
    · obtain ⟨j, rfl⟩ : ∃ j, k = j + 1 := ⟨14, by unfold TIME_OUT_CNT at hlast; omega⟩
      push_cast at hlast
      obtain ⟨middle, hticks, hcounts, -⟩ :=
        hcl.ticks json Marshal j (by omega)
      obtain ⟨next, hstep, -, hsession⟩ :=
        hcounts.sendStatus json Marshal
      refine ⟨next, ?_, ?_⟩
      · rw [List.replicate_succ']
        exact hticks.snoc trivial hstep
      · push_cast
        rw [hsession, if_pos hlast, if_pos hlast]
    · obtain ⟨next, hticks, -, hsession⟩ :=
        hcl.ticks json Marshal k (by omega)
      exact ⟨next, hticks, by rw [if_neg hlast, hsession]⟩

end

/-- The server opens a session and is not heard of again. -/
theorem session_ends_after_silence_opened :
    ∃ cl, Run (linkStep ⟨fun _ => none, fun _ => none⟩ Exchange.marshalSent)
        Exchange.activated.Serve
        [.datagram (frame OP_MAVLINK_BIN 7 [1])] cl ∧
      cl.sessionId = 7 ∧
      ∃ next, Run
          (linkStep ⟨fun _ => none, fun _ => none⟩ Exchange.marshalSent) cl
          (List.replicate 15 .sendStatus) next ∧ next.sessionId = 0 := by
  have hexec : (exec
      (linkStep ⟨fun _ => none, fun _ => none⟩ Exchange.marshalSent)
      (fun _ _ => True) Exchange.activated.Serve
      [.datagram (frame OP_MAVLINK_BIN 7 [1])]).map CloudLink.sessionId =
        some 7 := by
    decide
  have hsilence : silence ⟨fun _ => none, fun _ => none⟩
      [.datagram (frame OP_MAVLINK_BIN 7 [1])] = 0 := by
    decide
  obtain ⟨cl, hrun, hsession⟩ := GuardedRun.of_exec_map hexec
  exact ⟨cl, hrun, hsession,
    (session_ends_after_silence hrun).2.2 hsilence 15 le_rfl⟩

end CloudLink

end DronesmithEngine.Cloudlink
