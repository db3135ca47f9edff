import DronesmithEngine.LabelledRuns
import DronesmithEngine.MavlinkFailures
import DronesmithEngine.MavlinkMessages
import Mathlib.Tactic

/-!
# Senders that share an encoder

`sendMAVLink` is called by the state handler, the listener for manual input
and the HTTP handlers, on one encoder without a lock.  Each `Write`, the
`Flush` and the update of `CurrSeqID` is one step here, and the steps of any
number of calls may alternate.
-/

namespace DronesmithEngine

open BufferedIO Mavlink LabelledRuns

/-! ## The messages a vehicle sends -/

inductive SentMessage
  | commandLong (m : CommandLong)
  | paramRequestList (m : ParamRequestList)
  | paramRequestRead (m : ParamRequestRead)
  | paramSet (m : ParamSet)
  | rcChannelsOverride (m : RcChannelsOverride)

namespace SentMessage

def Pack : SentMessage → Packet → Packet
  | .commandLong m => m.Pack
  | .paramRequestList m => m.Pack
  | .paramRequestRead m => m.Pack
  | .paramSet m => m.Pack
  | .rcChannelsOverride m => m.Pack

/-- The packet that `Encode(0, 0, m)` hands to `EncodePacket`. -/
def packet (m : SentMessage) : Packet :=
  { m.Pack ⟨0, 0, 0, 0, [], 0⟩ with SysID := 0, CompID := 0 }

theorem short (m : SentMessage) : m.packet.Payload.length ≤ 255 := by
  cases m with
  | commandLong m =>
      simp [packet, Pack, CommandLong.Pack, LittleEndian.PutUint16,
        LittleEndian.PutUint32]
  | paramRequestList m => simp [packet, Pack, ParamRequestList.Pack]
  | paramRequestRead m =>
      simp [packet, Pack, ParamRequestRead.Pack, LittleEndian.PutUint16]
  | paramSet m =>
      simp [packet, Pack, ParamSet.Pack, LittleEndian.PutUint32]
  | rcChannelsOverride m =>
      simp [packet, Pack, RcChannelsOverride.Pack, LittleEndian.PutUint16]

theorem known (m : SentMessage) :
    ∃ crcx, findCrcX [DialectCommon] m.packet.MsgID = some crcx := by
  cases m with
  | commandLong m => exact ⟨152, rfl⟩
  | paramRequestList m => exact ⟨159, rfl⟩
  | paramRequestRead m => exact ⟨214, rfl⟩
  | paramSet m => exact ⟨168, rfl⟩
  | rcChannelsOverride m => exact ⟨124, rfl⟩

end SentMessage

/-! ## Calls in progress -/

/-- How far a call of `EncodePacket` has come: the part it wrote last, or
whether it has flushed, or the error it returned. -/
inductive SendStage
  | header
  | payload
  | checksum
  | flushed
  | returned (err : Option Error)
  deriving DecidableEq

def SendStage.Returned : SendStage → Prop
  | .returned _ => True
  | _ => False

instance : ∀ stage : SendStage, Decidable stage.Returned
  | .header => .isFalse id
  | .payload => .isFalse id
  | .checksum => .isFalse id
  | .flushed => .isFalse id
  | .returned _ => .isTrue trivial

/-- A call keeps the sequence number it read when it built its header. -/
structure SendCall where
  p : Packet
  seq : UInt8
  stage : SendStage

namespace SendCall

def hdr (c : SendCall) : List UInt8 :=
  [startByte, c.p.Payload.length.toUInt8, c.seq, c.p.SysID, c.p.CompID,
    c.p.MsgID]

/-- The packet, once the call has flushed it or returned without an error. -/
def delivered (c : SendCall) : Option Packet :=
  match c.stage with
  | .flushed => some c.p
  | .returned none => some c.p
  | _ => none

end SendCall

structure SharedEncoder where
  enc : Encoder
  calls : List SendCall

inductive SendEvent
  | sendMAVLink (m : SentMessage)
  | proceed (k : ℕ)

namespace SharedEncoder

def initial (room : Option ℕ) : SharedEncoder where
  enc := NewEncoder room
  calls := []

/-- A step of a call goes on to the next stage or returns its error. -/
def unlessError (next : SendStage) : Option Error → SendStage
  | none => next
  | some e => .returned (some e)

def proceed (enc : Encoder) (c : SendCall) : Option (SendStage × Encoder) :=
  match c.stage with
  | .header =>
      let (err, enc) := enc.writeAndCheck c.p.Payload
      some (unlessError .payload err, enc)
  | .payload =>
      match findCrcX enc.Dialects c.p.MsgID with
      | none => some (.returned (some .ErrUnknownMsgID), enc)
      | some crcx =>
          let crc := X25.WriteByte
            (X25.Write (X25.Write X25.New (c.hdr.drop 1)) c.p.Payload) crcx
          let (err, enc) := enc.writeAndCheck (u16ToBytes crc)
          some (unlessError .checksum err, enc)
  | .checksum =>
      let (err, bw) := enc.bw.Flush
      some (unlessError .flushed (err.map .write), { enc with bw := bw })
  | .flushed =>
      some (.returned none, { enc with CurrSeqID := enc.CurrSeqID + 1 })
  | .returned _ => none

def step (s : SharedEncoder) : SendEvent → Option SharedEncoder
  | .sendMAVLink m =>
      let c : SendCall := ⟨m.packet, s.enc.CurrSeqID, .header⟩
      let (err, enc) := s.enc.writeAndCheck c.hdr
      some
        { enc := enc
          calls := s.calls ++ [{ c with stage := unlessError .header err }] }
  | .proceed k => do
      let c ← s.calls[k]?
      let (stage, enc) ← proceed s.enc c
      some { enc := enc, calls := s.calls.set k { c with stage := stage } }

/-- The packets of the calls that succeed, in the order of the calls. -/
def sent (s : SharedEncoder) : List Packet :=
  s.calls.filterMap SendCall.delivered

/-- The connection has received whole frames, one for each call that
succeeds, and none of 256 frames in a row carries the number of another. -/
def WholeFrames (s : SharedEncoder) : Prop :=
  ∃ frames : List Frame, ∃ packets : List Packet,
    packets.Perm s.sent ∧
    s.enc.bw.out = (frames.map Frame.bytes).flatten ∧
    List.Forall₂ (fun f p => ∃ seq, f.Carries [DialectCommon] seq p)
      frames packets ∧
    ∀ (i j : ℕ) (f g : Frame), i < j → j < i + 256 →
      frames[i]? = some f → frames[j]? = some g → f.seq ≠ g.seq

/-- No call begins while another is in progress, and the connection takes
what is flushed as a whole or not at all. -/
def InTurn (s : SharedEncoder) : SendEvent → Prop
  | .sendMAVLink _ => ∀ c ∈ s.calls, c.stage.Returned
  | .proceed k =>
      ∀ c ∈ s.calls[k]?, c.stage = .checksum →
        ∀ room ∈ s.enc.bw.room, room = 0 ∨ s.enc.bw.buf.length ≤ room

instance (s : SharedEncoder) : ∀ event, Decidable (s.InTurn event)
  | .sendMAVLink _ => inferInstanceAs (Decidable (∀ c ∈ s.calls, _))
  | .proceed k => inferInstanceAs (Decidable (∀ c ∈ s.calls[k]?, _))

/-! ## One call -/

theorem writeAndCheck_fits {enc : Encoder} {p : List UInt8}
    (herr : enc.bw.err = none) (hfits : p.length ≤ enc.bw.Available) :
    enc.writeAndCheck p =
      (none, { enc with bw := { enc.bw with buf := enc.bw.buf ++ p } }) := by
  simp [Encoder.writeAndCheck, Writer.Write_fits herr hfits]

theorem writeAndCheck_failed {enc : Encoder} {e : WriteError}
    (herr : enc.bw.err = some e) (p : List UInt8) :
    enc.writeAndCheck p = (some (.write e), enc) := by
  simp [Encoder.writeAndCheck, Writer.Write_failed herr]

theorem step_proceed_last {s : SharedEncoder} {earlier : List SendCall}
    {c : SendCall} (hcalls : s.calls = earlier ++ [c]) :
    s.step (.proceed earlier.length) =
      (proceed s.enc c).map fun (stage, enc) =>
        ⟨enc, earlier ++ [{ c with stage := stage }]⟩ := by
  have hget : s.calls[earlier.length]? = some c := by
    rw [hcalls, List.getElem?_concat_length]
  have hset (c' : SendCall) : s.calls.set earlier.length c' =
      earlier ++ [c'] := by
    rw [hcalls, List.set_append_right _ _ le_rfl, Nat.sub_self]
    rfl
  simp only [step, hget, hset, Option.bind_eq_bind, Option.bind_some]
  cases proceed s.enc c with
  | none => rfl
  | some result => rfl

/-- Without anything in between, the steps of a call do what `Encode`
does. -/
theorem uninterrupted_call (s : SharedEncoder) (m : SentMessage) :
    ∃ events t, Run step s events t ∧
      t.enc = (s.enc.Encode 0 0 m.Pack).2 ∧
      t.calls = s.calls ++ [⟨m.packet, s.enc.CurrSeqID,
        .returned (s.enc.Encode 0 0 m.Pack).1⟩] := by
  have hlast (enc : Encoder) (c : SendCall) {stage : SendStage}
      {enc' : Encoder} (hproceed : proceed enc c = some (stage, enc')) :
      step ⟨enc, s.calls ++ [c]⟩ (.proceed s.calls.length) =
        some ⟨enc', s.calls ++ [{ c with stage := stage }]⟩ := by
    rw [step_proceed_last rfl, hproceed]
    rfl
  let c : SendCall := ⟨m.packet, s.enc.CurrSeqID, .header⟩
  have hhdr : [startByte, m.packet.Payload.length.toUInt8, s.enc.CurrSeqID,
      m.packet.SysID, m.packet.CompID, m.packet.MsgID] = c.hdr := rfl
  have hencode : s.enc.Encode 0 0 m.Pack = s.enc.EncodePacket m.packet :=
    rfl
  have hbegin : s.step (.sendMAVLink m) =
      some
        ⟨(s.enc.writeAndCheck c.hdr).2, s.calls ++
          [{ c with
            stage := unlessError .header (s.enc.writeAndCheck c.hdr).1 }]⟩ :=
    rfl
  rw [hencode]
  unfold Encoder.EncodePacket
  simp only [hhdr]
  rcases hheader : s.enc.writeAndCheck c.hdr with ⟨_ | e, enc₁⟩ <;>
    simp only [hheader] at hbegin ⊢
  case some => exact ⟨_, _, .snoc .nil trivial hbegin, rfl, rfl⟩
  have hbegun := (GuardedRun.nil : Run step s [] s).snoc trivial hbegin
  rcases hpayload : enc₁.writeAndCheck m.packet.Payload with ⟨_ | e, enc₂⟩ <;>
    simp only
  case some =>
    refine ⟨_, _, hbegun.snoc trivial (hlast enc₁ _ ?_), rfl, rfl⟩
    simp only [proceed, c, unlessError, hpayload]
  have hwritten := hbegun.snoc trivial (hlast enc₁ _
    (show proceed enc₁ c = some (.payload, enc₂) by
      simp only [proceed, c, unlessError, hpayload]))
  cases hcrcx : findCrcX enc₂.Dialects m.packet.MsgID with
  | none =>
      refine ⟨_, _, hwritten.snoc trivial (hlast enc₂ _ ?_), rfl, rfl⟩
      simp only [proceed, c, hcrcx]
  | some crcx =>
      simp only
      rcases hchecksum : enc₂.writeAndCheck (u16ToBytes (X25.WriteByte
          (X25.Write (X25.Write X25.New (c.hdr.drop 1)) m.packet.Payload)
            crcx)) with ⟨_ | e, enc₃⟩ <;> simp only
      case some =>
        refine ⟨_, _, hwritten.snoc trivial (hlast enc₂ _ ?_), rfl, rfl⟩
        simp only [SendCall.hdr, c] at hchecksum
        simp only [proceed, c, SendCall.hdr, hcrcx, hchecksum, unlessError]
      have hsummed := hwritten.snoc trivial (hlast enc₂ _
        (show proceed enc₂ { c with stage := .payload } =
            some (.checksum, enc₃) by
          simp only [SendCall.hdr, c] at hchecksum
          simp only [proceed, c, SendCall.hdr, hcrcx, hchecksum,
            unlessError]))
      rcases hflush : enc₃.bw.Flush with ⟨_ | e, bw⟩ <;> simp only
      case some =>
        refine ⟨_, _, hsummed.snoc trivial (hlast enc₃ _ ?_), rfl, rfl⟩
        simp only [proceed, hflush, unlessError, Option.map_some]
      have hflushed := hsummed.snoc trivial (hlast enc₃ _
        (show proceed enc₃ { c with stage := .checksum } =
            some (.flushed, { enc₃ with bw := bw }) by
          simp only [proceed, hflush, unlessError, Option.map_none]))
      exact ⟨_, _, hflushed.snoc trivial (hlast _ _ rfl), rfl, rfl⟩

/-! ## Calls that follow one another -/

/-- What the buffer holds while a call is at the given stage. -/
def SendCall.Buffered (c : SendCall) (buf : List UInt8) : Prop :=
  match c.stage with
  | .header => buf = c.hdr
  | .payload => buf = c.hdr ++ c.p.Payload
  | .checksum => ∃ f : Frame, buf = f.bytes ∧
      f.Carries [DialectCommon] c.seq c.p
  | .flushed => buf = []
  | .returned _ => False

/-- No call is in progress, and the encoder is ready for the next unless the
connection has failed. -/
structure Idle (s : SharedEncoder) : Prop where
  returned : ∀ c ∈ s.calls, c.stage.Returned
  ready : s.enc.bw.err = none →
    s.enc.bw.buf = [] ∧ s.enc.CurrSeqID = s.sent.length.toUInt8

/-- Only the call begun last is in progress. -/
structure Busy (s : SharedEncoder) (earlier : List SendCall)
    (c : SendCall) : Prop where
  calls : s.calls = earlier ++ [c]
  returned : ∀ call ∈ earlier, call.stage.Returned
  message : ∃ m : SentMessage, c.p = m.packet
  healthy : s.enc.bw.err = none
  current : s.enc.CurrSeqID = c.seq
  number : c.seq =
    (earlier.filterMap SendCall.delivered).length.toUInt8
  buffered : SendCall.Buffered c s.enc.bw.buf

structure Sequential (s : SharedEncoder) : Prop where
  dialects : s.enc.Dialects = [DialectCommon]
  size : s.enc.bw.size = 4096
  frames : FramesFrom [DialectCommon] 0 s.sent s.enc.bw.out
  turn : s.Idle ∨ ∃ earlier c, s.Busy earlier c

theorem initial_sequential (room : Option ℕ) :
    (initial room).Sequential where
  dialects := rfl
  size := rfl
  frames := .nil _ _
  turn := Or.inl ⟨by simp [initial], fun _ => ⟨rfl, rfl⟩⟩

theorem sent_concat {s : SharedEncoder} {earlier : List SendCall}
    {c : SendCall} (hcalls : s.calls = earlier ++ [c]) :
    s.sent = earlier.filterMap SendCall.delivered ++ c.delivered.toList := by
  rw [sent, hcalls, List.filterMap_append]
  cases h : c.delivered with
  | none => simp [h]
  | some p => simp [h]

theorem Sequential.begin {s : SharedEncoder} (hs : s.Sequential)
    (hidle : s.Idle) (m : SentMessage) {next : SharedEncoder}
    (hstep : s.step (.sendMAVLink m) = some next) : next.Sequential := by
  simp only [step, Option.some.injEq] at hstep
  cases herr : s.enc.bw.err with
  | some e =>
      rw [writeAndCheck_failed herr] at hstep
      subst hstep
      have hsent := sent_concat (s := ⟨s.enc, s.calls ++
        [⟨m.packet, s.enc.CurrSeqID, .returned (some (.write e))⟩]⟩) rfl
      simp only [SendCall.delivered, Option.toList_none, List.append_nil]
        at hsent
      refine ⟨hs.dialects, hs.size, hsent ▸ hs.frames, Or.inl ⟨?_, ?_⟩⟩
      · intro c hc
        rcases List.mem_append.mp hc with hold | hnew
        · exact hidle.returned c hold
        · rw [List.mem_singleton.mp hnew]
          trivial
      · intro hnone
        rw [herr] at hnone
        cases hnone
  | none =>
      obtain ⟨hbuf, hseq⟩ := hidle.ready herr
      rw [writeAndCheck_fits herr (by
        simp [Writer.Available, hs.size, hbuf, SendCall.hdr])] at hstep
      subst hstep
      have hsent := sent_concat (s := ⟨s.enc, s.calls ++
        [⟨m.packet, s.enc.CurrSeqID, .header⟩]⟩) rfl
      simp only [SendCall.delivered, Option.toList_none, List.append_nil]
        at hsent
      refine ⟨hs.dialects, hs.size, hsent ▸ hs.frames,
        Or.inr ⟨s.calls, _, rfl, hidle.returned, ⟨m, rfl⟩, herr, rfl, hseq,
          ?_⟩⟩
      change s.enc.bw.buf ++ _ = _
      rw [hbuf, List.nil_append]
      rfl

/-- The checksum step completes the bytes of a frame. -/
theorem frame_of_message (m : SentMessage) (seq : UInt8) :
    ∃ crcx, findCrcX [DialectCommon] m.packet.MsgID = some crcx ∧
      ∃ f : Frame, f.Carries [DialectCommon] seq m.packet ∧
        SendCall.hdr ⟨m.packet, seq, .payload⟩ ++ m.packet.Payload ++
          u16ToBytes (X25.WriteByte (X25.Write (X25.Write X25.New
            ((SendCall.hdr ⟨m.packet, seq, .payload⟩).drop 1))
              m.packet.Payload) crcx) = f.bytes := by
  obtain ⟨crcx, hcrcx⟩ := m.known
  refine ⟨crcx, hcrcx, m.packet.frame seq crcx m.short,
    m.packet.verdict_frame seq m.short hcrcx, ?_⟩
  rw [Packet.bytes_frame, Packet.sum, Packet.covered, X25.Write_append]
  simp [SendCall.hdr]

/-- The call in progress goes on by one step. -/
theorem Sequential.proceed {s : SharedEncoder} (hs : s.Sequential)
    {earlier : List SendCall} {c : SendCall} (hbusy : s.Busy earlier c)
    (hguard : s.InTurn (.proceed earlier.length)) {stage : SendStage}
    {enc : Encoder}
    (hproceed : SharedEncoder.proceed s.enc c = some (stage, enc)) :
    Sequential ⟨enc, earlier ++ [{ c with stage := stage }]⟩ := by
  obtain ⟨hcalls, hreturned, ⟨m, hm⟩, hhealthy, hcurrent, hnumber,
    hbuffered⟩ := hbusy
  obtain ⟨p, seq, old⟩ := c
  simp only at hm hcurrent hnumber
  subst hm
  have hframes := hs.frames
  rw [sent_concat hcalls] at hframes
  cases old with
  | header =>
      have hbuf : s.enc.bw.buf = SendCall.hdr ⟨m.packet, seq, .header⟩ :=
        hbuffered
      rw [SharedEncoder.proceed, writeAndCheck_fits hhealthy (by
        have hshort := m.short
        simp only [Writer.Available, hs.size, hbuf, SendCall.hdr,
          List.length_cons, List.length_nil]
        omega)] at hproceed
      cases hproceed
      refine ⟨hs.dialects, hs.size, ?_,
        Or.inr ⟨earlier, _, rfl, hreturned, ⟨m, rfl⟩, hhealthy, hcurrent,
          hnumber, ?_⟩⟩
      · rw [sent_concat rfl]
        exact hframes
      · exact congrArg (· ++ m.packet.Payload) hbuf
  | payload =>
      have hbuf : s.enc.bw.buf =
          SendCall.hdr ⟨m.packet, seq, .payload⟩ ++ m.packet.Payload :=
        hbuffered
      obtain ⟨crcx, hcrcx, f, hcarries, hbytes⟩ := frame_of_message m seq
      rw [SharedEncoder.proceed] at hproceed
      simp only [hs.dialects, hcrcx] at hproceed
      rw [writeAndCheck_fits hhealthy (by
        have hshort := m.short
        simp only [Writer.Available, hs.size, hbuf, SendCall.hdr,
          List.length_append, List.length_cons, List.length_nil,
          length_u16ToBytes]
        omega)] at hproceed
      cases hproceed
      refine ⟨hs.dialects, hs.size, ?_,
        Or.inr ⟨earlier, _, rfl, hreturned, ⟨m, rfl⟩, hhealthy, hcurrent,
          hnumber, f, ?_, hcarries⟩⟩
      · rw [sent_concat rfl]
        exact hframes
      · rw [← hbytes, ← hbuf]
  | checksum =>
      obtain ⟨f, hbuf, hcarries⟩ := hbuffered
      have hroom : ∀ room ∈ s.enc.bw.room,
          room = 0 ∨ s.enc.bw.buf.length ≤ room := by
        refine hguard ⟨m.packet, seq, .checksum⟩ ?_ rfl
        rw [hcalls, List.getElem?_concat_length]
        rfl
      by_cases hrefused : s.enc.bw.room = some 0
      · rw [SharedEncoder.proceed, Writer.Flush_refused hhealthy hrefused
          (by simp [hbuf, Frame.bytes])] at hproceed
        cases hproceed
        refine ⟨hs.dialects, hs.size, ?_, Or.inl ⟨?_, by simp⟩⟩
        · rw [sent_concat rfl]
          exact hframes
        · exact List.forall_mem_append.mpr
            ⟨hreturned, List.forall_mem_singleton.mpr trivial⟩
      · obtain ⟨room, hflush⟩ := Writer.Flush_fits hhealthy (by
          intro room hmem
          rcases hroom room hmem with rfl | hle
          · exact absurd hmem hrefused
          · exact hle)
        rw [SharedEncoder.proceed, hflush] at hproceed
        cases hproceed
        refine ⟨hs.dialects, hs.size, ?_,
          Or.inr ⟨earlier, _, rfl, hreturned, ⟨m, rfl⟩, hhealthy, hcurrent,
            hnumber, rfl⟩⟩
        rw [sent_concat rfl, hbuf]
        simp only [SendCall.delivered, Option.toList_none,
          List.append_nil] at hframes
        apply hframes.snoc
        rw [← hnumber, UInt8.zero_add]
        exact hcarries
  | flushed =>
      cases hproceed
      refine ⟨hs.dialects, hs.size, ?_, Or.inl ⟨?_, ?_⟩⟩
      · rw [sent_concat rfl]
        exact hframes
      · exact List.forall_mem_append.mpr
          ⟨hreturned, List.forall_mem_singleton.mpr trivial⟩
      · intro _
        refine ⟨hbuffered, ?_⟩
        rw [sent_concat rfl, List.length_append, hcurrent, hnumber]
        simp [SendCall.delivered]
  | returned err => exact absurd hbuffered id

theorem Sequential.step {s next : SharedEncoder} {event : SendEvent}
    (hs : s.Sequential) (hguard : s.InTurn event)
    (hstep : s.step event = some next) : next.Sequential := by
  cases event with
  | sendMAVLink m =>
      rcases hs.turn with hidle | ⟨earlier, c, hbusy⟩
      · exact hs.begin hidle m hstep
      · have hreturned : c.stage.Returned :=
          hguard c (by rw [hbusy.calls]; simp)
        have hbuffered := hbusy.buffered
        cases hstage : c.stage with
        | returned err => simp [SendCall.Buffered, hstage] at hbuffered
        | _ => rw [hstage] at hreturned; cases hreturned
  | proceed k =>
      simp only [SharedEncoder.step, Option.bind_eq_bind,
        Option.bind_eq_some_iff, Option.some.injEq] at hstep
      obtain ⟨c, hc, ⟨stage, enc⟩, hproceed, rfl⟩ := hstep
      have hrunning : ¬ c.stage.Returned := by
        intro hreturned
        cases hstage : c.stage with
        | returned err =>
            simp [SharedEncoder.proceed, hstage] at hproceed
        | _ => rw [hstage] at hreturned; cases hreturned
      rcases hs.turn with hidle | ⟨earlier, c', hbusy⟩
      · exact absurd (hidle.returned c (List.mem_of_getElem? hc)) hrunning
      · have hlast : k = earlier.length := by
          by_contra hne
          rw [hbusy.calls] at hc
          have hlt : k < earlier.length := by
            have hbound := (List.getElem?_eq_some_iff.mp hc).1
            rw [List.length_append, List.length_singleton] at hbound
            omega
          rw [List.getElem?_append_left hlt] at hc
          exact hrunning (hbusy.returned c (List.mem_of_getElem? hc))
        subst hlast
        rw [hbusy.calls, List.getElem?_concat_length, Option.some.injEq]
          at hc
        subst hc
        rw [hbusy.calls, List.set_append_right _ _ le_rfl, Nat.sub_self]
        exact hs.proceed hbusy hguard hproceed

theorem toUInt8_ne {i j : ℕ} (hlt : i < j) (hnear : j < i + 256) :
    i.toUInt8 ≠ j.toUInt8 := by
  intro hsame
  have hmod := congrArg UInt8.toNat hsame
  rw [Nat.toUInt8_eq, Nat.toUInt8_eq, UInt8.toNat_ofNat',
    UInt8.toNat_ofNat'] at hmod
  omega

theorem Sequential.wholeFrames {s : SharedEncoder} (hs : s.Sequential) :
    s.WholeFrames := by
  obtain ⟨frames, hout, hlen, hindex⟩ := hs.frames
  have hnumber {k : ℕ} {f : Frame} (hf : frames[k]? = some f) :
      f.seq = k.toUInt8 := by
    have hbound : k < s.sent.length :=
      hlen ▸ (List.getElem?_eq_some_iff.mp hf).1
    obtain ⟨g, hg, hcarries⟩ :=
      hindex k _ (List.getElem?_eq_getElem hbound)
    rw [hf, Option.some.injEq] at hg
    rw [hg, hcarries.seq, UInt8.zero_add]
  refine ⟨frames, s.sent, .refl _, hout, ?_, ?_⟩
  · rw [List.forall₂_iff_get]
    refine ⟨hlen, ?_⟩
    intro k hf hp
    obtain ⟨g, hg, hcarries⟩ :=
      hindex k _ (List.getElem?_eq_getElem hp)
    rw [List.getElem?_eq_getElem hf, Option.some.injEq] at hg
    simp only [List.get_eq_getElem]
    rw [hg]
    exact ⟨_, hcarries⟩
  · intro i j f g hlt hnear hf hg
    rw [hnumber hf, hnumber hg]
    exact toUInt8_ne hlt hnear

/-- As long as no call begins while another is in progress, and the
connection takes each flush as a whole or not at all, what it has received
are whole frames under distinct numbers. -/
theorem sends_in_turn_deliver_frames (room : Option ℕ)
    {events : List SendEvent} {s : SharedEncoder}
    (hrun : GuardedRun step InTurn (initial room) events s) :
    s.WholeFrames := by
  have hs : s.Sequential := hrun.invariant
    (fun s event next hs hguard hstep => hs.step hguard hstep)
    (initial_sequential room)
  exact hs.wholeFrames

theorem sends_in_turn_deliver_frames_two :
    ∃ s, Run step (initial none)
        [.sendMAVLink (.paramRequestList {}), .proceed 0, .proceed 0,
          .proceed 0, .proceed 0, .sendMAVLink (.paramRequestRead {}),
          .proceed 1, .proceed 1, .proceed 1, .proceed 1] s ∧
      s.WholeFrames := by
  have hexec : (exec step InTurn (initial none)
      [.sendMAVLink (.paramRequestList {}), .proceed 0, .proceed 0,
        .proceed 0, .proceed 0, .sendMAVLink (.paramRequestRead {}),
        .proceed 1, .proceed 1, .proceed 1, .proceed 1]).isSome := by
    decide
  obtain ⟨s, hrun⟩ := GuardedRun.of_exec_isSome hexec
  exact ⟨s, hrun.run,
    sends_in_turn_deliver_frames none hrun⟩

/-- The second call begins after the first has flushed, but before it has
counted its frame, so both frames carry the number 0. -/
theorem overlapping_sends_repeat_number :
    ¬ ∀ events s, Run step (initial none) events s → s.WholeFrames := by
  intro hall
  let events : List SendEvent :=
    [.sendMAVLink (.paramRequestList {}), .proceed 0, .proceed 0,
      .proceed 0, .sendMAVLink (.paramRequestList {}), .proceed 0,
      .proceed 1, .proceed 1, .proceed 1, .proceed 1]
  have hexec : (exec step (fun _ _ => True) (initial none) events).map
      (fun s => (s.enc.bw.out, s.sent.length)) =
        some ([254, 2, 0, 0, 0, 21, 0, 0, 107, 182, 254, 2, 0, 0, 0, 21, 0,
          0, 107, 182], 2) := by
    decide
  obtain ⟨s, hrun, heq⟩ := GuardedRun.of_exec_map hexec
  simp only [Prod.mk.injEq] at heq
  obtain ⟨hout, hcount⟩ := heq
  obtain ⟨frames, packets, hperm, hframes, hcarry, hdistinct⟩ :=
    hall events s hrun
  have htwo : frames.length = 2 := by
    rw [hcarry.length_eq, hperm.length_eq, hcount]
  obtain ⟨f, g, rfl⟩ := List.length_eq_two.mp htwo
  apply hdistinct 0 1 f g (by omega) (by omega) rfl rfl
  have hbytes : f.bytes ++ g.bytes =
      [254, 2, 0, 0, 0, 21, 0, 0, 107, 182, 254, 2, 0, 0, 0, 21, 0, 0, 107,
        182] := by
    rw [← hout, hframes]
    simp
  have hfirst : f.bytes.length = 10 := by
    have hcount := congrArg (·[1]?) hbytes
    simp only [Frame.bytes, Frame.header, List.cons_append,
      List.getElem?_cons_succ, List.getElem?_cons_zero,
      Option.some.injEq] at hcount
    have hsize := f.toNat_length
    rw [hcount] at hsize
    rw [f.length_bytes, ← hsize]
    rfl
  have hseq := congrArg (·[2]?) hbytes
  have hseq' := congrArg (fun bytes => (bytes.drop 10)[2]?) hbytes
  simp only [List.drop_left' hfirst] at hseq'
  simp only [Frame.bytes, Frame.header, List.cons_append,
    List.getElem?_cons_succ, List.getElem?_cons_zero, List.drop_succ_cons,
    List.drop_zero, Option.some.injEq] at hseq hseq'
  rw [hseq, hseq']

end SharedEncoder

end DronesmithEngine
