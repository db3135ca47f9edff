import DronesmithEngine.Dronedp
import Mathlib.Tactic

/-!
# Cloud messages on the wire

What `GenerateMsg` writes is what `ParseMsg` reads back, for every payload
that the length field can count.  The checksum finds every change of one
byte, and of two adjacent ones that it covers.  The length field is compared
with nothing but the end of the datagram, checksum included.
-/

namespace DronesmithEngine.Cloudlink

open Go Checksums

/-! ## Reading back -/

section

variable (json : Unmarshaler) {op : OP} {session : UInt32}
  {payload : List UInt8}

theorem frame_eq (op : OP) (session : UInt32) (payload : List UInt8) :
    frame op session payload =
      summed op session payload ++
        [(Crc16 (summed op session payload) >>> 8).toUInt8,
          (Crc16 (summed op session payload)).toUInt8] := rfl

theorem toNat_length (hlen : payload.length ≤ 65535) :
    payload.length.toUInt16.toNat = payload.length := by
  rw [Nat.toUInt16_eq, UInt16.toNat_ofNat_of_lt']
  exact Nat.lt_succ_of_le hlen

/-- The checksum of a frame is right, and the fields are those that were
written. -/
theorem ParseMsg_frame (hlen : payload.length ≤ 65535) :
    ParseMsg json (frame op session payload) =
      .ok ((parseData json op payload).map (⟨op, session, ·⟩)) := by
  rw [frame_eq, ParseMsg_append, BigEndian.join_PutUint16, if_neg (by simp)]
  simp only [summed, BigEndian.PutUint32, BigEndian.PutUint16,
    List.cons_append, List.nil_append]
  rw [parseFields_header json _ _ _ _ _ _ _ (by simp)]
  simp only [BigEndian.join_PutUint16, BigEndian.join_PutUint32,
    toNat_length hlen, List.take_left]
  rw [if_neg (by simp)]

end

section

variable {α ε : Type} (Marshal : Outgoing α → Except ε (List UInt8))

theorem GenerateMsg_binary (session : UInt32) (packet : List UInt8) :
    GenerateMsg Marshal OP_MAVLINK_BIN session (.bytes packet) =
      .ok (.ok (frame OP_MAVLINK_BIN session packet)) := rfl

theorem ParseMsg_binary (json : Unmarshaler) (session : UInt32)
    {packet : List UInt8} (hlen : packet.length ≤ 65535) :
    ParseMsg json (frame OP_MAVLINK_BIN session packet) =
      .ok (.ok ⟨OP_MAVLINK_BIN, session, .bytes packet⟩) :=
  ParseMsg_frame json hlen

/-- A message that was generated is the frame of some payload. -/
theorem frame_of_GenerateMsg {opCode : OP} {session : UInt32}
    {data : Outgoing α} {sent : List UInt8}
    (hsent : GenerateMsg Marshal opCode session data = .ok (.ok sent)) :
    ∃ payload, sent = frame opCode session payload := by
  unfold GenerateMsg at hsent
  rcases hpayload : messagePayload Marshal opCode data with e | e | payload
  · rw [hpayload] at hsent
    cases hsent
  · rw [hpayload] at hsent
    cases hsent
  · rw [hpayload] at hsent
    exact ⟨payload, (Except.ok.inj (Except.ok.inj hsent)).symm⟩

/-- A binary message is parsed to exactly what it was generated from, so
that different messages have different frames. -/
theorem ParseMsg_GenerateMsg (json : Unmarshaler) (session : UInt32)
    (packet : List UInt8) (hlen : packet.length ≤ 65535) :
    (∃ data,
      GenerateMsg Marshal OP_MAVLINK_BIN session (.bytes packet) =
        .ok (.ok data) ∧
      ParseMsg json data =
        .ok (.ok ⟨OP_MAVLINK_BIN, session, .bytes packet⟩)) ∧
    ∀ session' packet', packet'.length ≤ 65535 →
      GenerateMsg Marshal OP_MAVLINK_BIN session' (.bytes packet') =
        GenerateMsg Marshal OP_MAVLINK_BIN session (.bytes packet) →
      session' = session ∧ packet' = packet := by
  constructor
  · exact ⟨frame OP_MAVLINK_BIN session packet, rfl,
      ParseMsg_binary json session hlen⟩
  · intro session' packet' hlen' hsame
    have hframe : frame OP_MAVLINK_BIN session' packet' =
        frame OP_MAVLINK_BIN session packet :=
      Except.ok.inj (Except.ok.inj hsame)
    have hparse := ParseMsg_binary json session' hlen'
    rw [hframe, ParseMsg_binary json session hlen] at hparse
    simp only [Except.ok.injEq, Msg.mk.injEq, MsgData.bytes.injEq,
      true_and] at hparse
    exact ⟨hparse.1.symm, hparse.2.symm⟩

theorem ParseMsg_GenerateMsg_three :
    ∃ data,
      GenerateMsg (fun _ : Outgoing Unit => (.error () : Except Unit _))
        OP_MAVLINK_BIN 7 (.bytes [1, 2, 3]) = .ok (.ok data) ∧
      ParseMsg ⟨fun _ => none, fun _ => none⟩ data =
        .ok (.ok ⟨OP_MAVLINK_BIN, 7, .bytes [1, 2, 3]⟩) :=
  (ParseMsg_GenerateMsg _ _ 7 [1, 2, 3] (by decide)).1

/-! ## Changed messages -/

/-- A changed byte of a message, or two adjacent ones in front of its
checksum. -/
def MsgChanged (sent received : List UInt8) : Prop :=
  Changed (fun i => i < sent.length) (fun i => i + 1 < sent.length - 2)
    sent received

theorem ParseMsg_crc (json : Unmarshaler) {body : List UInt8} {hi lo : UInt8}
    (hcrc : [hi, lo] ≠ BigEndian.PutUint16 (Crc16 body)) :
    ParseMsg json (body ++ [hi, lo]) = .ok (.error .crc) := by
  rw [ParseMsg_append, if_pos]
  intro heq
  rw [heq, BigEndian.PutUint16_join] at hcrc
  exact hcrc rfl

/-- Every message with one changed byte, or with two adjacent ones changed in
front of its checksum, is rejected with the checksum error. -/
theorem ParseMsg_changed (json : Unmarshaler) {opCode : OP}
    {session : UInt32} {data : Outgoing α} {sent received : List UInt8}
    (hsent : GenerateMsg Marshal opCode session data = .ok (.ok sent))
    (hchanged : MsgChanged sent received) :
    ParseMsg json received = .ok (.error .crc) := by
  obtain ⟨payload, rfl⟩ := frame_of_GenerateMsg Marshal hsent
  let body := summed opCode session payload
  have hpairs : ∀ i, i + 1 < (frame opCode session payload).length - 2 →
      i + 1 < body.length := by
    intro i hi
    rw [frame_eq, List.length_append] at hi
    exact hi
  rcases crcStep_detecting.changed 0 hchanged hpairs with
    ⟨body', rfl, hne⟩ | ⟨tail, rfl, hlen, hne⟩
  · apply ParseMsg_crc
    intro heq
    exact hne (BigEndian.PutUint16_injective heq).symm
  · obtain ⟨hi, lo, rfl⟩ := List.length_eq_two.mp hlen
    exact ParseMsg_crc json hne

theorem ParseMsg_changed_first :
    ParseMsg ⟨fun _ => none, fun _ => none⟩
      ((frame OP_MAVLINK_BIN 7 [1, 2, 3]).set 0 9) =
        .ok (.error .crc) := by
  have hchanged : MsgChanged (frame OP_MAVLINK_BIN 7 [1, 2, 3])
      ((frame OP_MAVLINK_BIN 7 [1, 2, 3]).set 0 9) :=
    .one (by decide) rfl (by decide)
  exact ParseMsg_changed
    (fun _ : Outgoing Unit => (.error () : Except Unit (List UInt8))) _
    (GenerateMsg_binary _ 7 [1, 2, 3]) hchanged

/-! ## Datagrams that were not generated -/

def lengthField (data : List UInt8) : ℕ :=
  ((data.getD 6 0).toUInt16 ||| ((data.getD 5 0).toUInt16 <<< 8)).toNat

/-- The bytes that are taken as the payload. -/
def payloadOf (data : List UInt8) : List UInt8 :=
  (data.drop 7).take (lengthField data)

/-- The checksum is right, the op is the one given, and the datagram reaches
as far as the length field says, counting the checksum. -/
structure PassesAs (op : OP) (data : List UInt8) : Prop where
  crc : ∃ body, data = body ++ BigEndian.PutUint16 (Crc16 body)
  op : data[4]? = some op
  behind : 7 < data.length
  fits : 7 + lengthField data ≤ data.length

theorem exists_header {data : List UInt8} (hlen : 7 < data.length) :
    ∃ s0 s1 s2 s3 op l0 l1 rest, rest ≠ [] ∧
      data = s0 :: s1 :: s2 :: s3 :: op :: l0 :: l1 :: rest := by
  match data, hlen with
  | s0 :: s1 :: s2 :: s3 :: op :: l0 :: l1 :: b :: rest, _ =>
      exact ⟨s0, s1, s2, s3, op, l0, l1, b :: rest, by simp, rfl⟩

theorem parseFields_ok_iff (json : Unmarshaler) {data : List UInt8}
    {msg : Msg} :
    parseFields json data = .ok (.ok msg) ↔
      (data[4]? = some msg.Op ∧ 7 < data.length ∧
        7 + lengthField data ≤ data.length) ∧
      data.take 4 = BigEndian.PutUint32 msg.Session ∧
      parseData json msg.Op (payloadOf data) = .ok msg.Data := by
  obtain ⟨msgOp, session, msgData⟩ := msg
  by_cases hlen : 7 < data.length
  · obtain ⟨s0, s1, s2, s3, op, l0, l1, rest, hrest, rfl⟩ :=
      exists_header hlen
    rw [parseFields_header json s0 s1 s2 s3 op l0 l1 hrest]
    have hfield : lengthField
        (s0 :: s1 :: s2 :: s3 :: op :: l0 :: l1 :: rest) =
          (l1.toUInt16 ||| (l0.toUInt16 <<< 8)).toNat := rfl
    have htake : (s0 :: s1 :: s2 :: s3 :: op :: l0 :: l1 :: rest).take 4 =
        [s0, s1, s2, s3] := rfl
    have hpayload : payloadOf
        (s0 :: s1 :: s2 :: s3 :: op :: l0 :: l1 :: rest) =
          rest.take (l1.toUInt16 ||| (l0.toUInt16 <<< 8)).toNat := rfl
    rw [hfield, htake, hpayload, ← BigEndian.PutUint32_join,
      BigEndian.PutUint32_injective.eq_iff]
    generalize (l1.toUInt16 ||| (l0.toUInt16 <<< 8)).toNat = length
    generalize s3.toUInt32 ||| (s2.toUInt32 <<< 8) ||| (s1.toUInt32 <<< 16) |||
      (s0.toUInt32 <<< 24) = id
    by_cases hshort : rest.length < length
    · simp only [hshort, if_true]
      simp
      omega
    · simp only [hshort, if_false]
      constructor
      · intro hparsed
        cases hdata : parseData json op (rest.take length) with
        | error e =>
            rw [hdata] at hparsed
            cases hparsed
        | ok decoded =>
            rw [hdata] at hparsed
            simp only [Except.map, Except.ok.injEq, Msg.mk.injEq] at hparsed
            obtain ⟨rfl, rfl, rfl⟩ := hparsed
            refine ⟨⟨rfl, hlen, ?_⟩, rfl, hdata⟩
            simp only [List.length_cons]
            omega
      · rintro ⟨⟨hop, -, -⟩, rfl, hdata⟩
        obtain rfl := Option.some.inj hop
        rw [hdata]
        rfl
  · rw [parseFields_short json (Nat.not_lt.mp hlen)]
    simp [hlen]

theorem exists_last_two {data : List UInt8} (hlen : 2 ≤ data.length) :
    ∃ body hi lo, data = body ++ [hi, lo] := by
  obtain ⟨hi, lo, hlast⟩ : ∃ hi lo, data.drop (data.length - 2) = [hi, lo] :=
    List.length_eq_two.mp (by rw [List.length_drop]; omega)
  refine ⟨data.take (data.length - 2), hi, lo, ?_⟩
  rw [← hlast, List.take_append_drop]

theorem parseFields_answers (json : Unmarshaler) (data : List UInt8) :
    ∃ answer, parseFields json data = .ok answer := by
  by_cases hlen : 7 < data.length
  · obtain ⟨s0, s1, s2, s3, op, l0, l1, rest, hrest, rfl⟩ :=
      exists_header hlen
    rw [parseFields_header json s0 s1 s2 s3 op l0 l1 hrest]
    dsimp only
    split
    · exact ⟨_, rfl⟩
    · exact ⟨_, rfl⟩
  · exact ⟨_, parseFields_short json (Nat.not_lt.mp hlen)⟩

/-- Two bytes are enough for `ParseMsg` to return. -/
theorem ParseMsg_answers (json : Unmarshaler) {data : List UInt8}
    (hlen : 2 ≤ data.length) : ∃ answer, ParseMsg json data = .ok answer := by
  obtain ⟨body, hi, lo, rfl⟩ := exists_last_two hlen
  rw [ParseMsg_append]
  split
  · exact ⟨_, rfl⟩
  · exact parseFields_answers json _

/-- What `ParseMsg` accepts, and as what. -/
theorem ParseMsg_ok_iff (json : Unmarshaler) {data : List UInt8} {msg : Msg} :
    ParseMsg json data = .ok (.ok msg) ↔
      PassesAs msg.Op data ∧
        data.take 4 = BigEndian.PutUint32 msg.Session ∧
        parseData json msg.Op (payloadOf data) = .ok msg.Data := by
  constructor
  · intro hparse
    have hlen : 2 ≤ data.length := by
      by_contra htiny
      rw [ParseMsg_tiny json (Nat.not_le.mp htiny)] at hparse
      cases hparse
    obtain ⟨body, hi, lo, rfl⟩ := exists_last_two hlen
    rw [ParseMsg_append] at hparse
    split at hparse
    next => cases hparse
    next hcrc =>
      rw [not_not] at hcrc
      obtain ⟨⟨hop, hbehind, hfits⟩, hfields⟩ :=
        (parseFields_ok_iff json).mp hparse
      refine ⟨⟨⟨body, ?_⟩, hop, hbehind, hfits⟩, hfields⟩
      rw [hcrc, BigEndian.PutUint16_join]
  · rintro ⟨⟨⟨body, rfl⟩, hop, hbehind, hfits⟩, hfields⟩
    rw [BigEndian.PutUint16, ParseMsg_append, BigEndian.join_PutUint16,
      if_neg (by simp)]
    exact (parseFields_ok_iff json).mpr ⟨⟨hop, hbehind, hfits⟩, hfields⟩

theorem ParseMsg_binary_iff (json : Unmarshaler) {data d : List UInt8}
    {session : UInt32} :
    ParseMsg json data = .ok (.ok ⟨OP_MAVLINK_BIN, session, .bytes d⟩) ↔
      PassesAs OP_MAVLINK_BIN data ∧
        data.take 4 = BigEndian.PutUint32 session ∧ d = payloadOf data := by
  have hbinary : parseData json OP_MAVLINK_BIN (payloadOf data) =
      .ok (.bytes (payloadOf data)) := rfl
  rw [ParseMsg_ok_iff, hbinary, Except.ok.injEq, MsgData.bytes.injEq,
    eq_comm (a := d)]

/-- When the length field counts what is in front of the checksum, the header
and the payload are all that is summed. -/
theorem summed_eq {data body : List UInt8} {session : UInt32}
    (hpasses : PassesAs OP_MAVLINK_BIN data)
    (hsession : data.take 4 = BigEndian.PutUint32 session)
    (hlength : 7 + lengthField data + 2 = data.length)
    (hbody : data = body ++ BigEndian.PutUint16 (Crc16 body)) :
    summed OP_MAVLINK_BIN session
      (payloadOf data) = body := by
  have hbodylen := congrArg List.length hbody
  rw [List.length_append, BigEndian.length_PutUint16] at hbodylen
  have htake : data.take (7 + lengthField data) = body := by
    calc
      data.take (7 + lengthField data) = data.take body.length := by
        congr 1
        omega
      _ = (body ++ BigEndian.PutUint16 (Crc16 body)).take body.length :=
        congrArg _ hbody
      _ = body := List.take_left
  have hop := hpasses.op
  obtain ⟨s0, s1, s2, s3, op, l0, l1, rest, -, rfl⟩ :=
    exists_header hpasses.behind
  obtain rfl := Option.some.inj hop
  have hfield : lengthField
      (s0 :: s1 :: s2 :: s3 :: OP_MAVLINK_BIN :: l0 :: l1 :: rest) =
        (l1.toUInt16 ||| (l0.toUInt16 <<< 8)).toNat := rfl
  have hrest : (rest.take
      (l1.toUInt16 ||| (l0.toUInt16 <<< 8)).toNat).length.toUInt16 =
        l1.toUInt16 ||| (l0.toUInt16 <<< 8) := by
    rw [hfield] at hlength
    simp only [List.length_cons] at hlength
    rw [List.length_take_of_le (by omega), Nat.toUInt16_eq,
      UInt16.ofNat_toNat]
  have hpayload : payloadOf
      (s0 :: s1 :: s2 :: s3 :: OP_MAVLINK_BIN :: l0 :: l1 :: rest) =
        rest.take (l1.toUInt16 ||| (l0.toUInt16 <<< 8)).toNat := rfl
  rw [← htake, summed, ← hsession, hfield, hpayload, hrest,
    BigEndian.PutUint16_join, Nat.add_comm 7]
  rfl

/-- What `ParseMsg` accepts as a binary message is what `GenerateMsg` writes
for it, exactly when the length field counts what is between the header and
the checksum. -/
theorem GenerateMsg_ParseMsg_iff (json : Unmarshaler) (data : List UInt8) :
    (∀ session d,
      ParseMsg json data = .ok (.ok ⟨OP_MAVLINK_BIN, session, .bytes d⟩) →
        GenerateMsg Marshal OP_MAVLINK_BIN session (.bytes d) =
            .ok (.ok data) ∧
          7 + lengthField data + 2 = data.length) ↔
      (PassesAs OP_MAVLINK_BIN data → 7 + lengthField data + 2 = data.length) := by
  constructor
  · intro hall hpasses
    obtain ⟨session, hsession⟩ :=
      BigEndian.PutUint32_surjective (data.take 4) (by
        have hbehind := hpasses.behind
        rw [List.length_take]
        omega)
    exact (hall session _ ((ParseMsg_binary_iff json).mpr
      ⟨hpasses, hsession.symm, rfl⟩)).2
  · intro hcond session d hparse
    obtain ⟨hpasses, hsession, rfl⟩ := (ParseMsg_binary_iff json).mp hparse
    have hlength := hcond hpasses
    refine ⟨?_, hlength⟩
    rw [GenerateMsg_binary]
    obtain ⟨body, hbody⟩ := hpasses.crc
    rw [frame, summed_eq hpasses hsession hlength hbody, ← hbody]

/-- A byte behind an empty payload is accepted and dropped. -/
theorem trailing_byte_dropped :
    ¬ ∀ (json : Unmarshaler)
        (Marshal : Outgoing Unit → Except Unit (List UInt8))
        (data : List UInt8) (session : UInt32) (d : List UInt8),
      ParseMsg json data = .ok (.ok ⟨OP_MAVLINK_BIN, session, .bytes d⟩) →
        GenerateMsg Marshal OP_MAVLINK_BIN session (.bytes d) =
          .ok (.ok data) := by
  intro hall
  let data : List UInt8 := [0, 0, 0, 7, 0xFE, 0, 0, 0x55, 23, 68]
  have hpasses : PassesAs OP_MAVLINK_BIN data := by
    refine ⟨⟨[0, 0, 0, 7, 0xFE, 0, 0, 0x55], ?_⟩, rfl, ?_, ?_⟩
    · decide
    · decide
    · decide
  have hparse := (ParseMsg_binary_iff ⟨fun _ => none, fun _ => none⟩).mpr
    ⟨hpasses, show data.take 4 = BigEndian.PutUint32 7 by decide, rfl⟩
  have hsame := hall _ (fun _ => .error ()) data 7 _ hparse
  have hdata := Except.ok.inj (Except.ok.inj hsame)
  have hlength := congrArg List.length hdata
  exact absurd hlength (by decide)

end

end DronesmithEngine.Cloudlink
