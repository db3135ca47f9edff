import DronesmithEngine.Dronedp
import DronesmithEngine.FmulinkRelay
import DronesmithEngine.LabelledRuns
import DronesmithEngine.MavlinkEnums
import Mathlib.Tactic

/-!
# Packets on their way to the cloud

`Serve` of `fmulink/fmulink.go` starts a goroutine with `UpdateFromFMU` for
every packet.  It stores the packet under its id, for the next tick of the
sync timer, and hands packets with one of five ids to the send loop of
`cloudlink/cloudlink.go` as well.
-/

namespace DronesmithEngine.Cloudlink

open Go LabelledRuns Mavlink Fmulink

/-- A frame, with its number among those received. -/
structure CloudPacket where
  number : ℕ
  bytes : List UInt8
  long : 5 < bytes.length
  deriving DecidableEq

def CloudPacket.op (p : CloudPacket) : UInt8 := p.bytes.get ⟨5, p.long⟩

theorem length_unrollPacket (pkt : Packet) :
    5 < (unrollPacket pkt).length := by
  simp only [unrollPacket, List.length_append, List.length_cons]
  omega

/-- The ids that are sent as fast as possible. -/
def Unthrottled (op : UInt8) : Prop :=
  op = MSG_ID_PARAM_VALUE ∨ op = MSG_ID_MISSION_COUNT ∨
    op = MSG_ID_MISSION_ACK ∨ op = MSG_ID_COMMAND_ACK ∨
      op = MSG_ID_AUTOPILOT_VERSION

instance : DecidablePred Unthrottled := fun op =>
  inferInstanceAs (Decidable (op = _ ∨ _))

/-- A packet that was written to the connection, and the datagram. -/
structure Transmission where
  packet : CloudPacket
  send : List UInt8

/-- `updating` are the goroutines before `UpdateFromFMU` takes its lock, and
`sending` those that wait for the send loop. -/
structure Uplink where
  sessionId : UInt32
  received : ℕ
  updating : List CloudPacket
  sending : List CloudPacket
  msgs : GoMap UInt8 CloudPacket
  transmitted : List Transmission

/-- `order` is the order in which a tick goes through the map. -/
inductive UplinkEvent
  | session (id : UInt32)
  | receive (pkt : Packet)
  | update (i : ℕ)
  | deliver (i : ℕ)
  | tick (order : List CloudPacket)

namespace Uplink

def initial : Uplink where
  sessionId := 0
  received := 0
  updating := []
  sending := []
  msgs := ∅
  transmitted := []

/-- Both checks of the length pass, for a frame is longer. -/
def UpdateFromFMU (packet : CloudPacket) (s : Uplink) : Uplink :=
  let s := { s with msgs := s.msgs.insert packet.op packet }
  if Unthrottled packet.op then
    { s with sending := s.sending ++ [packet] }
  else s

def write (packet : CloudPacket) (s : Uplink) : Uplink :=
  { s with
    transmitted := s.transmitted ++
      [⟨packet, frame OP_MAVLINK_BIN s.sessionId packet.bytes⟩] }

/-- One entry of the map in a tick. -/
def syncOne (s : Uplink) (packet : CloudPacket) : Uplink :=
  let s := s.write packet
  { s with msgs := s.msgs.erase packet.op }

/-- The sync timer fires. -/
def sync (order : List CloudPacket) (s : Uplink) : Option Uplink :=
  if s.sessionId ≠ 0 then
    if (order : Multiset CloudPacket) = values s.msgs then
      some (order.foldl syncOne s)
    else none
  else some s

def step (s : Uplink) : UplinkEvent → Option Uplink
  | .session id => some { s with sessionId := id }
  | .receive pkt =>
      some
        { s with
          received := s.received + 1
          updating := s.updating ++
            [⟨s.received, unrollPacket pkt, length_unrollPacket pkt⟩] }
  | .update i =>
      match s.updating[i]? with
      | some packet =>
          some
            ({ s with updating := s.updating.eraseIdx i }.UpdateFromFMU
              packet)
      | none => none
  | .deliver i =>
      match s.sending[i]? with
      | some packet =>
          some ({ s with sending := s.sending.eraseIdx i }.write packet)
      | none => none
  | .tick order => s.sync order

/-! ## What the cloud should get -/

def sent (s : Uplink) : List CloudPacket := s.transmitted.map (·.packet)

def AtMostOnce (s : Uplink) : Prop :=
  (s.sent.map CloudPacket.number).Nodup

/-- Of two packets with the same id that only the ticks send, the first one
that is sent was received before the other. -/
def InOrder (s : Uplink) : Prop :=
  s.sent.Pairwise fun p q =>
    p.op = q.op → ¬ Unthrottled p.op → p.number < q.number

/-- A tick finds no packet that the send loop gets directly. -/
def TicksThrottled (s : Uplink) : UplinkEvent → Prop
  | .tick _ =>
      s.sessionId ≠ 0 → ∀ packet ∈ values s.msgs, ¬ Unthrottled packet.op
  | _ => True

instance (s : Uplink) : DecidablePred s.TicksThrottled
  | .tick _ => inferInstanceAs (Decidable (_ → ∀ packet ∈ values s.msgs, _))
  | .session _ | .receive _ | .update _ | .deliver _ =>
      inferInstanceAs (Decidable True)

/-- No goroutine stores a packet after a tick has sent a later one with its
id. -/
def UpdatesNewer (s : Uplink) : UplinkEvent → Prop
  | .update i =>
      ∀ packet, s.updating[i]? = some packet → ¬ Unthrottled packet.op →
        ∀ p ∈ s.sent, p.op = packet.op → p.number < packet.number
  | _ => True

instance (s : Uplink) : DecidablePred s.UpdatesNewer
  | .update i =>
      inferInstanceAs (Decidable (∀ packet ∈ s.updating[i]?, _ → _))
  | .session _ | .receive _ | .deliver _ | .tick _ =>
      inferInstanceAs (Decidable True)

variable {s next : Uplink} {order : List CloudPacket}

/-! ## Steps -/

def datagram (s : Uplink) (packet : CloudPacket) : Transmission :=
  ⟨packet, frame OP_MAVLINK_BIN s.sessionId packet.bytes⟩

/-- Every packet is stored under its own id. -/
def Keyed (s : Uplink) : Prop :=
  ∀ op packet, s.msgs.lookup op = some packet → packet.op = op

theorem foldl_syncOne (order : List CloudPacket) (s : Uplink) :
    order.foldl syncOne s =
      { s with
        transmitted := s.transmitted ++ order.map s.datagram
        msgs := order.foldl (fun msgs p => msgs.erase p.op) s.msgs } := by
  induction order generalizing s with
  | nil => simp
  | cons p order ih =>
      rw [List.foldl_cons, ih]
      simp [syncOne, write, datagram]

theorem lookup_eraseAll {msgs : GoMap UInt8 CloudPacket} {op : UInt8}
    {packet : CloudPacket}
    (hlookup : (order.foldl (fun msgs p => msgs.erase p.op) msgs).lookup op =
      some packet) :
    msgs.lookup op = some packet ∧ ∀ p ∈ order, p.op ≠ op := by
  induction order generalizing msgs with
  | nil => exact ⟨hlookup, fun p hp => absurd hp List.not_mem_nil⟩
  | cons first order ih =>
      obtain ⟨hkept, hothers⟩ := ih hlookup
      have hfirst : first.op ≠ op := by
        rintro rfl
        rw [Finmap.lookup_erase] at hkept
        cases hkept
      rw [Finmap.lookup_erase_ne (Ne.symm hfirst)] at hkept
      exact ⟨hkept, List.forall_mem_cons.mpr ⟨hfirst, hothers⟩⟩

theorem mem_order_iff (hkeyed : s.Keyed)
    (horder : (order : Multiset CloudPacket) = values s.msgs)
    {packet : CloudPacket} :
    packet ∈ order ↔ s.msgs.lookup packet.op = some packet := by
  rw [← Multiset.mem_coe, horder, mem_values]
  constructor
  · rintro ⟨op, hop⟩
    rwa [hkeyed op packet hop]
  · intro hop
    exact ⟨_, hop⟩

/-- A tick sends the packets of the map and leaves it empty. -/
theorem tick_eq (hkeyed : s.Keyed)
    (horder : (order : Multiset CloudPacket) = values s.msgs) :
    order.foldl syncOne s =
      { s with
        transmitted := s.transmitted ++ order.map s.datagram
        msgs := ∅ } := by
  rw [foldl_syncOne]
  congr 1
  apply Finmap.ext_lookup
  intro op
  rw [Finmap.lookup_empty]
  cases hlookup : (order.foldl (fun msgs p => msgs.erase p.op)
      s.msgs).lookup op with
  | none => rfl
  | some packet =>
      obtain ⟨hkept, hothers⟩ := lookup_eraseAll hlookup
      have hop := hkeyed op packet hkept
      subst hop
      exact absurd rfl (hothers packet ((mem_order_iff hkeyed horder).mpr hkept))

/-- A tick sends one packet for each id. -/
theorem order_ops (hkeyed : s.Keyed)
    (horder : (order : Multiset CloudPacket) = values s.msgs) :
    order.Pairwise fun p q => p.op ≠ q.op := by
  rw [← List.pairwise_map (R := (· ≠ ·)) (f := CloudPacket.op)]
  show (order.map CloudPacket.op).Nodup
  rw [← Multiset.coe_nodup, ← Multiset.map_coe, horder, values,
    Multiset.map_map]
  have hkeys : s.msgs.entries.map (CloudPacket.op ∘ Sigma.snd) =
      s.msgs.entries.keys := by
    apply Multiset.map_congr rfl
    rintro ⟨op, packet⟩ hentry
    exact hkeyed op packet (Finmap.lookup_eq_some_iff.mpr hentry)
  rw [hkeys]
  exact s.msgs.nodupKeys.nodup_keys

/-- The steps of the send loop and of the goroutines, by their number. -/
theorem update_cases {i : ℕ} (hstep : s.step (.update i) = some next) :
    ∃ packet, s.updating[i]? = some packet ∧
      next = { s with updating := s.updating.eraseIdx i }.UpdateFromFMU
        packet := by
  cases hpacket : s.updating[i]? with
  | none =>
      simp only [step, hpacket] at hstep
      cases hstep
  | some packet =>
      simp only [step, hpacket] at hstep
      exact ⟨packet, rfl, (Option.some.inj hstep).symm⟩

theorem deliver_cases {i : ℕ} (hstep : s.step (.deliver i) = some next) :
    ∃ packet, s.sending[i]? = some packet ∧
      next =
        { s with
          sending := s.sending.eraseIdx i
          transmitted := s.transmitted ++ [s.datagram packet] } := by
  cases hpacket : s.sending[i]? with
  | none =>
      simp only [step, hpacket] at hstep
      cases hstep
  | some packet =>
      simp only [step, hpacket] at hstep
      exact ⟨packet, rfl, (Option.some.inj hstep).symm⟩

theorem tick_cases (hkeyed : s.Keyed)
    (hstep : s.step (.tick order) = some next) :
    (s.sessionId = 0 ∧ next = s) ∨
      (s.sessionId ≠ 0 ∧
        (order : Multiset CloudPacket) = values s.msgs ∧
        next =
          { s with
            transmitted := s.transmitted ++ order.map s.datagram
            msgs := ∅ }) := by
  change s.sync order = some next at hstep
  unfold sync at hstep
  by_cases honline : s.sessionId ≠ 0
  · rw [if_pos honline] at hstep
    by_cases horder : (order : Multiset CloudPacket) = values s.msgs
    · rw [if_pos horder, tick_eq hkeyed horder] at hstep
      exact Or.inr ⟨honline, horder, (Option.some.inj hstep).symm⟩
    · rw [if_neg horder] at hstep
      cases hstep
  · rw [if_neg honline] at hstep
    exact Or.inl ⟨not_not.mp honline, (Option.some.inj hstep).symm⟩

theorem exists_order (s : Uplink) :
    ∃ order : List CloudPacket,
      (order : Multiset CloudPacket) = values s.msgs :=
  Quot.exists_rep _

theorem UpdateFromFMU_eq (packet : CloudPacket) (s : Uplink) :
    s.UpdateFromFMU packet =
      { s with
        msgs := s.msgs.insert packet.op packet
        sending := s.sending ++
          if Unthrottled packet.op then [packet] else [] } := by
  unfold UpdateFromFMU
  by_cases hdirect : Unthrottled packet.op
  · rw [if_pos hdirect, if_pos hdirect]
  · rw [if_neg hdirect, if_neg hdirect, List.append_nil]

theorem lookup_insert_cases {packet other : CloudPacket} {op : UInt8}
    (hlookup : (s.msgs.insert packet.op packet).lookup op = some other) :
    (op = packet.op ∧ other = packet) ∨
      s.msgs.lookup op = some other := by
  by_cases hop : op = packet.op
  · rw [hop, Finmap.lookup_insert] at hlookup
    exact Or.inl ⟨hop, (Option.some.inj hlookup).symm⟩
  · rw [Finmap.lookup_insert_of_ne _ hop] at hlookup
    exact Or.inr hlookup

theorem Keyed.insert {packet : CloudPacket} (hkeyed : s.Keyed) {op : UInt8}
    {other : CloudPacket}
    (hlookup : (s.msgs.insert packet.op packet).lookup op = some other) :
    other.op = op := by
  rcases lookup_insert_cases hlookup with ⟨rfl, rfl⟩ | hold
  · rfl
  · exact hkeyed op other hold

/-! ## The order of the throttled packets -/

/-- What is stored is newer than what was sent. -/
structure Newest (s : Uplink) : Prop where
  keyed : s.Keyed
  inOrder : s.InOrder
  direct : ∀ packet ∈ s.sending, Unthrottled packet.op
  newest : ∀ op packet, s.msgs.lookup op = some packet → ¬ Unthrottled op →
    ∀ p ∈ s.sent, p.op = op → p.number < packet.number

theorem keyed_empty {s : Uplink} (hempty : s.msgs = ∅) : s.Keyed := by
  intro op packet hlookup
  rw [hempty, Finmap.lookup_empty] at hlookup
  cases hlookup

theorem initial_newest : initial.Newest where
  keyed := keyed_empty rfl
  inOrder := List.Pairwise.nil
  direct _ hpacket := absurd hpacket List.not_mem_nil
  newest _ _ _ _ _ ht := absurd ht List.not_mem_nil

theorem sent_append (s : Uplink) (order : List CloudPacket) :
    (s.transmitted ++ order.map s.datagram).map (·.packet) =
      s.sent ++ order := by
  rw [List.map_append, List.map_map]
  exact congrArg (s.sent ++ ·) (List.map_id order)

theorem Newest.step {event : UplinkEvent} (hs : s.Newest)
    (hnewer : s.UpdatesNewer event) (hstep : s.step event = some next) :
    next.Newest := by
  cases event with
  | session id =>
      cases hstep
      exact ⟨hs.keyed, hs.inOrder, hs.direct, hs.newest⟩
  | receive pkt =>
      cases hstep
      exact ⟨hs.keyed, hs.inOrder, hs.direct, hs.newest⟩
  | update i =>
      obtain ⟨packet, hpacket, rfl⟩ := update_cases hstep
      rw [UpdateFromFMU_eq]
      refine ⟨fun op other hop => hs.keyed.insert hop, hs.inOrder, ?_, ?_⟩
      · intro other hother
        rcases List.mem_append.mp hother with hold | hlast
        · exact hs.direct other hold
        · split at hlast
          next hdirect => rwa [List.mem_singleton.mp hlast]
          next => cases hlast
      · intro op other hop hthrottled p hp hsame
        rcases lookup_insert_cases hop with ⟨rfl, rfl⟩ | hold
        · exact hnewer other hpacket hthrottled p hp hsame
        · exact hs.newest op other hold hthrottled p hp hsame
  | deliver i =>
      obtain ⟨packet, hpacket, rfl⟩ := deliver_cases hstep
      have hdirect := hs.direct packet (List.mem_of_getElem? hpacket)
      have hsent := s.sent_append [packet]
      refine ⟨hs.keyed, ?_, ?_, ?_⟩
      · rw [InOrder, sent, ← List.map_singleton, hsent]
        refine List.pairwise_append.mpr ⟨hs.inOrder,
          List.pairwise_singleton _ _, ?_⟩
        intro p _ q hq hsame hthrottled
        rw [hsame, List.mem_singleton.mp hq] at hthrottled
        exact absurd hdirect hthrottled
      · intro other hother
        exact hs.direct other (List.mem_of_mem_eraseIdx hother)
      · intro op other hop hthrottled p hp hsame
        rw [sent, ← List.map_singleton, hsent] at hp
        rcases List.mem_append.mp hp with hold | hlast
        · exact hs.newest op other hop hthrottled p hold hsame
        · rw [← hsame, List.mem_singleton.mp hlast] at hthrottled
          exact absurd hdirect hthrottled
  | tick order =>
      rcases tick_cases hs.keyed hstep with ⟨-, rfl⟩ | ⟨-, horder, rfl⟩
      · exact hs
      · refine ⟨keyed_empty rfl, ?_, hs.direct, ?_⟩
        · rw [InOrder, sent, sent_append]
          refine List.pairwise_append.mpr ⟨hs.inOrder, ?_, ?_⟩
          · exact (order_ops hs.keyed horder).imp
              fun hother hsame => absurd hsame hother
          · intro p hp packet hpacket hsame hthrottled
            have hstored := (mem_order_iff hs.keyed horder).mp hpacket
            exact hs.newest packet.op packet hstored
              (hsame ▸ hthrottled) p hp hsame
        · intro op packet hop
          rw [Finmap.lookup_empty] at hop
          cases hop

/-- The next tick with a session sends what is stored. -/
theorem reaches_sent (hkeyed : s.Keyed) {op : UInt8} {packet : CloudPacket}
    (hstored : s.msgs.lookup op = some packet) :
    Reaches step (fun u => ∃ order, packet ∈ order ∧ u.sent = s.sent ++ order)
      s := by
  obtain ⟨order, horder⟩ := s.exists_order
  have hop := hkeyed op packet hstored
  subst hop
  let online : Uplink := { s with sessionId := 1 }
  have hsession : online.sessionId ≠ 0 :=
    show (1 : UInt32) ≠ 0 by decide
  have htick : online.step (.tick order) =
      some (order.foldl syncOne online) := by
    change online.sync order = _
    rw [sync, if_pos hsession, if_pos horder]
  refine .after (.session 1) rfl (.after (.tick order) htick (.now ?_))
  refine ⟨order, (mem_order_iff hkeyed horder).mpr hstored, ?_⟩
  rw [tick_eq (s := online) hkeyed horder]
  exact online.sent_append order

/-- A packet that is stored too late is sent after a later one. -/
theorem reaches_not_inOrder {event : UplinkEvent} (hs : s.Newest)
    (hnewer : ¬ s.UpdatesNewer event) (hstep : s.step event = some next) :
    Reaches step (fun u => ¬ u.InOrder) next := by
  cases event with
  | update i =>
      obtain ⟨packet, hpacket, hnext⟩ := update_cases hstep
      rw [UpdateFromFMU_eq] at hnext
      simp only [UpdatesNewer, not_forall] at hnewer
      obtain ⟨late, hlate, hthrottled, p, hp, hsame, hless⟩ := hnewer
      rw [hpacket] at hlate
      cases hlate
      have hkeyed : next.Keyed := by
        rw [hnext]
        exact fun op other hop => hs.keyed.insert hop
      have hstored : next.msgs.lookup packet.op = some packet := by
        rw [hnext]
        exact Finmap.lookup_insert _
      obtain ⟨events, u, hrun, order, horder, hsent⟩ :=
        reaches_sent hkeyed hstored
      refine ⟨events, u, hrun, fun hu => hless ?_⟩
      have hsplit : u.sent = s.sent ++ order := by
        rw [hsent, hnext]
        rfl
      rw [InOrder, hsplit, List.pairwise_append] at hu
      exact hu.2.2 p hp packet horder hsame (hsame ▸ hthrottled)
  | session id => exact absurd trivial hnewer
  | receive pkt => exact absurd trivial hnewer
  | deliver i => exact absurd trivial hnewer
  | tick order => exact absurd trivial hnewer

/-- While no goroutine comes too late, the throttled packets of an id are
sent in order; and the first one that does leads to a state where they are
not. -/
theorem inOrder_while_newer {events : List UplinkEvent}
    (hrun : GuardedRun step UpdatesNewer initial events s) :
    s.InOrder ∧
      ∀ event next, s.step event = some next → ¬ s.UpdatesNewer event →
        Reaches step (fun u => ¬ u.InOrder) next := by
  apply hrun.until_unguarded _ _ _ initial_newest
  · intro state event next hs hnewer hstep
    exact hs.step hnewer hstep
  · intro state hs
    exact hs.inOrder
  · intro state event next hs hnewer hstep
    exact reaches_not_inOrder hs hnewer hstep

/-- The frame of an empty packet, the `number`-th that was received. -/
def emptyPacket (number : ℕ) (MsgID : UInt8) : CloudPacket :=
  ⟨number, unrollPacket ⟨0, 1, 1, MsgID, [], 0⟩, length_unrollPacket _⟩

def receiveEmpty (MsgID : UInt8) : UplinkEvent :=
  .receive ⟨0, 1, 1, MsgID, [], 0⟩

/-- The second packet is stored after the first one was sent. -/
theorem inOrder_while_newer_second :
    ∃ s, GuardedRun step UpdatesNewer initial
        [.session 7, receiveEmpty MSG_ID_ATTITUDE,
          receiveEmpty MSG_ID_ATTITUDE, .update 0,
          .tick [emptyPacket 0 MSG_ID_ATTITUDE], .update 0] s ∧
      s.InOrder := by
  have hexec : (exec step UpdatesNewer initial
      [.session 7, receiveEmpty MSG_ID_ATTITUDE, receiveEmpty MSG_ID_ATTITUDE,
        .update 0, .tick [emptyPacket 0 MSG_ID_ATTITUDE],
          .update 0]).isSome := by
    decide
  obtain ⟨s, hrun⟩ := GuardedRun.of_exec_isSome hexec
  exact ⟨s, hrun, (inOrder_while_newer hrun).1⟩

/-- The goroutine of the second packet comes first, and a tick before the
other one. -/
theorem older_after_newer :
    ¬ ∀ events s, Run step initial events s → s.InOrder := by
  intro hall
  have hexec : (exec step (fun _ _ => True) initial
      [.session 7, receiveEmpty MSG_ID_ATTITUDE, receiveEmpty MSG_ID_ATTITUDE,
        .update 1, .tick [emptyPacket 1 MSG_ID_ATTITUDE], .update 0,
        .tick [emptyPacket 0 MSG_ID_ATTITUDE]]).map sent =
          some [emptyPacket 1 MSG_ID_ATTITUDE,
            emptyPacket 0 MSG_ID_ATTITUDE] := by
    decide
  obtain ⟨s, hrun, hsent⟩ := GuardedRun.of_exec_map hexec
  have hordered := hall _ s hrun
  rw [InOrder, hsent] at hordered
  exact absurd hordered (by decide)

/-! ## Packets that are sent twice -/

/-- The numbers of the packets that are on their way or arrived, apart from
the map. -/
def ways (s : Uplink) : List ℕ :=
  (s.updating ++ (s.sending ++ s.sent)).map CloudPacket.number

/-- A number is in one place at a time, and in the map as well only if the
packet goes the direct way. -/
structure Counted (s : Uplink) : Prop where
  keyed : s.Keyed
  nodup : s.ways.Nodup
  received : ∀ n ∈ s.ways, n < s.received
  stored_received : ∀ op packet, s.msgs.lookup op = some packet →
    packet.number < s.received
  updated : ∀ op packet, s.msgs.lookup op = some packet →
    packet.number ∉ s.updating.map CloudPacket.number
  stored_iff : ∀ op packet, s.msgs.lookup op = some packet →
    (packet.number ∈ s.ways ↔ Unthrottled op)
  distinct : ∀ a b p q, s.msgs.lookup a = some p →
    s.msgs.lookup b = some q → p.number = q.number → a = b

theorem initial_counted : initial.Counted where
  keyed := keyed_empty rfl
  nodup := List.nodup_nil
  received _ hn := absurd hn List.not_mem_nil
  stored_received _ _ hlookup := by
    rw [initial, Finmap.lookup_empty] at hlookup
    cases hlookup
  updated _ _ hlookup := by
    rw [initial, Finmap.lookup_empty] at hlookup
    cases hlookup
  stored_iff _ _ hlookup := by
    rw [initial, Finmap.lookup_empty] at hlookup
    cases hlookup
  distinct _ _ _ _ hlookup := by
    rw [initial, Finmap.lookup_empty] at hlookup
    cases hlookup

theorem AtMostOnce.of_ways (hnodup : s.ways.Nodup) : s.AtMostOnce := by
  rw [ways, List.map_append, List.map_append] at hnodup
  exact (List.nodup_append.mp (List.nodup_append.mp hnodup).2.1).2.1

theorem getElem?_cons_eraseIdx_perm {l : List CloudPacket} {i : ℕ}
    {packet : CloudPacket} (hpacket : l[i]? = some packet) :
    (packet :: l.eraseIdx i).Perm l := by
  obtain ⟨hbound, hget⟩ := List.getElem?_eq_some_iff.mp hpacket
  exact hget ▸ List.getElem_cons_eraseIdx_perm hbound

theorem Counted.receive (hs : s.Counted) {packet : CloudPacket}
    (hnumber : packet.number = s.received) :
    Counted
      { s with
        received := s.received + 1
        updating := s.updating ++ [packet] } := by
  have hways : ∀ n, n ∈ ways
      { s with
        received := s.received + 1
        updating := s.updating ++ [packet] } ↔
      n ∈ s.ways ∨ n = s.received := by
    intro n
    simp only [ways, sent, List.map_append, List.map_cons, List.map_nil,
      List.mem_append, List.mem_singleton, hnumber]
    tauto
  have hperm : List.Perm
      (ways
        { s with
          received := s.received + 1
          updating := s.updating ++ [packet] })
      (s.received :: s.ways) := by
    have hsplit : (s.updating ++ (s.sending ++ s.sent)).map
        CloudPacket.number =
          s.updating.map CloudPacket.number ++
            (s.sending ++ s.sent).map CloudPacket.number := List.map_append
    rw [ways, ways, List.append_assoc, List.map_append, List.singleton_append,
      List.map_cons, hnumber, hsplit]
    exact List.perm_middle
  constructor
  · exact hs.keyed
  · rw [hperm.nodup_iff, List.nodup_cons]
    exact ⟨fun hin => lt_irrefl _ (hs.received _ hin), hs.nodup⟩
  · intro n hn
    rcases (hways n).mp hn with hold | rfl
    · exact Nat.lt_succ_of_lt (hs.received n hold)
    · exact Nat.lt_succ_self _
  · intro op stored hop
    exact Nat.lt_succ_of_lt (hs.stored_received op stored hop)
  · intro op stored hop
    rw [List.map_append, List.mem_append, not_or]
    refine ⟨hs.updated op stored hop, ?_⟩
    rw [List.map_singleton, List.mem_singleton, hnumber]
    exact (hs.stored_received op stored hop).ne
  · intro op stored hop
    rw [hways, ← hs.stored_iff op stored hop, or_iff_left]
    exact (hs.stored_received op stored hop).ne
  · exact hs.distinct

/-- The goroutine's packet goes to the map, and to the send loop if its id
is one of the five. -/
theorem Counted.update {i : ℕ} {packet : CloudPacket} (hs : s.Counted)
    (hpacket : s.updating[i]? = some packet) :
    Counted
      ({ s with updating := s.updating.eraseIdx i }.UpdateFromFMU
        packet) := by
  set rest := (s.updating.eraseIdx i ++ (s.sending ++ s.sent)).map
    CloudPacket.number with hrest
  have hbefore : s.ways.Perm (packet.number :: rest) := by
    rw [ways, hrest, ← List.map_cons, ← List.cons_append]
    exact (((getElem?_cons_eraseIdx_perm hpacket).append_right _).map
      _).symm
  have hnodup := hbefore.nodup_iff.mp hs.nodup
  rw [List.nodup_cons] at hnodup
  have hnumber : packet.number ∈ s.ways :=
    hbefore.mem_iff.mpr List.mem_cons_self
  have hupdating : packet.number ∈ s.updating.map CloudPacket.number :=
    List.mem_map_of_mem (List.mem_of_getElem? hpacket)
  rw [UpdateFromFMU_eq]
  set next : Uplink :=
    { s with
      updating := s.updating.eraseIdx i
      msgs := s.msgs.insert packet.op packet
      sending := s.sending ++
        if Unthrottled packet.op then [packet] else [] } with hnext
  have hafter : next.ways.Perm
      ((if Unthrottled packet.op then [packet.number] else []) ++ rest) := by
    by_cases hdirect : Unthrottled packet.op
    · have hways : next.ways = (s.updating.eraseIdx i ++
          (s.sending ++ packet :: s.sent)).map CloudPacket.number := by
        simp [ways, hnext, sent, hdirect]
      rw [hways, if_pos hdirect, hrest, List.singleton_append,
        ← List.map_cons]
      apply List.Perm.map
      rw [← List.append_assoc, ← List.append_assoc]
      exact List.perm_middle
    · have hways : next.ways = rest := by
        simp [ways, hnext, sent, hdirect, hrest]
      rw [hways, if_neg hdirect, List.nil_append]
  have hmem : ∀ n, n ∈ next.ways ↔
      (Unthrottled packet.op ∧ n = packet.number) ∨ n ∈ rest := by
    intro n
    rw [hafter.mem_iff, List.mem_append]
    by_cases hdirect : Unthrottled packet.op <;> simp [hdirect]
  have hsub : ∀ n ∈ next.ways, n ∈ s.ways := by
    intro n hn
    rw [hbefore.mem_iff, List.mem_cons]
    rcases (hmem n).mp hn with ⟨-, rfl⟩ | hin
    · exact Or.inl rfl
    · exact Or.inr hin
  -- What was stored before is not what comes now.
  have hother : ∀ op other, s.msgs.lookup op = some other →
      other.number ≠ packet.number := by
    intro op other hop heq
    exact hs.updated op other hop (heq ▸ hupdating)
  constructor
  · exact fun op other hop => hs.keyed.insert hop
  · rw [hafter.nodup_iff]
    by_cases hdirect : Unthrottled packet.op
    · rw [if_pos hdirect]
      exact List.nodup_cons.mpr hnodup
    · rw [if_neg hdirect]
      exact hnodup.2
  · intro n hn
    exact hs.received n (hsub n hn)
  · intro op other hop
    rcases lookup_insert_cases hop with ⟨rfl, rfl⟩ | hold
    · exact hs.received _ hnumber
    · exact hs.stored_received op other hold
  · intro op other hop hin
    rcases lookup_insert_cases hop with ⟨rfl, rfl⟩ | hold
    · apply hnodup.1
      rw [hrest, List.map_append]
      exact List.mem_append_left _ hin
    · refine hs.updated op other hold ?_
      obtain ⟨p, hp, heq⟩ := List.mem_map.mp hin
      exact List.mem_map.mpr ⟨p, List.mem_of_mem_eraseIdx hp, heq⟩
  · intro op other hop
    rcases lookup_insert_cases hop with ⟨rfl, rfl⟩ | hold
    · rw [hmem, or_iff_left hnodup.1]
      exact and_iff_left rfl
    · rw [← hs.stored_iff op other hold, hmem, hbefore.mem_iff,
        List.mem_cons, or_iff_right (fun h => hother op other hold h.2),
        or_iff_right (hother op other hold)]
  · intro a b p q ha hb heq
    rcases lookup_insert_cases ha with ⟨rfl, rfl⟩ | holda
    · rcases lookup_insert_cases hb with ⟨rfl, -⟩ | holdb
      · rfl
      · exact absurd heq.symm (hother b q holdb)
    · rcases lookup_insert_cases hb with ⟨rfl, rfl⟩ | holdb
      · exact absurd heq (hother a p holda)
      · exact hs.distinct a b p q holda holdb heq

theorem Counted.deliver {i : ℕ} {packet : CloudPacket} (hs : s.Counted)
    (hpacket : s.sending[i]? = some packet) :
    Counted
      { s with
        sending := s.sending.eraseIdx i
        transmitted := s.transmitted ++ [s.datagram packet] } := by
  have hways : List.Perm
      (ways
        { s with
          sending := s.sending.eraseIdx i
          transmitted := s.transmitted ++ [s.datagram packet] }) s.ways := by
    have hsent := s.sent_append [packet]
    rw [ways, ways, sent, ← List.map_singleton, hsent]
    apply List.Perm.map
    apply List.Perm.append_left
    rw [← List.append_assoc]
    refine (List.perm_append_singleton packet _).trans ?_
    rw [← List.cons_append]
    exact (getElem?_cons_eraseIdx_perm hpacket).append_right _
  constructor
  · exact hs.keyed
  · exact hways.nodup_iff.mpr hs.nodup
  · intro n hn
    exact hs.received n (hways.mem_iff.mp hn)
  · exact hs.stored_received
  · exact hs.updated
  · intro op other hop
    rw [hways.mem_iff]
    exact hs.stored_iff op other hop
  · exact hs.distinct

theorem Counted.order_numbers (hs : s.Counted)
    (horder : (order : Multiset CloudPacket) = values s.msgs) :
    (order.map CloudPacket.number).Nodup := by
  rw [List.Nodup, List.pairwise_map]
  refine (order_ops hs.keyed horder).imp_of_mem ?_
  intro p q hp hq hops heq
  exact hops (hs.distinct _ _ p q ((mem_order_iff hs.keyed horder).mp hp)
    ((mem_order_iff hs.keyed horder).mp hq) heq)

theorem Counted.tick (hs : s.Counted)
    (horder : (order : Multiset CloudPacket) = values s.msgs)
    (hthrottled : ∀ packet ∈ values s.msgs, ¬ Unthrottled packet.op) :
    Counted
      { s with
        transmitted := s.transmitted ++ order.map s.datagram
        msgs := ∅ } := by
  have hways : ways
      { s with
        transmitted := s.transmitted ++ order.map s.datagram
        msgs := ∅ } = s.ways ++ order.map CloudPacket.number := by
    rw [ways, ways, sent, sent_append, ← List.append_assoc,
      ← List.append_assoc, List.map_append, List.append_assoc]
  have hstored : ∀ p ∈ order, s.msgs.lookup p.op = some p :=
    fun p hp => (mem_order_iff hs.keyed horder).mp hp
  constructor
  · exact keyed_empty rfl
  · rw [hways]
    refine List.nodup_append.mpr
      ⟨hs.nodup, hs.order_numbers horder, fun n hn m hm => ?_⟩
    rintro rfl
    obtain ⟨p, hp, rfl⟩ := List.mem_map.mp hm
    exact hthrottled p (mem_values.mpr ⟨p.op, hstored p hp⟩)
      ((hs.stored_iff p.op p (hstored p hp)).mp hn)
  · intro n hn
    rw [hways, List.mem_append] at hn
    rcases hn with hold | hlast
    · exact hs.received n hold
    · obtain ⟨p, hp, rfl⟩ := List.mem_map.mp hlast
      exact hs.stored_received p.op p (hstored p hp)
  · exact fun _ _ hop => absurd hop.symm (Option.some_ne_none _)
  · exact fun _ _ hop => absurd hop.symm (Option.some_ne_none _)
  · exact fun _ _ hop => absurd hop.symm (Option.some_ne_none _)
  · exact fun _ _ _ _ hop => absurd hop.symm (Option.some_ne_none _)

theorem Counted.step {event : UplinkEvent} (hs : s.Counted)
    (hthrottled : s.TicksThrottled event)
    (hstep : s.step event = some next) : next.Counted := by
  cases event with
  | session id =>
      cases hstep
      exact ⟨hs.keyed, hs.nodup, hs.received, hs.stored_received, hs.updated,
        hs.stored_iff, hs.distinct⟩
  | receive pkt =>
      cases hstep
      exact hs.receive rfl
  | update i =>
      obtain ⟨packet, hpacket, rfl⟩ := update_cases hstep
      exact hs.update hpacket
  | deliver i =>
      obtain ⟨packet, hpacket, rfl⟩ := deliver_cases hstep
      exact hs.deliver hpacket
  | tick order =>
      rcases tick_cases hs.keyed hstep with ⟨-, rfl⟩ |
        ⟨honline, horder, rfl⟩
      · exact hs
      · exact hs.tick horder (hthrottled honline)

/-- The tick sends a packet that the send loop has sent, or will send. -/
theorem reaches_twice {event : UplinkEvent} (hs : s.Counted)
    (hthrottled : ¬ s.TicksThrottled event)
    (hstep : s.step event = some next) :
    Reaches step (fun u => ¬ u.AtMostOnce) next := by
  cases event with
  | tick order =>
      simp only [TicksThrottled, not_forall, not_not] at hthrottled
      obtain ⟨honline, packet, hmem, hdirect⟩ := hthrottled
      obtain ⟨op, hop⟩ := mem_values.mp hmem
      rcases tick_cases hs.keyed hstep with ⟨hoffline, -⟩ |
        ⟨-, horder, rfl⟩
      · exact absurd hoffline honline
      have hsame := hs.keyed op packet hop
      subst hsame
      have hpacket : packet ∈ order :=
        (mem_order_iff hs.keyed horder).mpr hop
      have hnumber : packet.number ∈ order.map CloudPacket.number :=
        List.mem_map_of_mem hpacket
      have hway := (hs.stored_iff _ packet hop).mpr hdirect
      rw [ways, List.map_append, List.map_append, List.mem_append,
        List.mem_append, or_iff_right (hs.updated _ packet hop)] at hway
      rcases hway with hsending | hsent
      · obtain ⟨p, hp, heq⟩ := List.mem_map.mp hsending
        obtain ⟨i, hi⟩ := List.mem_iff_getElem?.mp hp
        have hdeliver : Uplink.step
            { s with
              transmitted := s.transmitted ++ order.map s.datagram
              msgs := ∅ } (.deliver i) =
            some
              { s with
                sending := s.sending.eraseIdx i
                transmitted := (s.transmitted ++ order.map s.datagram) ++
                  [s.datagram p]
                msgs := ∅ } := by
          simp only [Uplink.step, hi]
          rfl
        refine .after (.deliver i) hdeliver (.now ?_)
        rw [AtMostOnce, sent, List.append_assoc, ← List.map_singleton,
          ← List.map_append, sent_append, List.map_append, List.map_append,
          List.nodup_append, List.nodup_append]
        rintro ⟨-, ⟨-, -, hdisjoint⟩, -⟩
        exact hdisjoint _ hnumber p.number (List.mem_singleton_self _)
          heq.symm
      · refine .now fun honce => ?_
        rw [AtMostOnce, sent, sent_append, List.map_append,
          List.nodup_append] at honce
        exact honce.2.2 _ hsent _ hnumber rfl
  | session id => exact absurd trivial hthrottled
  | receive pkt => exact absurd trivial hthrottled
  | update i => exact absurd trivial hthrottled
  | deliver i => exact absurd trivial hthrottled

/-- While no tick finds a packet that goes the direct way, every packet is
sent at most once; and the first tick that does leads to a state where one is
sent twice. -/
theorem atMostOnce_while_throttled {events : List UplinkEvent}
    (hrun : GuardedRun step TicksThrottled initial events s) :
    s.AtMostOnce ∧
      ∀ event next, s.step event = some next → ¬ s.TicksThrottled event →
        Reaches step (fun u => ¬ u.AtMostOnce) next := by
  apply hrun.until_unguarded _ _ _ initial_counted
  · intro state event next hs hthrottled hstep
    exact hs.step hthrottled hstep
  · intro state hs
    exact .of_ways hs.nodup
  · intro state event next hs hthrottled hstep
    exact reaches_twice hs hthrottled hstep

/-- A parameter goes the direct way while there is no session. -/
theorem atMostOnce_while_throttled_offline :
    ∃ s, GuardedRun step TicksThrottled initial
        [receiveEmpty MSG_ID_PARAM_VALUE, .update 0, .tick [], .deliver 0] s ∧
      s.AtMostOnce := by
  have hexec : (exec step TicksThrottled initial
      [receiveEmpty MSG_ID_PARAM_VALUE, .update 0, .tick [],
        .deliver 0]).isSome := by
    decide
  obtain ⟨s, hrun⟩ := GuardedRun.of_exec_isSome hexec
  exact ⟨s, hrun, (atMostOnce_while_throttled hrun).1⟩

/-- The only answer to a request for a parameter is sent twice. -/
theorem direct_packet_twice :
    ¬ ∀ events s, Run step initial events s → s.AtMostOnce := by
  intro hall
  have hexec : (exec step (fun _ _ => True) initial
      [.session 7, receiveEmpty MSG_ID_PARAM_VALUE, .update 0, .deliver 0,
        .tick [emptyPacket 0 MSG_ID_PARAM_VALUE]]).map sent =
          some [emptyPacket 0 MSG_ID_PARAM_VALUE,
            emptyPacket 0 MSG_ID_PARAM_VALUE] := by
    decide
  obtain ⟨s, hrun, hsent⟩ := GuardedRun.of_exec_map hexec
  have honce := hall _ s hrun
  rw [AtMostOnce, hsent] at honce
  exact absurd honce (by decide)

end Uplink

end DronesmithEngine.Cloudlink
