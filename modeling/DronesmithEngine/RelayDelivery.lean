import DronesmithEngine.RelayRuns
import Mathlib.Tactic

/-!
# What the links and the vehicle receive

Every link is written exactly the frames that were sent out while it was
there, in order.  The vehicle goes through frames of the stream in their
order, and through all of them where the pipe is never found full.
-/

namespace DronesmithEngine.Fmulink

open Go LabelledRuns BroadcastRounds Mavlink Api

/-! ## The links of the output manager -/

namespace OutputRun

/-- The connection of every link is open, and no two links share one. -/
structure LinksOpen (s : OutputRun) : Prop where
  opened : ∀ addr item, s.manager.links.lookup addr = some item →
    (addr, item.Conn) ∈ s.opened
  made : ∀ addr item, s.manager.links.lookup addr = some item →
    item.Conn < s.manager.made
  distinct : ∀ addr other item item',
    s.manager.links.lookup addr = some item →
      s.manager.links.lookup other = some item' →
        item.Conn = item'.Conn → addr = other

variable {s next : OutputRun}

theorem initial_linksOpen : initial.LinksOpen where
  opened _ _ hitem := by
    rw [initial, Finmap.lookup_empty] at hitem
    cases hitem
  made _ _ hitem := by
    rw [initial, Finmap.lookup_empty] at hitem
    cases hitem
  distinct _ _ _ _ hitem := by
    rw [initial, Finmap.lookup_empty] at hitem
    cases hitem

theorem lookup_insert_link_cases {addr other : List UInt8}
    {item new : outputLink}
    (hitem : (s.manager.links.insert addr new).lookup other = some item) :
    (other = addr ∧ item = new) ∨
      (other ≠ addr ∧ s.manager.links.lookup other = some item) := by
  by_cases hother : other = addr
  · subst hother
    rw [Finmap.lookup_insert, Option.some.injEq] at hitem
    exact Or.inl ⟨rfl, hitem.symm⟩
  · rw [Finmap.lookup_insert_of_ne _ hother] at hitem
    exact Or.inr ⟨hother, hitem⟩

theorem LinksOpen.add (hs : s.LinksOpen) (addr : List UInt8) :
    (s.add addr none).LinksOpen where
  opened other item hitem := by
    rcases lookup_insert_link_cases hitem with ⟨rfl, rfl⟩ | ⟨-, hold⟩
    · exact List.mem_append_right _ (List.mem_singleton.mpr rfl)
    · exact List.mem_append_left _ (hs.opened other item hold)
  made other item hitem := by
    rcases lookup_insert_link_cases hitem with ⟨rfl, rfl⟩ | ⟨-, hold⟩
    · exact Nat.lt_succ_self _
    · exact Nat.lt_succ_of_lt (hs.made other item hold)
  distinct addr' other item item' hitem hitem' hsame := by
    -- The connection just made has a number that no link had.
    rcases lookup_insert_link_cases hitem with ⟨rfl, rfl⟩ | ⟨-, hold⟩
    · rcases lookup_insert_link_cases hitem' with ⟨rfl, rfl⟩ | ⟨-, hold'⟩
      · rfl
      · exact absurd hsame.symm (hs.made other item' hold').ne
    · rcases lookup_insert_link_cases hitem' with ⟨rfl, rfl⟩ | ⟨-, hold'⟩
      · exact absurd hsame (hs.made addr' item hold).ne
      · exact hs.distinct addr' other item item' hold hold' hsame

theorem lookup_erase_link {addr other : List UInt8} {item : outputLink}
    (hitem : (s.manager.links.erase addr).lookup other = some item) :
    other ≠ addr ∧ s.manager.links.lookup other = some item := by
  by_cases hother : other = addr
  · subst hother
    rw [Finmap.lookup_erase] at hitem
    cases hitem
  · rw [Finmap.lookup_erase_ne hother] at hitem
    exact ⟨hother, hitem⟩

theorem LinksOpen.step {event : OutputEvent} (hs : s.LinksOpen)
    (hstep : s.step event = some next) : next.LinksOpen := by
  replace hstep := act_of_step hstep
  cases event with
  | add addr dialErr =>
      cases Option.some.inj hstep
      cases dialErr with
      | none => exact hs.add addr
      | some err => exact ⟨hs.opened, hs.made, hs.distinct⟩
  | remove addr taker =>
      rcases remove_cases hstep with ⟨-, rfl⟩ |
        ⟨item, g, hitem, -, -, rfl⟩
      · exact hs
      · constructor
        · intro other own hown
          obtain ⟨hother, hown⟩ := lookup_erase_link hown
          refine List.mem_filter.mpr ⟨hs.opened other own hown, ?_⟩
          simp only [ne_eq, decide_not, Bool.not_eq_true',
            decide_eq_false_iff_not]
          exact fun hsame =>
            hother (hs.distinct other addr own item hown hitem hsame)
        · intro other own hown
          exact hs.made other own (lookup_erase_link hown).2
        · intro first other own own' hown hown' hsame
          exact hs.distinct first other own own' (lookup_erase_link hown).2
            (lookup_erase_link hown').2 hsame
  | iterate i =>
      obtain ⟨g, -, ⟨-, rfl⟩ | ⟨item, -, rfl⟩⟩ := iterate_cases hstep
      · exact ⟨hs.opened, hs.made, hs.distinct⟩
      · exact ⟨hs.opened, hs.made, hs.distinct⟩

theorem mem_linked {conn : ℕ} :
    conn ∈ s.linked ↔
      ∃ addr item, s.manager.links.lookup addr = some item ∧
        item.Conn = conn := by
  simp only [linked, Multiset.mem_map, mem_values]
  constructor
  · rintro ⟨item, ⟨addr, hitem⟩, hconn⟩
    exact ⟨addr, item, hitem, hconn⟩
  · rintro ⟨addr, item, hitem, hconn⟩
    exact ⟨item, ⟨addr, hitem⟩, hconn⟩

theorem LinksOpen.nodup_linked (hs : s.LinksOpen) : s.linked.Nodup := by
  have hentries : s.manager.links.entries.Nodup :=
    Multiset.Nodup.of_map Sigma.fst s.manager.links.nodupKeys.nodup_keys
  unfold linked values
  rw [Multiset.map_map]
  refine Multiset.Nodup.map_on ?_ hentries
  rintro ⟨addr, item⟩ hitem ⟨other, item'⟩ hitem' hsame
  have hlookup := Finmap.lookup_eq_some_iff.mpr hitem
  have hlookup' := Finmap.lookup_eq_some_iff.mpr hitem'
  obtain rfl := hs.distinct addr other item item' hlookup hlookup' hsame
  rw [hlookup] at hlookup'
  cases hlookup'
  rfl

end OutputRun

/-! ## The frames that were decoded -/

/-- The packet of a call of `Decode` that returned no error. -/
def DecodeCall.packet (call : DecodeCall) : Option Packet :=
  match call.result with
  | (some p, none) => some p
  | _ => none

theorem DecodeCalls_concat {n : ℕ} {dec middle last : Decoder}
    {calls : List DecodeCall} {result : Option Packet × Option Error}
    (hcalls : dec.DecodeCalls n = .ok (calls, middle))
    (hdecode : middle.Decode = .ok (result, last)) :
    ∃ consumed, dec.DecodeCalls (n + 1) =
      .ok (calls ++ [⟨result, consumed⟩], last) := by
  induction n generalizing dec calls with
  | zero =>
      cases hcalls
      exact ⟨_, by rw [Decoder.DecodeCalls, hdecode]; rfl⟩
  | succ n ih =>
      rw [Decoder.DecodeCalls] at hcalls
      cases hfirst : dec.Decode with
      | error e =>
          rw [hfirst] at hcalls
          cases hcalls
      | ok first =>
          rw [hfirst, ok_bind] at hcalls
          cases hlater : first.2.DecodeCalls n with
          | error e =>
              simp only [hlater] at hcalls
              cases hcalls
          | ok later =>
              simp only [hlater, ok_bind, pure_eq_ok, Except.ok.injEq,
                Prod.mk.injEq] at hcalls
              obtain ⟨rfl, hmiddle⟩ := hcalls
              obtain ⟨consumed, hall⟩ := ih (hlater.trans
                (congrArg (fun last => Except.ok (later.1, last)) hmiddle))
              refine ⟨consumed, ?_⟩
              rw [Decoder.DecodeCalls, hfirst, ok_bind]
              simp only [hall, ok_bind, pure_eq_ok, List.cons_append]

/-- The second decoder reads from the frame the packet it was made of. -/
def Agreed (p : Packet) : Prop :=
  DecodeBytes (unrollPacket p) = .ok (some p, none)

/-- The packets decoded are those of some number of calls on the stream. -/
structure Decoded (r : List UInt8) (dec : Decoder) (packets : List Packet) :
    Prop where
  calls : ∃ n calls, (NewDecoder r).DecodeCalls n = .ok (calls, dec) ∧
    packets = calls.filterMap DecodeCall.packet
  dialects : dec.Dialects = [DialectCommon]
  agreed : ∀ p ∈ packets, Agreed p

theorem decoded_initial (r : List UInt8) : Decoded r (NewDecoder r) [] where
  calls := ⟨0, [], rfl, rfl⟩
  dialects := rfl
  agreed := List.forall_mem_nil _

theorem Decoded.decode {r : List UInt8} {dec dec' : Decoder}
    {packets : List Packet} {result : Option Packet × Option Error}
    (hdec : Decoded r dec packets)
    (hdecode : dec.Decode = .ok (result, dec')) :
    Decoded r dec' (packets ++ (DecodeCall.packet ⟨result, []⟩).toList) := by
  obtain ⟨n, calls, hcalls, hpackets⟩ := hdec.calls
  obtain ⟨consumed, hall⟩ := DecodeCalls_concat hcalls hdecode
  obtain ⟨result', consumed', dec'', hdecode', -, hdialects, hfaithful⟩ :=
    Decode_faithful dec hdec.dialects
  rw [hdecode] at hdecode'
  cases hdecode'
  refine ⟨⟨n + 1, _, hall, ?_⟩, hdialects, ?_⟩
  · rw [hpackets, List.filterMap_append]
    rfl
  · refine List.forall_mem_append.mpr ⟨hdec.agreed, fun p hp => ?_⟩
    unfold DecodeCall.packet at hp
    split at hp
    next heq =>
      rw [Option.toList_some, List.mem_singleton] at hp
      rw [hp]
      exact hfaithful.agreed _ heq
    next => cases hp

/-! ## What the links are written -/

def Serving.unsent : Serving → List (List UInt8)
  | .sending bin => [bin]
  | _ => []

def Serving.unpiped : Serving → List (List UInt8)
  | .reading => []
  | .sending bin => [bin]
  | .piping bin => [bin]

def Listening.waiting : Listening → List (List UInt8)
  | .received pkt => [pkt]
  | _ => []

/-- The round that `listen` is in. -/
def Listening.round : Listening → Option (Round (List UInt8) ℕ)
  | .writing pkt left => some ⟨pkt, left⟩
  | _ => none

namespace FrameRelay

/-- The output manager as a broadcaster, which skips no link. -/
def broadcaster (s : FrameRelay) : Broadcaster (List UInt8) ℕ where
  rounds := s.rounds
  underway := s.listening.round
  visits := s.written.map fun call => ⟨call.1, call.2, true⟩

def writtenTo (s : FrameRelay) (conn : ℕ) : List (List UInt8) :=
  (s.written.filter fun call => call.1 = conn).map Prod.snd

theorem visitsOf_broadcaster (s : FrameRelay) (conn : ℕ) :
    (s.broadcaster.visitsOf conn).map Visit.message = s.writtenTo conn := by
  simp only [Broadcaster.visitsOf, broadcaster, writtenTo, List.filter_map,
    List.map_map]
  rfl

structure Delivers (s : FrameRelay) : Prop where
  frames : s.rounds.map Round.message ++ s.listening.waiting ++
    s.serving.unsent = s.decoded.map unrollPacket
  accounted : s.broadcaster.Accounted
  opened : ∀ round ∈ s.listening.round, ∀ conn ∈ round.subscribers,
    conn ∈ s.outputs.opened.map Prod.snd

theorem initial_delivers (r : List UInt8) (writer : Encoder)
    (start : Time) : (initial r writer start).Delivers where
  frames := rfl
  accounted := Broadcaster.accounted_new
  opened _ hround := by cases hround

variable {s next : FrameRelay} {event : FrameEvent}

/-- The round that begins is for the links there are. -/
theorem Delivers.lock (hs : s.Delivers) (hlinks : s.outputs.LinksOpen)
    {pkt : List UInt8} {order : List ℕ}
    (hlistening : s.listening = .received pkt)
    (horder : (order : Multiset ℕ) = s.outputs.linked) :
    Delivers
      { s with
        listening := .writing pkt order
        rounds := s.rounds ++ [⟨pkt, order⟩] } where
  frames := by
    have hframes := hs.frames
    rw [hlistening] at hframes
    rw [← hframes, List.map_append]
    simp [Listening.waiting]
  accounted := by
    have hnone : s.broadcaster.underway = none := by
      rw [broadcaster, hlistening]
      rfl
    refine hs.accounted.start hnone (r := ⟨pkt, order⟩) ?_
    rw [← Multiset.coe_nodup, horder]
    exact hlinks.nodup_linked
  opened round hround conn hconn := by
    cases hround
    rw [← Multiset.mem_coe, horder, OutputRun.mem_linked] at hconn
    obtain ⟨addr, item, hitem, rfl⟩ := hconn
    exact List.mem_map.mpr ⟨_, hlinks.opened addr item hitem, rfl⟩

theorem Delivers.write (hs : s.Delivers) {pkt : List UInt8} {conn : ℕ}
    {left : List ℕ} (hlistening : s.listening = .writing pkt (conn :: left)) :
    Delivers
      { s with
        listening := .writing pkt left
        written := s.written ++ [(conn, pkt)] } where
  frames := by
    have hframes := hs.frames
    rw [hlistening] at hframes
    exact hframes
  accounted := by
    have hround : s.broadcaster.underway = some ⟨pkt, conn :: left⟩ := by
      rw [broadcaster, hlistening]
      rfl
    have hvisit := hs.accounted.visit hround true
    simp only [Broadcaster.visit, broadcaster] at hvisit ⊢
    rw [List.map_append]
    exact hvisit
  opened round hround other hother := by
    cases hround
    have hopened := hs.opened ⟨pkt, conn :: left⟩ (by rw [hlistening]; rfl)
    exact hopened other (List.mem_cons_of_mem _ hother)

theorem Delivers.unlock (hs : s.Delivers) {pkt : List UInt8}
    (hlistening : s.listening = .writing pkt []) :
    Delivers { s with listening := .idle } where
  frames := by
    have hframes := hs.frames
    rw [hlistening] at hframes
    exact hframes
  accounted := by
    have hround : s.broadcaster.underway = some ⟨pkt, []⟩ := by
      rw [broadcaster, hlistening]
      rfl
    exact hs.accounted.finish hround
  opened _ hround := by cases hround

/-- No link goes away while the lock is held. -/
theorem Delivers.change (hs : s.Delivers) {event : OutputEvent}
    {outputs : OutputRun}
    (hlock : event.locks → s.listening.locked = false)
    (hstep : s.outputs.step event = some outputs) :
    Delivers { s with outputs := outputs } where
  frames := hs.frames
  accounted := hs.accounted
  opened round hround conn hconn := by
    have hunlocked : ¬ event.locks := by
      intro hlocks
      have hfree := hlock hlocks
      cases hlistening : s.listening with
      | writing pkt left =>
          rw [hlistening] at hfree
          cases hfree
      | idle => simp [hlistening, Listening.round] at hround
      | received pkt => simp [hlistening, Listening.round] at hround
    have hsame : outputs.opened = s.outputs.opened := by
      replace hstep := OutputRun.act_of_step hstep
      cases event with
      | add addr dialErr =>
          cases dialErr with
          | none => exact absurd rfl hunlocked
          | some err =>
              cases Option.some.inj hstep
              rfl
      | remove addr taker => exact absurd rfl hunlocked
      | iterate i =>
          obtain ⟨g, -, ⟨-, rfl⟩ | ⟨item, -, rfl⟩⟩ :=
            OutputRun.iterate_cases hstep
          · rfl
          · rfl
    rw [hsame]
    exact hs.opened round hround conn hconn

/-- Nothing moves between the decoder and the links. -/
theorem Delivers.still (hs : s.Delivers)
    (hunsent : next.serving.unsent = s.serving.unsent)
    (hlistening : next.listening = s.listening)
    (hrounds : next.rounds = s.rounds) (hwritten : next.written = s.written)
    (hdecoded : next.decoded = s.decoded)
    (houtputs : next.outputs = s.outputs) : next.Delivers where
  frames := by
    rw [hrounds, hlistening, hunsent, hdecoded]
    exact hs.frames
  accounted := by
    have hsame : next.broadcaster = s.broadcaster := by
      rw [broadcaster, broadcaster, hrounds, hlistening, hwritten]
    rw [hsame]
    exact hs.accounted
  opened := by
    rw [hlistening, houtputs]
    exact hs.opened

theorem Delivers.step (hs : s.Delivers) (hlinks : s.outputs.LinksOpen)
    (hstep : Steps s event next) : next.Delivers := by
  cases hstep with
  | decoded hserving hdecode =>
      refine ⟨?_, hs.accounted, hs.opened⟩
      have hframes := hs.frames
      simp only [hserving, Serving.unsent, List.append_nil] at hframes
      rw [List.map_append, ← hframes]
      rfl
  | failed hserving hdecode => exact hs.still rfl rfl rfl rfl rfl rfl
  | sent hserving hlistening =>
      refine ⟨?_, ?_, fun _ hround => by cases hround⟩
      · have hframes := hs.frames
        rw [hserving, hlistening] at hframes
        rw [← hframes]
        simp [Listening.waiting, Serving.unsent]
      · have haccounted := hs.accounted
        rw [broadcaster, hlistening] at haccounted
        exact haccounted
  | piped hserving hroom =>
      refine hs.still ?_ rfl rfl rfl rfl rfl
      rw [hserving]
      rfl
  | dropped hserving hfull =>
      refine hs.still ?_ rfl rfl rfl rfl rfl
      rw [hserving]
      rfl
  | locked hlistening horder => exact hs.lock hlinks hlistening horder
  | wrote hlistening => exact hs.write hlistening
  | unlocked hlistening => exact hs.unlock hlistening
  | changed hlock hstep => exact hs.change hlock hstep
  | _ => exact hs.still rfl rfl rfl rfl rfl rfl

theorem linksOpen_step (hlinks : s.outputs.LinksOpen)
    (hstep : Steps s event next) : next.outputs.LinksOpen := by
  cases hstep with
  | changed _ hstep => exact hlinks.step hstep
  | _ => exact hlinks

/-! ## What the vehicle goes through -/

/-- The frames between `Serve` and the vehicle, oldest first. -/
def underway (s : FrameRelay) : List (List UInt8) :=
  s.held.toList ++ s.RawDataPipe ++ s.serving.unpiped

/-- The packets a vehicle was given. -/
def packetIn : Time × VehicleEvent → Option Packet
  | (_, .init (.packet p)) => some p
  | _ => none

theorem packetIn_of_not_isPacket {now : Time} {event : VehicleEvent}
    (hother : isPacket event = false) : packetIn (now, event) = none := by
  unfold packetIn
  split
  next heq =>
    cases heq
    cases hother
  next => rfl

/-- The vehicle is what the packets it was given made of it.  These and the
ones under way are decoded packets in their order. -/
structure Follows (writer : Encoder) (start : Time) (s : FrameRelay) : Prop where
  packets : ∃ waiting : List Packet,
    s.underway = waiting.map unrollPacket ∧
      (s.processed ++ waiting).Sublist s.decoded ∧
      (s.processed ++ waiting).length + s.dropped = s.decoded.length
  room : s.RawDataPipe.length ≤ pipeCapacity
  vehicle : s.vehicle = InitVehicle.after writer start s.history
  history : s.history.filterMap packetIn = s.processed

variable {writer : Encoder} {start : Time}

theorem initial_follows (r : List UInt8) :
    (initial r writer start).Follows writer start where
  packets := ⟨[], rfl, List.Sublist.refl _, rfl⟩
  room := Nat.zero_le _
  vehicle := rfl
  history := rfl

/-- Nothing moves between `Serve` and the vehicle. -/
theorem Follows.still (hs : s.Follows writer start)
    (hunderway : next.underway = s.underway)
    (hpipe : next.RawDataPipe = s.RawDataPipe)
    (hdecoded : next.decoded = s.decoded) (hdropped : next.dropped = s.dropped)
    (hprocessed : next.processed = s.processed)
    (hvehicle : next.vehicle = s.vehicle)
    (hhistory : next.history = s.history) : next.Follows writer start where
  packets := by
    rw [hunderway, hdecoded, hdropped, hprocessed]
    exact hs.packets
  room := hpipe ▸ hs.room
  vehicle := by
    rw [hvehicle, hhistory]
    exact hs.vehicle
  history := by
    rw [hhistory, hprocessed]
    exact hs.history

theorem Follows.decode (hs : s.Follows writer start) {p : Packet}
    {dec : Decoder} (hserving : s.serving = .reading) :
    Follows writer start
      { s with
        dec := dec
        serving := .sending (unrollPacket p)
        decoded := s.decoded ++ [p] } where
  packets := by
    obtain ⟨waiting, hunderway, hsub, hlength⟩ := hs.packets
    refine ⟨waiting ++ [p], ?_, ?_, ?_⟩
    · simp only [underway, hserving, Serving.unpiped, List.append_nil]
        at hunderway ⊢
      rw [hunderway, List.map_append]
      rfl
    · rw [← List.append_assoc]
      exact hsub.append (List.Sublist.refl [p])
    · simp only [List.length_append, List.length_singleton] at hlength ⊢
      omega
  room := hs.room
  vehicle := hs.vehicle
  history := hs.history

theorem Follows.drop (hs : s.Follows writer start) {bin : List UInt8}
    (hserving : s.serving = .piping bin) :
    Follows writer start
      { s with dropped := s.dropped + 1, serving := .reading } where
  packets := by
    obtain ⟨waiting, hunderway, hsub, hlength⟩ := hs.packets
    simp only [underway, hserving, Serving.unpiped] at hunderway ⊢
    -- The frame that goes is the youngest of those under way.
    obtain ⟨older, last, rfl⟩ : ∃ older last, waiting = older ++ [last] := by
      rcases List.eq_nil_or_concat waiting with rfl | ⟨older, last, hwaiting⟩
      · simp at hunderway
      · exact ⟨older, last, hwaiting.trans (List.concat_eq_append ..)⟩
    rw [List.map_append] at hunderway
    obtain ⟨holder, -⟩ := List.append_inj' hunderway rfl
    refine ⟨older, by rw [List.append_nil]; exact holder, ?_, ?_⟩
    · exact ((List.sublist_append_left older [last]).append_left _).trans hsub
    · simp only [List.length_append, List.length_singleton] at hlength ⊢
      omega
  room := hs.room
  vehicle := hs.vehicle
  history := hs.history

theorem Follows.happen (hs : s.Follows writer start)
    (event : Time × VehicleEvent) :
    (s.happen event).vehicle =
        InitVehicle.after writer start (s.happen event).history ∧
      (s.happen event).history.filterMap packetIn =
        s.processed ++ (packetIn event).toList := by
  constructor
  · have hvehicle := hs.vehicle
    simp only [FrameRelay.happen, InitVehicle.after, List.foldl_append,
      List.foldl_cons, List.foldl_nil] at hvehicle ⊢
    rw [hvehicle]
  · simp only [FrameRelay.happen, List.filterMap_append, hs.history]
    rfl

/-- What the vehicle decodes is the packet that the frame was made of. -/
theorem Follows.held_packet (hs : s.Follows writer start)
    (hagreed : ∀ p ∈ s.decoded, Agreed p) {data : List UInt8}
    (hheld : s.held = some data) :
    ∃ p waiting, s.RawDataPipe ++ s.serving.unpiped =
        waiting.map unrollPacket ∧
      DecodeBytes data = .ok (some p, none) ∧
      (s.processed ++ p :: waiting).Sublist s.decoded ∧
      (s.processed ++ p :: waiting).length + s.dropped =
        s.decoded.length := by
  obtain ⟨waiting, hunderway, hsub, hlength⟩ := hs.packets
  simp only [underway, hheld, Option.toList_some, List.cons_append]
    at hunderway
  cases waiting with
  | nil => cases hunderway
  | cons p waiting =>
      rw [List.map_cons, List.cons.injEq] at hunderway
      have hmem : p ∈ s.decoded := hsub.subset (by simp)
      refine ⟨p, waiting, hunderway.2, ?_, hsub, hlength⟩
      rw [hunderway.1]
      exact hagreed p hmem

theorem Follows.step (hs : s.Follows writer start)
    (hagreed : ∀ p ∈ s.decoded, Agreed p) (hstep : Steps s event next) :
    next.Follows writer start := by
  cases hstep with
  | decoded hserving hdecode => exact hs.decode hserving
  | failed hserving hdecode =>
      exact hs.still rfl rfl rfl rfl rfl rfl rfl
  | sent hserving hlistening =>
      refine hs.still ?_ rfl rfl rfl rfl rfl rfl
      simp only [underway, hserving, Serving.unpiped]
  | piped hserving hroom =>
      refine ⟨?_, ?_, hs.vehicle, hs.history⟩
      · have hpackets := hs.packets
        simp only [underway, hserving, Serving.unpiped, List.append_assoc,
          List.append_nil] at hpackets ⊢
        exact hpackets
      · rw [List.length_append]
        exact hroom
  | dropped hserving hfull => exact hs.drop hserving
  | locked hlistening horder => exact hs.still rfl rfl rfl rfl rfl rfl rfl
  | wrote hlistening => exact hs.still rfl rfl rfl rfl rfl rfl rfl
  | unlocked hlistening => exact hs.still rfl rfl rfl rfl rfl rfl rfl
  | changed hlock hstep => exact hs.still rfl rfl rfl rfl rfl rfl rfl
  | took hheld hpipe =>
      refine ⟨?_, ?_, hs.vehicle, hs.history⟩
      · have hpackets := hs.packets
        simp only [underway, hheld, hpipe, Option.toList_none,
          List.nil_append, Option.toList_some, List.singleton_append]
          at hpackets ⊢
        exact hpackets
      · have hroom := hs.room
        rw [hpipe] at hroom
        exact (Nat.le_succ _).trans hroom
  | @processed data p now hheld hdecode =>
      obtain ⟨p', waiting, hwaiting, hdecode', hsub, hlength⟩ :=
        hs.held_packet hagreed hheld
      rw [hdecode] at hdecode'
      cases hdecode'
      obtain ⟨hvehicle, hhistory⟩ := hs.happen (now, .init (.packet p))
      refine ⟨⟨waiting, ?_, ?_, ?_⟩, hs.room, hvehicle, hhistory⟩
      · exact hwaiting
      · rw [List.append_assoc]
        exact hsub
      · rw [List.append_assoc]
        exact hlength
  | rejected hheld hdecode =>
      obtain ⟨p', waiting, -, hdecode', -⟩ := hs.held_packet hagreed hheld
      rw [hdecode] at hdecode'
      cases hdecode'
  | @happened now event hother =>
      obtain ⟨hvehicle, hhistory⟩ := hs.happen (now, event)
      rw [packetIn_of_not_isPacket hother, Option.toList_none,
        List.append_nil] at hhistory
      exact ⟨hs.packets, hs.room, hvehicle, hhistory⟩

theorem decoded_step {r : List UInt8}
    (hdec : Decoded r s.dec s.decoded) (hstep : Steps s event next) :
    Decoded r next.dec next.decoded := by
  cases hstep with
  | decoded hserving hdecode => exact hdec.decode hdecode
  | failed hserving hdecode =>
      have hnext := hdec.decode hdecode
      unfold DecodeCall.packet at hnext
      simpa using hnext
  | _ => exact hdec

/-! ## Whole runs -/

structure Relayed (r : List UInt8) (writer : Encoder) (start : Time)
    (s : FrameRelay) : Prop where
  decoded : Decoded r s.dec s.decoded
  delivers : s.Delivers
  linksOpen : s.outputs.LinksOpen
  follows : s.Follows writer start

theorem initial_relayed (r : List UInt8) (writer : Encoder) (start : Time) :
    (initial r writer start).Relayed r writer start where
  decoded := decoded_initial r
  delivers := initial_delivers r writer start
  linksOpen := OutputRun.initial_linksOpen
  follows := initial_follows r

theorem Relayed.step {r : List UInt8} (hs : s.Relayed r writer start)
    (hstep : s.step event = some next) : next.Relayed r writer start where
  decoded := decoded_step hs.decoded (step_cases hstep)
  delivers := hs.delivers.step hs.linksOpen (step_cases hstep)
  linksOpen := linksOpen_step hs.linksOpen (step_cases hstep)
  follows := hs.follows.step hs.decoded.agreed (step_cases hstep)

theorem relayed_of_run {r : List UInt8} {events : List FrameEvent}
    (hrun : Run step (initial r writer start) events s) :
    s.Relayed r writer start :=
  hrun.invariant (fun _ _ _ hs _ hstep => hs.step hstep)
    (initial_relayed r writer start)

/-- A heartbeat without data is decoded, written to a link and processed. -/
def relayOne : List FrameEvent :=
  [.outputs (.add (Pem.ascii "127.0.0.1:14550") none), .decode, .send,
    .rangeLinks [0], .pipe, .write, .take, .process 1, .unlock]

theorem relayOne_runs :
    ∃ s, Run step (initial [254, 0, 255, 1, 1, 0, 220, 169] (NewEncoder none) 0)
      relayOne s := by
  have hexec : (exec step (fun _ _ => True)
      (initial [254, 0, 255, 1, 1, 0, 220, 169] (NewEncoder none) 0)
      relayOne).isSome := by
    decide +kernel
  exact GuardedRun.of_exec_isSome hexec

/-- In every interleaving each connection is written the frames of the rounds
that began while it was linked, each once and in their order, and is open when
it is written.  The rounds are for the packets decoded so far, but for the one
or two that are still on their way. -/
theorem links_receive_rounds (r : List UInt8) (writer : Encoder)
    (start : Time) {events : List FrameEvent} {s : FrameRelay}
    (hrun : Run step (initial r writer start) events s) :
    (∀ conn, s.writtenTo conn ++ s.broadcaster.pendingFor conn =
        s.broadcaster.messagesFor conn) ∧
      s.Delivers ∧ Decoded r s.dec s.decoded := by
  have hs := relayed_of_run hrun
  refine ⟨fun conn => ?_, hs.delivers, hs.decoded⟩
  rw [← s.visitsOf_broadcaster]
  exact hs.delivers.accounted.each conn

theorem links_receive_rounds_one :
    ∃ s, Run step (initial [254, 0, 255, 1, 1, 0, 220, 169] (NewEncoder none) 0)
        relayOne s ∧ s.Delivers := by
  obtain ⟨s, hrun⟩ := relayOne_runs
  exact ⟨s, hrun, (links_receive_rounds _ _ _ hrun).2.1⟩

/-- The pipe has room when `Serve` comes to it. -/
def HasRoom (s : FrameRelay) : FrameEvent → Prop
  | .pipe => s.RawDataPipe.length < pipeCapacity
  | _ => True

theorem dropped_step (hstep : s.step event = some next) :
    next.dropped = 0 ↔ s.dropped = 0 ∧ s.HasRoom event := by
  cases step_cases hstep with
  | piped hserving hroom => exact (and_iff_left hroom).symm
  | dropped hserving hfull =>
      exact iff_of_false (Nat.succ_ne_zero _)
        fun h => absurd h.2 (not_lt.mpr hfull)
  | _ => exact (and_iff_left trivial).symm

/-- In every interleaving the vehicle is what a part of the decoded packets,
in their order, makes of it, no packet twice, and the pipe holds at most fifty
frames.  It goes through all of them, but for those under way, exactly in the
runs where the pipe always has room. -/
theorem vehicle_follows_stream (r : List UInt8) (writer : Encoder)
    (start : Time) {events : List FrameEvent} {s : FrameRelay}
    (hrun : Run step (initial r writer start) events s) :
    s.Follows writer start ∧
      ((∃ waiting, s.underway = waiting.map unrollPacket ∧
          s.processed ++ waiting = s.decoded) ↔
        GuardedRun step HasRoom (initial r writer start) events s) := by
  have hfollows := (relayed_of_run hrun).follows
  refine ⟨hfollows, ?_⟩
  rw [GuardedRun.iff_holds (P := fun s => s.dropped = 0)
    (fun _ _ _ hstep => dropped_step hstep) rfl hrun]
  obtain ⟨waiting, hunderway, hsub, hlength⟩ := hfollows.packets
  constructor
  · rintro ⟨waiting', hunderway', hall⟩
    have hsame : waiting.length = waiting'.length := by
      have hlengths := congrArg List.length (hunderway.symm.trans hunderway')
      simpa only [List.length_map] using hlengths
    rw [← hall, List.length_append, List.length_append] at hlength
    omega
  · intro hnone
    exact ⟨waiting, hunderway, hsub.eq_of_length (by omega)⟩

theorem vehicle_follows_stream_one :
    ∃ s, Run step (initial [254, 0, 255, 1, 1, 0, 220, 169] (NewEncoder none) 0)
        relayOne s ∧ s.Follows (NewEncoder none) 0 := by
  obtain ⟨s, hrun⟩ := relayOne_runs
  exact ⟨s, hrun, (vehicle_follows_stream _ _ _ hrun).1⟩

end FrameRelay

end DronesmithEngine.Fmulink
