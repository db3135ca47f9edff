import DronesmithEngine.FmulinkRelay
import DronesmithEngine.GoRuntime
import DronesmithEngine.MavlinkEnums
import DronesmithEngine.MavlinkMessages
import Mathlib.Tactic

/-!
# The records of a flight

`fmulink/flightsaver.go` with the packets of `fmulink/fmulink.go` that it
saves and the heartbeats that start and end a log.  Flights are enabled and
the calls on the files succeed.  The saver and the syncer join a name to the
same directory, so that a file goes by its name.
-/

namespace DronesmithEngine.Fmulink

open Go Mavlink InformationTheory

/-- A packet that was decoded, with the time of `Persist` in its binary form
and the date of `Start`. -/
structure FlightPacket where
  frame : Frame
  time : Vector UInt8 15
  date : String

namespace FlightPacket

def hdr (p : FlightPacket) : UInt8 := p.frame.packet.MsgID

/-- What a heartbeat says, if it can be unpacked. -/
def heartbeat (p : FlightPacket) : Option Heartbeat :=
  if p.hdr = MSG_ID_HEARTBEAT then
    match Heartbeat.Unpack {} p.frame.packet with
    | (none, pv) => some pv
    | (some _, _) => none
  else none

def bytes (p : FlightPacket) : List UInt8 :=
  p.time.toList ++ unrollPacket p.frame.packet

end FlightPacket

inductive FlightEvent
  | packet (p : FlightPacket)
  | expire

structure FlightSaver where
  isLogging : Bool
  file : Option String
  fname : String
  msgSet : Finset UInt8

/-- The saver, the lock of the syncer and the files.  What a file held when
`End` closed it is kept for the statements only. -/
structure FlightRun where
  saver : FlightSaver
  lockname : Option String
  files : GoMap String (List UInt8)
  closed : List (List UInt8)

namespace FlightRun

def NewFlightSaver (files : GoMap String (List UInt8)) : FlightRun where
  saver := ⟨false, none, "", ∅⟩
  lockname := none
  files := files
  closed := []

def content (s : FlightRun) : List UInt8 :=
  (s.saver.file.bind s.files.lookup).getD []

def Write (chunk : List UInt8) (s : FlightRun) : FlightRun :=
  match s.saver.file with
  | some name =>
      { s with files := s.files.insert name (s.content ++ chunk) }
  | none => s

def Persist (time data : List UInt8) (hdr : UInt8) (s : FlightRun) :
    FlightRun :=
  if s.saver.isLogging ∧ s.saver.file ≠ none then
    if hdr ∉ s.saver.msgSet then
      { s with
        saver := { s.saver with msgSet := insert hdr s.saver.msgSet }
        }.Write time |>.Write data
    else s
  else s

def Start (date : String) (s : FlightRun) : FlightRun :=
  let fname := "Flight " ++ date ++ ".log"
  { s with
    saver := ⟨true, some fname, fname, ∅⟩
    files := s.files.insert fname [] }

/-- The file is closed but stays in its field. -/
def End (s : FlightRun) : FlightRun :=
  { s with
    saver := { s.saver with isLogging := false, fname := "" }
    closed := s.closed ++ [s.content] }

def SendSyncLock (name : String) (s : FlightRun) : FlightRun :=
  { s with lockname := some name }

def SendSyncUnlock (s : FlightRun) : FlightRun := { s with lockname := none }

def startLog (date : String) (s : FlightRun) : FlightRun :=
  let s := s.Start date
  s.SendSyncLock s.saver.fname

def trigger (pv : Heartbeat) (date : String) (s : FlightRun) : FlightRun :=
  if pv.BaseMode &&& 128 = 128 ∧ s.saver.isLogging = false then
    s.startLog date
  else if pv.BaseMode &&& 128 = 0 ∧ s.saver.isLogging = true then
    s.End.SendSyncUnlock
  else s

def receive (p : FlightPacket) (s : FlightRun) : FlightRun :=
  let s :=
    if s.saver.isLogging then
      s.Persist p.time.toList (unrollPacket p.frame.packet) p.hdr
    else s
  match p.heartbeat with
  | some pv => s.trigger pv p.date
  | none => s

/-- The goroutine of the timer runs while there is a log. -/
def throttler (s : FlightRun) : FlightRun :=
  if s.saver.isLogging then
    { s with saver := { s.saver with msgSet := ∅ } }
  else s

def step (s : FlightRun) : FlightEvent → FlightRun
  | .packet p => s.receive p
  | .expire => s.throttler

def run (s : FlightRun) (events : List FlightEvent) : FlightRun :=
  events.foldl step s

end FlightRun

/-! ## Flights -/

def FlightEvent.Arms : FlightEvent → Prop
  | .packet p => ∃ pv ∈ p.heartbeat, pv.BaseMode &&& 128 = 128
  | .expire => False

def FlightEvent.Disarms : FlightEvent → Prop
  | .packet p => ∃ pv ∈ p.heartbeat, pv.BaseMode &&& 128 = 0
  | .expire => False

instance : DecidablePred FlightEvent.Arms
  | .packet p =>
      inferInstanceAs (Decidable (∃ pv ∈ p.heartbeat, _ = _))
  | .expire => inferInstanceAs (Decidable False)

instance : DecidablePred FlightEvent.Disarms
  | .packet p =>
      inferInstanceAs (Decidable (∃ pv ∈ p.heartbeat, _ = _))
  | .expire => inferInstanceAs (Decidable False)

/-- The flights that ended, each with what came after the heartbeat that
armed, up to the next one that disarms.  The first argument is what came so
far in a flight that has not ended. -/
def flights : Option (List FlightEvent) → List FlightEvent →
    List (List FlightEvent)
  | _, [] => []
  | none, e :: rest =>
      flights (if e.Arms then some [] else none) rest
  | some flight, e :: rest =>
      if e.Disarms then (flight ++ [e]) :: flights none rest
      else flights (some (flight ++ [e])) rest

def currentFlight : Option (List FlightEvent) → List FlightEvent →
    Option (List FlightEvent)
  | flight, [] => flight
  | none, e :: rest =>
      currentFlight (if e.Arms then some [] else none) rest
  | some flight, e :: rest =>
      currentFlight (if e.Disarms then none else some (flight ++ [e])) rest

def FlightEvent.packets : FlightEvent → List FlightPacket
  | .packet p => [p]
  | .expire => []

/-- The packets of a flight since the timer last expired in it. -/
def sinceExpiry (flight : List FlightEvent) : List FlightPacket :=
  (flight.reverse.takeWhile fun e => e.packets ≠ []).flatMap
    FlightEvent.packets

/-- The packets whose id no packet had in the flight since the timer last
expired. -/
def recorded (before : List FlightEvent) :
    List FlightEvent → List FlightPacket
  | [] => []
  | e :: rest =>
      e.packets.filter (fun p => ∀ q ∈ sinceExpiry before, q.hdr ≠ p.hdr) ++
        recorded (before ++ [e]) rest

/-- What the log of a flight should hold. -/
def log (flight : List FlightEvent) : List UInt8 :=
  (recorded [] flight).flatMap FlightPacket.bytes

/-! ## One more event of a flight -/

theorem sinceExpiry_packet (flight : List FlightEvent) (p : FlightPacket) :
    sinceExpiry (flight ++ [.packet p]) = p :: sinceExpiry flight := by
  simp [sinceExpiry, FlightEvent.packets]

theorem sinceExpiry_expire (flight : List FlightEvent) :
    sinceExpiry (flight ++ [.expire]) = [] := by
  simp [sinceExpiry, FlightEvent.packets]

theorem recorded_append (before flight : List FlightEvent)
    (e : FlightEvent) :
    recorded before (flight ++ [e]) =
      recorded before flight ++ e.packets.filter
        fun p => ∀ q ∈ sinceExpiry (before ++ flight), q.hdr ≠ p.hdr := by
  induction flight generalizing before with
  | nil => simp [recorded]
  | cons first flight ih =>
      rw [List.cons_append, recorded, recorded, ih, List.append_assoc,
        List.append_assoc, List.singleton_append]

theorem log_append (flight : List FlightEvent) (e : FlightEvent) :
    log (flight ++ [e]) =
      log flight ++ (e.packets.filter fun p =>
        ∀ q ∈ sinceExpiry flight, q.hdr ≠ p.hdr).flatMap
          FlightPacket.bytes := by
  rw [log, recorded_append, List.flatMap_append, List.nil_append, log]

theorem log_new {flight : List FlightEvent} {p : FlightPacket}
    (hfirst : ∀ q ∈ sinceExpiry flight, q.hdr ≠ p.hdr) :
    log (flight ++ [.packet p]) = log flight ++ p.bytes := by
  rw [log_append, FlightEvent.packets,
    List.filter_cons_of_pos (by simpa using hfirst)]
  simp

theorem log_seen {flight : List FlightEvent} {p : FlightPacket}
    (hseen : ¬ ∀ q ∈ sinceExpiry flight, q.hdr ≠ p.hdr) :
    log (flight ++ [.packet p]) = log flight := by
  rw [log_append, FlightEvent.packets,
    List.filter_cons_of_neg (by simpa using hseen)]
  simp

theorem log_expire (flight : List FlightEvent) :
    log (flight ++ [.expire]) = log flight := by
  rw [log_append, FlightEvent.packets]
  simp

/-- The first flight goes from the first heartbeat that arms to the next one
that disarms. -/
theorem flights_append {before flight rest : List FlightEvent}
    {arm disarm : FlightEvent} (hbefore : ∀ e ∈ before, ¬ e.Arms)
    (harm : arm.Arms) (hflight : ∀ e ∈ flight, ¬ e.Disarms)
    (hdisarm : disarm.Disarms) :
    flights none (before ++ arm :: flight ++ disarm :: rest) =
      (flight ++ [disarm]) :: flights none rest := by
  have hopen : ∀ start : List FlightEvent,
      flights (some start) (flight ++ disarm :: rest) =
        (start ++ flight ++ [disarm]) :: flights none rest := by
    induction flight with
    | nil =>
        intro start
        rw [List.nil_append, flights, if_pos hdisarm, List.append_nil]
    | cons e flight ih =>
        intro start
        rw [List.forall_mem_cons] at hflight
        rw [List.cons_append, flights, if_neg hflight.1, ih hflight.2,
          List.append_assoc start, List.singleton_append]
  induction before with
  | nil =>
      rw [List.nil_append, List.cons_append, flights, if_pos harm]
      exact hopen []
  | cons e before ih =>
      rw [List.forall_mem_cons] at hbefore
      rw [List.cons_append, List.cons_append, flights, if_neg hbefore.1]
      exact ih hbefore.2

namespace FlightRun

/-! ## Saving -/

/-- A log is open and locked, and holds what it should hold of the flight. -/
structure Logs (s : FlightRun) (flight : List FlightEvent) : Prop where
  logging : s.saver.isLogging = true
  locked : ∃ name, s.saver.file = some name ∧ s.lockname = some name
  content_eq : s.content = log flight
  mem_msgSet : ∀ hdr, hdr ∈ s.saver.msgSet ↔
    ∃ q ∈ sinceExpiry flight, q.hdr = hdr

def Saves (s : FlightRun) : Option (List FlightEvent) → Prop
  | none => s.saver.isLogging = false ∧ s.lockname = none
  | some flight => s.Logs flight

variable {s : FlightRun} {flight : List FlightEvent} {p : FlightPacket}

theorem content_Write {name : String} (hfile : s.saver.file = some name)
    (chunk : List UInt8) : (s.Write chunk).content = s.content ++ chunk := by
  rw [Write, hfile]
  simp [content, hfile, Finmap.lookup_insert]

theorem Write_saver (chunk : List UInt8) (s : FlightRun) :
    (s.Write chunk).saver = s.saver := by
  unfold Write
  split <;> rfl

theorem Write_lockname (chunk : List UInt8) (s : FlightRun) :
    (s.Write chunk).lockname = s.lockname := by
  unfold Write
  split <;> rfl

theorem Write_closed (chunk : List UInt8) (s : FlightRun) :
    (s.Write chunk).closed = s.closed := by
  unfold Write
  split <;> rfl

/-- A packet is written unless its id is in the set. -/
theorem Logs.persist (hs : s.Logs flight) (p : FlightPacket) :
    Logs (s.Persist p.time.toList (unrollPacket p.frame.packet) p.hdr)
        (flight ++ [.packet p]) ∧
      (s.Persist p.time.toList (unrollPacket p.frame.packet) p.hdr).closed =
        s.closed := by
  obtain ⟨name, hfile, hlock⟩ := hs.locked
  have hopen : s.saver.isLogging ∧ s.saver.file ≠ none :=
    ⟨hs.logging, hfile ▸ Option.some_ne_none name⟩
  unfold Persist
  rw [if_pos hopen]
  by_cases hnew : p.hdr ∉ s.saver.msgSet
  · rw [if_pos hnew]
    have hfirst : ∀ q ∈ sinceExpiry flight, q.hdr ≠ p.hdr := by
      intro q hq heq
      exact hnew ((hs.mem_msgSet p.hdr).mpr ⟨q, hq, heq⟩)
    set marked : FlightRun :=
      { s with
        saver := { s.saver with msgSet := insert p.hdr s.saver.msgSet } }
      with hmarked
    set timed := marked.Write p.time.toList with htimed
    have hsaver : timed.saver = marked.saver := Write_saver _ _
    refine ⟨⟨?_, ?_, ?_, ?_⟩, ?_⟩
    · rw [Write_saver, hsaver]
      exact hs.logging
    · rw [Write_saver, hsaver, Write_lockname, htimed, Write_lockname]
      exact hs.locked
    · have hmarkedFile : marked.saver.file = some name := hfile
      have htimedFile : timed.saver.file = some name := hsaver ▸ hfile
      rw [content_Write htimedFile, htimed, content_Write hmarkedFile,
        log_new hfirst,
        ← hs.content_eq, List.append_assoc]
      rfl
    · intro hdr
      rw [Write_saver, hsaver, hmarked, sinceExpiry_packet,
        Finset.mem_insert, hs.mem_msgSet, eq_comm]
      simp
    · rw [Write_closed, htimed, Write_closed]
  · rw [if_neg hnew]
    rw [not_not, hs.mem_msgSet] at hnew
    have hseen : ¬ ∀ q ∈ sinceExpiry flight, q.hdr ≠ p.hdr := by
      rintro hfirst
      obtain ⟨q, hq, heq⟩ := hnew
      exact hfirst q hq heq
    refine ⟨⟨hs.logging, hs.locked, ?_, ?_⟩, rfl⟩
    · rw [log_seen hseen]
      exact hs.content_eq
    · intro hdr
      rw [sinceExpiry_packet, hs.mem_msgSet]
      constructor
      · rintro ⟨q, hq, heq⟩
        exact ⟨q, List.mem_cons_of_mem _ hq, heq⟩
      · rintro ⟨q, hq, rfl⟩
        rcases List.mem_cons.mp hq with rfl | hold
        · exact hnew
        · exact ⟨q, hold, rfl⟩

theorem Logs.throttler (hs : s.Logs flight) :
    Logs s.throttler (flight ++ [.expire]) ∧
      s.throttler.closed = s.closed := by
  rw [FlightRun.throttler, if_pos hs.logging]
  refine ⟨⟨hs.logging, hs.locked, ?_, ?_⟩, rfl⟩
  · rw [log_expire]
    exact hs.content_eq
  · intro hdr
    rw [sinceExpiry_expire]
    simp

/-- A step of a flight, which ends with a heartbeat that disarms. -/
theorem Logs.step (hs : s.Logs flight) (e : FlightEvent) :
    if e.Disarms then
      Saves (s.step e) none ∧
        (s.step e).closed = s.closed ++ [log (flight ++ [e])]
    else
      Saves (s.step e) (some (flight ++ [e])) ∧
        (s.step e).closed = s.closed := by
  cases e with
  | expire => exact hs.throttler
  | packet p =>
      obtain ⟨hlogs, hclosed⟩ := hs.persist p
      simp only [FlightRun.step, receive, hs.logging, if_true]
      set saved := s.Persist p.time.toList (unrollPacket p.frame.packet)
        p.hdr with hsaved
      cases hheartbeat : p.heartbeat with
      | none =>
          have hnot : ¬ (FlightEvent.packet p).Disarms := by
            rintro ⟨pv, hpv, -⟩
            rw [hheartbeat] at hpv
            cases hpv
          rw [if_neg hnot]
          exact ⟨hlogs, hclosed⟩
      | some pv =>
          have hiff : (FlightEvent.packet p).Disarms ↔
              pv.BaseMode &&& 128 = 0 := by
            simp [FlightEvent.Disarms, hheartbeat]
          have hrunning : ¬ (pv.BaseMode &&& 128 = 128 ∧
              saved.saver.isLogging = false) := by
            rw [hlogs.logging]
            exact fun hboth => Bool.noConfusion hboth.2
          dsimp only
          rw [trigger, if_neg hrunning]
          by_cases hdisarms : pv.BaseMode &&& 128 = 0
          · rw [if_pos (hiff.mpr hdisarms), if_pos ⟨hdisarms, hlogs.logging⟩]
            refine ⟨⟨rfl, rfl⟩, ?_⟩
            rw [← hclosed, ← hlogs.content_eq]
            rfl
          · rw [if_neg (hiff.not.mpr hdisarms),
              if_neg (fun hboth => hdisarms hboth.1)]
            exact ⟨hlogs, hclosed⟩

theorem startLog_logs (date : String) (s : FlightRun) :
    Logs (s.startLog date) [] where
  logging := rfl
  locked := ⟨_, rfl, rfl⟩
  content_eq := by
    simp [startLog, Start, SendSyncLock, content, Finmap.lookup_insert, log,
      recorded]
  mem_msgSet hdr := by
    simp [startLog, Start, SendSyncLock, sinceExpiry]

theorem Saves.idle_step (hs : s.Saves none) (e : FlightEvent) :
    Saves (s.step e) (if e.Arms then some [] else none) ∧
      (s.step e).closed = s.closed := by
  have hidle : ¬ s.saver.isLogging = true := by
    rw [hs.1]
    exact Bool.false_ne_true
  cases e with
  | expire =>
      have hsame : s.step .expire = s := if_neg hidle
      rw [hsame]
      exact ⟨hs, rfl⟩
  | packet p =>
      simp only [FlightRun.step, receive, if_neg hidle]
      cases hheartbeat : p.heartbeat with
      | none =>
          have hnot : ¬ (FlightEvent.packet p).Arms := by
            rintro ⟨pv, hpv, -⟩
            rw [hheartbeat] at hpv
            cases hpv
          rw [if_neg hnot]
          exact ⟨hs, rfl⟩
      | some pv =>
          have hiff : (FlightEvent.packet p).Arms ↔
              pv.BaseMode &&& 128 = 128 := by
            simp [FlightEvent.Arms, hheartbeat]
          dsimp only
          rw [trigger]
          by_cases harms : pv.BaseMode &&& 128 = 128
          · rw [if_pos (hiff.mpr harms), if_pos ⟨harms, hs.1⟩]
            exact ⟨startLog_logs p.date s, rfl⟩
          · rw [if_neg (hiff.not.mpr harms),
              if_neg (fun hboth => harms hboth.1),
              if_neg (fun hboth => hidle hboth.2)]
            exact ⟨hs, rfl⟩

/-- What `End` closes in a run, and what is open after it. -/
theorem Saves.run {current : Option (List FlightEvent)}
    (hs : s.Saves current) (events : List FlightEvent) :
    Saves (s.run events) (currentFlight current events) ∧
      (s.run events).closed =
        s.closed ++ (flights current events).map log := by
  induction events generalizing s current with
  | nil =>
      cases current with
      | none => exact ⟨hs, (List.append_nil _).symm⟩
      | some flight => exact ⟨hs, (List.append_nil _).symm⟩
  | cons e events ih =>
      rw [FlightRun.run, List.foldl_cons]
      cases current with
      | none =>
          obtain ⟨hnext, hclosed⟩ := hs.idle_step e
          rw [currentFlight, flights, ← hclosed]
          exact ih hnext
      | some flight =>
          have hstep := Logs.step hs e
          rw [currentFlight, flights]
          by_cases hdisarms : e.Disarms
          · rw [if_pos hdisarms] at hstep ⊢
            obtain ⟨hrun, hclosed⟩ := ih hstep.1
            rw [if_pos hdisarms]
            refine ⟨hrun, hclosed.trans ?_⟩
            rw [hstep.2, List.append_assoc, List.map_cons]
            rfl
          · rw [if_neg hdisarms] at hstep ⊢
            rw [if_neg hdisarms, ← hstep.2]
            exact ih hstep.1

end FlightRun

/-! ## Splitting a log -/

namespace FlightPacket

theorem length_bytes (p : FlightPacket) :
    p.bytes.length = p.frame.payload.length + 23 := by
  rw [bytes, unrollPacket_packet, List.length_append, Frame.length_bytes,
    Vector.length_toList]
  omega

/-- The byte after the time and the start byte counts the payload. -/
theorem getElem?_bytes_append (p : FlightPacket) (rest : List UInt8) :
    (p.bytes ++ rest)[16]? = some p.frame.payload.length.toUInt8 := by
  have htime : p.time.toList.length = 15 := p.time.length_toList
  rw [bytes, unrollPacket_packet, List.append_assoc,
    List.getElem?_append_right (by omega), htime]
  rfl

theorem bytes_uniquelyDecodable : UniquelyDecodable (Set.range bytes) := by
  apply uniquelyDecodable_of_length
  · rintro ⟨p, hp⟩
    have hlength := p.length_bytes
    rw [hp, List.length_nil] at hlength
    omega
  · rintro _ ⟨p, rfl⟩ _ ⟨q, rfl⟩ x y heq
    have hbyte := p.getElem?_bytes_append x
    rw [heq, q.getElem?_bytes_append y, Option.some.injEq] at hbyte
    have hnat := congrArg UInt8.toNat hbyte
    rw [p.frame.toNat_length, q.frame.toNat_length] at hnat
    rw [p.length_bytes, q.length_bytes, hnat]

end FlightPacket

/-- Every log holds the records of its flight when it is closed, and splits
only into these; and while a log is open it is locked. -/
theorem closed_logs (files : GoMap String (List UInt8))
    (events : List FlightEvent) :
    let s := (FlightRun.NewFlightSaver files).run events
    s.closed = (flights none events).map log ∧
      (∀ flight ∈ flights none events, ∀ records : List (List UInt8),
        (∀ record ∈ records, record ∈ Set.range FlightPacket.bytes) →
          records.flatten = log flight →
            records = (recorded [] flight).map FlightPacket.bytes) ∧
      (s.saver.isLogging = true →
        ∃ name, s.saver.file = some name ∧ s.lockname = some name) := by
  intro s
  have hidle : (FlightRun.NewFlightSaver files).Saves none := ⟨rfl, rfl⟩
  obtain ⟨hsaves, hclosed⟩ := hidle.run events
  refine ⟨hclosed, ?_, ?_⟩
  · intro flight _ records hrecords hlog
    refine FlightPacket.bytes_uniquelyDecodable _ _ hrecords ?_ ?_
    · intro record hrecord
      obtain ⟨p, -, rfl⟩ := List.mem_map.mp hrecord
      exact Set.mem_range_self p
    · rw [hlog, log, List.flatMap_def]
  · intro hlogging
    cases hcurrent : currentFlight none events with
    | none =>
        rw [hcurrent] at hsaves
        exact absurd hlogging (hsaves.1 ▸ Bool.false_ne_true)
    | some flight =>
        rw [hcurrent] at hsaves
        exact hsaves.locked

end DronesmithEngine.Fmulink
