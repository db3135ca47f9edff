import DronesmithEngine.BroadcastRounds
import DronesmithEngine.FmulinkRelay
import DronesmithEngine.OutputLinks
import DronesmithEngine.VehicleEvents
import Mathlib.Tactic

/-!
# The way of a frame through the engine

Three goroutines hand on what the flight controller sends.  `Serve` of
`fmulink/fmulink.go` decodes a frame, gives it to the output manager and
offers it to the pipe in front of the vehicle; `listen` of
`fmulink/output.go` writes it to every link, under the read lock; and the
status server takes it out of the pipe for the vehicle.  Links come and go
under the write lock while all this goes on.
-/

namespace DronesmithEngine.Fmulink

open Go LabelledRuns BroadcastRounds Mavlink Api

/-- Where `Serve` is in its loop. -/
inductive Serving
  | reading
  | sending (bin : List UInt8)
  | piping (bin : List UInt8)

/-- Where `listen` is; it holds the read lock while it writes, and `left` are
the connections its loop has not come to. -/
inductive Listening
  | idle
  | received (pkt : List UInt8)
  | writing (pkt : List UInt8) (left : List ℕ)

inductive FrameEvent
  | decode
  | send
  | pipe
  | rangeLinks (order : List ℕ)
  | write
  | unlock
  | outputs (event : OutputEvent)
  | take
  | process (now : Time)
  | vehicle (now : Time) (event : VehicleEvent)

/-- The capacity of `RawDataPipe`. -/
def pipeCapacity : ℕ := 50

/-- The goroutines and what they share.  The last six fields are what has
happened: the packets decoded, the rounds begun, the calls of `Write`, the
frames dropped, and the packets and events that the vehicle went through. -/
structure FrameRelay where
  dec : Decoder
  serving : Serving
  listening : Listening
  outputs : OutputRun
  RawDataPipe : List (List UInt8)
  held : Option (List UInt8)
  vehicle : InitVehicle
  decoded : List Packet
  rounds : List (Round (List UInt8) ℕ)
  written : List (ℕ × List UInt8)
  dropped : ℕ
  processed : List Packet
  history : List (Time × VehicleEvent)

/-- The calls that take the write lock. -/
def OutputEvent.locks : OutputEvent → Bool
  | .add _ none => true
  | .add _ (some _) => false
  | .remove _ _ => true
  | .iterate _ => false

def Listening.locked : Listening → Bool
  | .writing _ _ => true
  | _ => false

/-- The connections of the links, which a range over them visits in some
order. -/
def OutputRun.linked (s : OutputRun) : Multiset ℕ :=
  (values s.manager.links).map outputLink.Conn

def isPacket : VehicleEvent → Bool
  | .init (.packet _) => true
  | _ => false

namespace FrameRelay

def initial (r : List UInt8) (writer : Encoder) (start : Time) :
    FrameRelay where
  dec := NewDecoder r
  serving := .reading
  listening := .idle
  outputs := .initial
  RawDataPipe := []
  held := none
  vehicle := InitVehicle.NewVehicle writer start
  decoded := []
  rounds := []
  written := []
  dropped := 0
  processed := []
  history := []

def happen (s : FrameRelay) (event : Time × VehicleEvent) : FrameRelay :=
  { s with
    vehicle := s.vehicle.happen event
    history := s.history ++ [event] }

def decode (s : FrameRelay) : Option FrameRelay :=
  match s.serving, s.dec.Decode with
  | .reading, .ok ((some p, none), dec) =>
      some
        { s with
          dec := dec
          serving := .sending (unrollPacket p)
          decoded := s.decoded ++ [p] }
  | .reading, .ok ((_, some _), dec) => some { s with dec := dec }
  | _, _ => none

def send (s : FrameRelay) : Option FrameRelay :=
  match s.serving, s.listening with
  | .sending bin, .idle =>
      some { s with serving := .piping bin, listening := .received bin }
  | _, _ => none

/-- The `select` has a default case, so a full pipe does not hold `Serve`
up. -/
def pipe (s : FrameRelay) : Option FrameRelay :=
  match s.serving with
  | .piping bin =>
      if s.RawDataPipe.length < pipeCapacity then
        some
          { s with
            RawDataPipe := s.RawDataPipe ++ [bin]
            serving := .reading }
      else some { s with dropped := s.dropped + 1, serving := .reading }
  | _ => none

def rangeLinks (s : FrameRelay) (order : List ℕ) : Option FrameRelay :=
  match s.listening with
  | .received pkt =>
      if (order : Multiset ℕ) = s.outputs.linked then
        some
          { s with
            listening := .writing pkt order
            rounds := s.rounds ++ [⟨pkt, order⟩] }
      else none
  | _ => none

/-- An error of `Write` is only logged. -/
def write (s : FrameRelay) : Option FrameRelay :=
  match s.listening with
  | .writing pkt (conn :: left) =>
      some
        { s with
          listening := .writing pkt left
          written := s.written ++ [(conn, pkt)] }
  | _ => none

def unlock (s : FrameRelay) : Option FrameRelay :=
  match s.listening with
  | .writing _ [] => some { s with listening := .idle }
  | _ => none

def change (s : FrameRelay) (event : OutputEvent) : Option FrameRelay :=
  if event.locks && s.listening.locked then none
  else (s.outputs.step event).map fun outputs => { s with outputs := outputs }

def take (s : FrameRelay) : Option FrameRelay :=
  match s.held, s.RawDataPipe with
  | none, data :: pipe =>
      some { s with held := some data, RawDataPipe := pipe }
  | _, _ => none

/-- `ProcessPacket`; a frame that does not decode is only logged. -/
def process (s : FrameRelay) (now : Time) : Option FrameRelay :=
  match s.held with
  | some data =>
      match DecodeBytes data with
      | .ok (some p, none) =>
          some
            { s.happen (now, .init (.packet p)) with
              held := none
              processed := s.processed ++ [p] }
      | .ok (_, some _) => some { s with held := none }
      | _ => none
  | none => none

def step (s : FrameRelay) (event : FrameEvent) : Option FrameRelay :=
  if s.outputs.panicked then none
  else
    match event with
    | .decode => s.decode
    | .send => s.send
    | .pipe => s.pipe
    | .rangeLinks order => s.rangeLinks order
    | .write => s.write
    | .unlock => s.unlock
    | .outputs event => s.change event
    | .take => s.take
    | .process now => s.process now
    | .vehicle now event =>
        if isPacket event then none else some (s.happen (now, event))

/-! ## What a step does -/

/-- A step, one constructor for each thing that can happen. -/
inductive Steps (s : FrameRelay) : FrameEvent → FrameRelay → Prop
  | decoded {p : Packet} {dec : Decoder} (hserving : s.serving = .reading)
      (hdecode : s.dec.Decode = .ok ((some p, none), dec)) :
      Steps s .decode
        { s with
          dec := dec
          serving := .sending (unrollPacket p)
          decoded := s.decoded ++ [p] }
  | failed {p : Option Packet} {e : Error} {dec : Decoder}
      (hserving : s.serving = .reading)
      (hdecode : s.dec.Decode = .ok ((p, some e), dec)) :
      Steps s .decode { s with dec := dec }
  | sent {bin : List UInt8} (hserving : s.serving = .sending bin)
      (hlistening : s.listening = .idle) :
      Steps s .send
        { s with serving := .piping bin, listening := .received bin }
  | piped {bin : List UInt8} (hserving : s.serving = .piping bin)
      (hroom : s.RawDataPipe.length < pipeCapacity) :
      Steps s .pipe
        { s with
          RawDataPipe := s.RawDataPipe ++ [bin]
          serving := .reading }
  | dropped {bin : List UInt8} (hserving : s.serving = .piping bin)
      (hfull : pipeCapacity ≤ s.RawDataPipe.length) :
      Steps s .pipe { s with dropped := s.dropped + 1, serving := .reading }
  | locked {pkt : List UInt8} {order : List ℕ}
      (hlistening : s.listening = .received pkt)
      (horder : (order : Multiset ℕ) = s.outputs.linked) :
      Steps s (.rangeLinks order)
        { s with
          listening := .writing pkt order
          rounds := s.rounds ++ [⟨pkt, order⟩] }
  | wrote {pkt : List UInt8} {conn : ℕ} {left : List ℕ}
      (hlistening : s.listening = .writing pkt (conn :: left)) :
      Steps s .write
        { s with
          listening := .writing pkt left
          written := s.written ++ [(conn, pkt)] }
  | unlocked {pkt : List UInt8} (hlistening : s.listening = .writing pkt []) :
      Steps s .unlock { s with listening := .idle }
  | changed {event : OutputEvent} {outputs : OutputRun}
      (hlock : event.locks → s.listening.locked = false)
      (hstep : s.outputs.step event = some outputs) :
      Steps s (.outputs event) { s with outputs := outputs }
  | took {data : List UInt8} {pipe : List (List UInt8)}
      (hheld : s.held = none) (hpipe : s.RawDataPipe = data :: pipe) :
      Steps s .take { s with held := some data, RawDataPipe := pipe }
  | processed {data : List UInt8} {p : Packet} {now : Time}
      (hheld : s.held = some data)
      (hdecode : DecodeBytes data = .ok (some p, none)) :
      Steps s (.process now)
        { s.happen (now, .init (.packet p)) with
          held := none
          processed := s.processed ++ [p] }
  | rejected {data : List UInt8} {p : Option Packet} {e : Error}
      {now : Time} (hheld : s.held = some data)
      (hdecode : DecodeBytes data = .ok (p, some e)) :
      Steps s (.process now) { s with held := none }
  | happened {now : Time} {event : VehicleEvent}
      (hother : isPacket event = false) :
      Steps s (.vehicle now event) (s.happen (now, event))

theorem step_cases {s next : FrameRelay} {event : FrameEvent}
    (hstep : s.step event = some next) : Steps s event next := by
  unfold step at hstep
  split at hstep
  · cases hstep
  · cases event with
    | decode =>
        simp only [decode] at hstep
        split at hstep
        next hserving hdecode =>
          cases hstep
          exact .decoded hserving hdecode
        next hserving hdecode =>
          cases hstep
          exact .failed hserving hdecode
        next => cases hstep
    | send =>
        simp only [send] at hstep
        split at hstep
        next hserving hlistening =>
          cases hstep
          exact .sent hserving hlistening
        next => cases hstep
    | pipe =>
        simp only [pipe] at hstep
        split at hstep
        next hserving =>
          split at hstep
          next hroom =>
            cases hstep
            exact .piped hserving hroom
          next hfull =>
            cases hstep
            exact .dropped hserving (not_lt.mp hfull)
        next => cases hstep
    | rangeLinks order =>
        simp only [rangeLinks] at hstep
        split at hstep
        next hlistening =>
          split at hstep
          next horder =>
            cases hstep
            exact .locked hlistening horder
          next => cases hstep
        next => cases hstep
    | write =>
        simp only [write] at hstep
        split at hstep
        next hlistening =>
          cases hstep
          exact .wrote hlistening
        next => cases hstep
    | unlock =>
        simp only [unlock] at hstep
        split at hstep
        next hlistening =>
          cases hstep
          exact .unlocked hlistening
        next => cases hstep
    | outputs event =>
        simp only [change] at hstep
        split at hstep
        next => cases hstep
        next hfree =>
          obtain ⟨outputs, houtputs, rfl⟩ := Option.map_eq_some_iff.mp hstep
          refine .changed (fun hlocks => ?_) houtputs
          rw [hlocks, Bool.true_and] at hfree
          exact Bool.eq_false_iff.mpr hfree
    | take =>
        simp only [take] at hstep
        split at hstep
        next hheld hpipe =>
          cases hstep
          exact .took hheld hpipe
        next => cases hstep
    | process now =>
        simp only [process] at hstep
        split at hstep
        next hheld =>
          split at hstep
          next hdecode =>
            cases hstep
            exact .processed hheld hdecode
          next hdecode =>
            cases hstep
            exact .rejected hheld hdecode
          next => cases hstep
        next => cases hstep
    | vehicle now event =>
        simp only at hstep
        split at hstep
        next => cases hstep
        next hother =>
          cases hstep
          exact .happened (Bool.eq_false_iff.mpr hother)

end FrameRelay

end DronesmithEngine.Fmulink
