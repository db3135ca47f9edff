import Mathlib.Data.List.Basic
import Mathlib.Tactic

/-!
# Buffered readers and writers

A reader is the bytes it has not yet handed out, followed by end of input.
A writer collects bytes in a buffer of fixed size in front of an underlying
writer.  The underlying writer either never fails or accepts a given number
of further bytes and then fails; after a failure the buffered writer refuses
everything, so nothing finer can be observed of it.
-/

namespace BufferedIO

inductive ReadError
  | eof
  | unexpectedEOF
  deriving DecidableEq, Repr

structure Reader where
  rest : List UInt8
  deriving DecidableEq

namespace Reader

def ReadByte (r : Reader) : Except ReadError UInt8 × Reader :=
  match r.rest with
  | [] => (.error .eof, r)
  | c :: rest => (.ok c, ⟨rest⟩)

def ReadFull (r : Reader) (n : ℕ) : Except ReadError (List UInt8) × Reader :=
  if n ≤ r.rest.length then
    (.ok (r.rest.take n), ⟨r.rest.drop n⟩)
  else if r.rest = [] then
    (.error .eof, r)
  else
    (.error .unexpectedEOF, ⟨[]⟩)

theorem ReadFull_append (bytes rest : List UInt8) {n : ℕ}
    (hlen : bytes.length = n) :
    ReadFull ⟨bytes ++ rest⟩ n = (.ok bytes, ⟨rest⟩) := by
  subst hlen
  simp [ReadFull]

theorem ReadFull_short {r : Reader} {n : ℕ} (hshort : r.rest.length < n) :
    ∃ e, r.ReadFull n = (.error e, ⟨[]⟩) := by
  unfold ReadFull
  rw [if_neg (by omega)]
  by_cases hempty : r.rest = []
  · rw [if_pos hempty]
    exact ⟨.eof, by rw [← hempty]⟩
  · rw [if_neg hempty]
    exact ⟨.unexpectedEOF, rfl⟩

end Reader

inductive WriteError
  | failed
  | shortWrite
  deriving DecidableEq, Repr

/-- A buffered writer: what has reached the underlying writer, what is still
buffered, how many further bytes the underlying writer accepts (`none` if it
never fails), and the error that made the writer refuse further bytes. -/
structure Writer where
  out : List UInt8
  buf : List UInt8
  size : ℕ
  room : Option ℕ
  err : Option WriteError
  deriving DecidableEq

namespace Writer

def Available (w : Writer) : ℕ := w.size - w.buf.length

/-- Hand `p` to the underlying writer; the result counts what it took. -/
def deliver (w : Writer) (p : List UInt8) : ℕ × Writer :=
  match w.room with
  | none => (p.length, { w with out := w.out ++ p })
  | some room =>
      if p.length ≤ room then
        (p.length,
          { w with out := w.out ++ p, room := some (room - p.length) })
      else
        (room,
          { w with
            out := w.out ++ p.take room
            room := some 0
            err := some .failed })

def Flush (w : Writer) : Option WriteError × Writer :=
  match w.err with
  | some e => (some e, w)
  | none =>
      if w.buf = [] then
        (none, w)
      else
        let (n, w') := w.deliver w.buf
        (w'.err, { w' with buf := w.buf.drop n })

/-- The end of `Write`, reached with an empty buffer or with enough room in
it: what does not fit an empty buffer goes straight to the underlying
writer. -/
def writeRest (w : Writer) (p : List UInt8) :
    (ℕ × Option WriteError) × Writer :=
  match w.err with
  | some e => ((0, some e), w)
  | none =>
      if p.length ≤ w.Available then
        ((p.length, none), { w with buf := w.buf ++ p })
      else
        let (n, w') := w.deliver p
        ((n, w'.err), w')

/-- `Write` fills and flushes a buffer that is neither empty nor large
enough; the loop of the original goes round at most twice, because the
flushed buffer is empty. -/
def Write (w : Writer) (p : List UInt8) :
    (ℕ × Option WriteError) × Writer :=
  match w.err with
  | some e => ((0, some e), w)
  | none =>
      if p.length ≤ w.Available ∨ w.buf = [] then
        w.writeRest p
      else
        let head := p.take w.Available
        let (_, w') := { w with buf := w.buf ++ head }.Flush
        let ((n, err), w'') := w'.writeRest (p.drop w.Available)
        ((head.length + n, err), w'')

theorem Write_fits {w : Writer} {p : List UInt8} (herr : w.err = none)
    (hfits : p.length ≤ w.Available) :
    w.Write p = ((p.length, none), { w with buf := w.buf ++ p }) := by
  simp [Write, writeRest, herr, hfits]

theorem Write_failed {w : Writer} {e : WriteError} (herr : w.err = some e)
    (p : List UInt8) : w.Write p = ((0, some e), w) := by
  simp [Write, herr]

theorem Flush_fits {w : Writer} (herr : w.err = none)
    (hfits : ∀ room ∈ w.room, w.buf.length ≤ room) :
    ∃ room, w.Flush =
      (none, { w with out := w.out ++ w.buf, buf := [], room := room }) := by
  cases w with
  | mk out buf size room err =>
      simp only at herr
      subst herr
      by_cases hempty : buf = []
      · exact ⟨room, by simp [Flush, hempty]⟩
      · cases room with
        | none => exact ⟨none, by simp [Flush, deliver, hempty]⟩
        | some room =>
            have hle : buf.length ≤ room := hfits room rfl
            exact ⟨some (room - buf.length),
              by simp [Flush, deliver, hempty, hle]⟩

/-- A writer that takes nothing more fails without delivering anything. -/
theorem Flush_refused {w : Writer} (herr : w.err = none)
    (hroom : w.room = some 0) (hbuf : w.buf ≠ []) :
    w.Flush = (some .failed, { w with err := some .failed }) := by
  cases w with
  | mk out buf size room err =>
      simp only at herr hroom hbuf
      subst herr
      subst hroom
      simp [Flush, deliver, hbuf]

/-- The underlying writer never fails and never did. -/
def Reliable (w : Writer) : Prop := w.room = none ∧ w.err = none

/-- Everything written so far, delivered or still buffered. -/
def stream (w : Writer) : List UInt8 := w.out ++ w.buf

theorem Reliable.flush {w : Writer} (hw : w.Reliable) :
    w.Flush = (none, { w with out := w.out ++ w.buf, buf := [] }) := by
  obtain ⟨hroom, herr⟩ := hw
  cases w with
  | mk out buf size room err =>
      simp only at hroom herr
      subst hroom
      subst herr
      by_cases hempty : buf = []
      · simp [Flush, hempty]
      · simp [Flush, deliver, hempty]

theorem Reliable.writeRest {w : Writer} (hw : w.Reliable)
    (p : List UInt8) :
    ∃ w', w.writeRest p = ((p.length, none), w') ∧ w'.Reliable ∧
      w'.size = w.size ∧
      (w.buf = [] ∨ p.length ≤ w.Available →
        w'.stream = w.stream ++ p) := by
  obtain ⟨hroom, herr⟩ := hw
  by_cases hfits : p.length ≤ w.Available
  · refine ⟨{ w with buf := w.buf ++ p }, ?_, ⟨hroom, herr⟩, rfl, ?_⟩
    · simp [Writer.writeRest, herr, hfits]
    · simp [stream]
  · refine ⟨{ w with out := w.out ++ p }, ?_, ⟨hroom, herr⟩, rfl, ?_⟩
    · simp [Writer.writeRest, herr, hfits, deliver, hroom]
    · intro hempty
      have hbuf : w.buf = [] := hempty.resolve_right hfits
      simp [stream, hbuf]

/-- A writer over a reliable one accepts all of `p`, behind everything
written before. -/
theorem Reliable.write {w : Writer} (hw : w.Reliable) (p : List UInt8) :
    ∃ w', w.Write p = ((p.length, none), w') ∧ w'.Reliable ∧
      w'.size = w.size ∧ w'.stream = w.stream ++ p := by
  have herr := hw.2
  by_cases hdirect : p.length ≤ w.Available ∨ w.buf = []
  · obtain ⟨w', hwrite, hrel, hsize, hstream⟩ := hw.writeRest p
    refine ⟨w', ?_, hrel, hsize, hstream (by tauto)⟩
    simp [Write, herr, hdirect, hwrite]
  · have hfill : ({ w with buf := w.buf ++ p.take w.Available } :
        Writer).Reliable := hw
    obtain ⟨w', hwrite, hrel, hsize, hstream⟩ :=
      Reliable.writeRest (w := { w with
        out := w.out ++ (w.buf ++ p.take w.Available), buf := [] })
        hw (p.drop w.Available)
    refine ⟨w', ?_, hrel, hsize, ?_⟩
    · have hlen : (p.take w.Available).length +
          (p.drop w.Available).length = p.length := by
        rw [← List.length_append, List.take_append_drop]
      have hflush := hfill.flush
      rw [herr] at hflush hwrite
      unfold Write
      rw [herr]
      simp only [hdirect, if_false, hflush, hwrite, hlen]
    · rw [hstream (Or.inl rfl)]
      simp [stream]

/-! ### Calls that succeed -/

theorem deliver_succeeded {w w' : Writer} {p : List UInt8} {n : ℕ}
    (hdeliver : w.deliver p = (n, w')) (herr : w'.err = none) :
    n = p.length ∧ w'.out = w.out ++ p ∧ w'.buf = w.buf := by
  unfold deliver at hdeliver
  split at hdeliver
  next =>
    obtain ⟨rfl, rfl⟩ := Prod.mk.inj hdeliver
    exact ⟨rfl, rfl, rfl⟩
  next =>
    split at hdeliver
    next =>
      obtain ⟨rfl, rfl⟩ := Prod.mk.inj hdeliver
      exact ⟨rfl, rfl, rfl⟩
    next =>
      obtain ⟨rfl, rfl⟩ := Prod.mk.inj hdeliver
      cases herr

theorem Flush_succeeded {w w' : Writer} (hflush : w.Flush = (none, w')) :
    w'.out = w.stream ∧ w'.buf = [] := by
  unfold Flush at hflush
  split at hflush
  next => cases hflush
  next =>
    split at hflush
    next hempty =>
      obtain rfl := (Prod.mk.inj hflush).2
      exact ⟨by rw [stream, hempty, List.append_nil], hempty⟩
    next =>
      rcases hdeliver : w.deliver w.buf with ⟨n, delivered⟩
      rw [hdeliver] at hflush
      obtain ⟨herr, rfl⟩ := Prod.mk.inj hflush
      obtain ⟨rfl, hout, -⟩ := deliver_succeeded hdeliver herr
      exact ⟨hout, List.drop_length⟩

theorem Flush_failed {w w' : Writer} {e : WriteError}
    (hflush : w.Flush = (some e, w')) : w'.err = some e := by
  unfold Flush at hflush
  split at hflush
  next e' herr =>
    obtain ⟨heq, rfl⟩ := Prod.mk.inj hflush
    exact herr.trans heq
  next =>
    split at hflush
    next => cases hflush
    next =>
      rcases hdeliver : w.deliver w.buf with ⟨n, delivered⟩
      rw [hdeliver] at hflush
      obtain ⟨herr, rfl⟩ := Prod.mk.inj hflush
      exact herr

theorem writeRest_succeeded {w w' : Writer} {p : List UInt8} {n : ℕ}
    (hwrite : w.writeRest p = ((n, none), w'))
    (hroom : p.length ≤ w.Available ∨ w.buf = []) :
    w'.stream = w.stream ++ p := by
  unfold writeRest at hwrite
  split at hwrite
  next => cases hwrite
  next =>
    split at hwrite
    next =>
      obtain rfl := (Prod.mk.inj hwrite).2
      simp [stream]
    next hlong =>
      rcases hdeliver : w.deliver p with ⟨taken, delivered⟩
      rw [hdeliver] at hwrite
      obtain ⟨hresult, rfl⟩ := Prod.mk.inj hwrite
      obtain ⟨-, hout, hbuf⟩ :=
        deliver_succeeded hdeliver (Prod.mk.inj hresult).2
      have hempty := hroom.resolve_left hlong
      rw [stream, stream, hout, hbuf, hempty, List.append_nil,
        List.append_nil]

/-- A successful `Write` has put all of `p` behind what was written
before. -/
theorem Write_succeeded {w w' : Writer} {p : List UInt8} {n : ℕ}
    (hwrite : w.Write p = ((n, none), w')) :
    w'.stream = w.stream ++ p := by
  unfold Write at hwrite
  split at hwrite
  next => cases hwrite
  next =>
    split at hwrite
    next hdirect => exact writeRest_succeeded hwrite hdirect
    next =>
      let filled : Writer :=
        { w with buf := w.buf ++ p.take w.Available }
      rcases hflush : filled.Flush with ⟨err, flushed⟩
      rcases hrest : flushed.writeRest (p.drop w.Available) with
        ⟨⟨m, err'⟩, last⟩
      simp only [filled] at hflush
      simp only [hflush, hrest, Prod.mk.injEq] at hwrite
      obtain ⟨⟨-, rfl⟩, rfl⟩ := hwrite
      cases err with
      | some e =>
          have herr := Flush_failed hflush
          simp only [writeRest, herr, Prod.mk.injEq] at hrest
          exact absurd hrest.1.2 (by simp)
      | none =>
          obtain ⟨hout, hempty⟩ := Flush_succeeded hflush
          rw [writeRest_succeeded hrest (Or.inr hempty), stream, hout,
            hempty, List.append_nil, stream, List.append_assoc,
            List.append_assoc, List.take_append_drop, stream,
            List.append_assoc]

end Writer

end BufferedIO
