import DronesmithEngine.GoRuntime
import Mathlib.Tactic

/-!
# Goroutines and buffered channels

A send needs room in the buffer of the channel and a receive a value in it.
The channels here have no other goroutine at their far end, so that a wait has
no end, and the goroutine is blocked.  `Returns` and `Stops` are what a
computation does from every state with some property.
-/

namespace Go

/-- Why a goroutine does not come to its end. -/
inductive Halt
  | panicked (panic : Panic)
  | closedChannel
  | blocked
  deriving DecidableEq

/-- A computation of one goroutine; what it did before it halts remains. -/
abbrev Goroutine (σ : Type) := ExceptT Halt (StateM σ)

namespace Goroutine

variable {σ α β ι : Type}

/-- One step, which halts the goroutine or leaves a new state. -/
def act (f : σ → Except Halt (α × σ)) : Goroutine σ α :=
  ExceptT.mk fun s =>
    match f s with
    | .ok (a, t) => (.ok a, t)
    | .error halt => (.error halt, s)

/-- From each state with `P` the computation returns, and then `Q` holds. -/
def Returns (P : σ → Prop) (x : Goroutine σ α) (Q : α → σ → Prop) : Prop :=
  ∀ s, P s → ∃ a t, x.run.run s = (.ok a, t) ∧ Q a t

/-- From each state with `P` the computation halts. -/
def Stops (P : σ → Prop) (x : Goroutine σ α) (halt : Halt) : Prop :=
  ∀ s, P s → ∃ t, x.run.run s = (.error halt, t)

variable {P : σ → Prop} {x : Goroutine σ α} {f : α → Goroutine σ β}
  {Q : α → σ → Prop} {R : β → σ → Prop} {halt : Halt}

theorem run_bind_of_ok {s t : σ} {a : α} (hx : x.run.run s = (.ok a, t)) :
    (x >>= f).run.run s = (f a).run.run t := by
  rw [ExceptT.run_bind, StateT.run_bind, hx]
  rfl

theorem run_bind_of_error {s t : σ} (hx : x.run.run s = (.error halt, t)) :
    (x >>= f).run.run s = (.error halt, t) := by
  rw [ExceptT.run_bind, StateT.run_bind, hx]
  rfl

theorem run_act_of_ok {g : σ → Except Halt (α × σ)} {s t : σ} {a : α}
    (hstep : g s = .ok (a, t)) : (act g).run.run s = (.ok a, t) := by
  simp only [act, ExceptT.run_mk, StateT.run, hstep]

theorem Returns.pure {a : α} (hQ : ∀ s, P s → Q a s) :
    Returns P (Pure.pure a) Q :=
  fun s hs => ⟨a, s, rfl, hQ s hs⟩

theorem Returns.act {g : σ → Except Halt (α × σ)}
    (hg : ∀ s, P s → ∃ a t, g s = .ok (a, t) ∧ Q a t) :
    Returns P (Goroutine.act g) Q := by
  intro s hs
  obtain ⟨a, t, hstep, hQ⟩ := hg s hs
  exact ⟨a, t, run_act_of_ok hstep, hQ⟩

theorem Returns.bind (hx : Returns P x Q)
    (hf : ∀ a, Returns (Q a) (f a) R) : Returns P (x >>= f) R := by
  intro s hs
  obtain ⟨a, t, hrun, hQ⟩ := hx s hs
  rw [run_bind_of_ok hrun]
  exact hf a t hQ

theorem Stops.throw : Stops P (throw halt : Goroutine σ α) halt :=
  fun s _ => ⟨s, rfl⟩

theorem Stops.bind_left (hx : Stops P x halt) : Stops P (x >>= f) halt := by
  intro s hs
  obtain ⟨t, hrun⟩ := hx s hs
  exact ⟨t, run_bind_of_error hrun⟩

theorem Stops.bind_right (hx : Returns P x Q)
    (hf : ∀ a, Stops (Q a) (f a) halt) : Stops P (x >>= f) halt := by
  intro s hs
  obtain ⟨a, t, hrun, hQ⟩ := hx s hs
  rw [run_bind_of_ok hrun]
  exact hf a t hQ

/-! ## Loops -/

section

variable {body : ι → Goroutine σ Unit} {I : List ι → σ → Prop}
  {all : List ι}

theorem length_before {before after : List ι} {i : ι}
    (hall : all = before ++ i :: after) : before.length < all.length := by
  rw [hall, List.length_append, List.length_cons]
  omega

theorem Returns.loop_from
    (hbody : ∀ before i after, all = before ++ i :: after →
      Returns (I before) (body i) fun _ => I (before ++ [i]))
    (before after : List ι) (hall : all = before ++ after) :
    Returns (I before) (forM after body) fun _ => I all := by
  induction after generalizing before with
  | nil =>
      rw [List.append_nil] at hall
      subst hall
      exact Returns.pure fun _ hs => hs
  | cons i after ih =>
      rw [List.forM_cons]
      apply (hbody before i after hall).bind
      intro _
      apply ih
      rw [hall, List.append_assoc, List.singleton_append]

/-- The invariant is about the elements that the loop has been through. -/
theorem Returns.loop
    (hbody : ∀ before i after, all = before ++ i :: after →
      Returns (I before) (body i) fun _ => I (before ++ [i])) :
    Returns (I []) (forM all body) fun _ => I all :=
  Returns.loop_from hbody [] all rfl

theorem Stops.loop_from {p : ι → Prop}
    (hgood : ∀ before i after, all = before ++ i :: after → p i →
      Returns (I before) (body i) fun _ => I (before ++ [i]))
    (hbad : ∀ before i, ¬ p i → Stops (I before) (body i) halt)
    (before after : List ι) (hall : all = before ++ after)
    (hsome : ∃ i ∈ after, ¬ p i) :
    Stops (I before) (forM after body) halt := by
  induction after generalizing before with
  | nil =>
      obtain ⟨i, hmem, -⟩ := hsome
      cases hmem
  | cons i after ih =>
      rw [List.forM_cons]
      by_cases hi : p i
      · apply Stops.bind_right (hgood before i after hall hi)
        intro _
        apply ih
        · rw [hall, List.append_assoc, List.singleton_append]
        · obtain ⟨j, hmem, hj⟩ := hsome
          rcases List.mem_cons.mp hmem with rfl | hmem
          · exact absurd hi hj
          · exact ⟨j, hmem, hj⟩
      · exact (hbad before i hi).bind_left

/-- A loop halts at the first element that its body halts at. -/
theorem Stops.loop {p : ι → Prop}
    (hgood : ∀ before i after, all = before ++ i :: after → p i →
      Returns (I before) (body i) fun _ => I (before ++ [i]))
    (hbad : ∀ before i, ¬ p i → Stops (I before) (body i) halt)
    (hsome : ∃ i ∈ all, ¬ p i) :
    Stops (I []) (forM all body) halt :=
  Stops.loop_from hgood hbad [] all rfl hsome

end

end Goroutine

/-! ## Channels -/

/-- A channel never holds more values than it has room for. -/
structure Chan (α : Type) (capacity : ℕ) where
  buffer : List α
  closed : Bool
  hcap : buffer.length ≤ capacity

namespace Chan

variable {α : Type} {capacity : ℕ}

/-- `make(chan α, capacity)`. -/
def make (α : Type) (capacity : ℕ) : Chan α capacity where
  buffer := []
  closed := false
  hcap := Nat.zero_le capacity

def send (c : Chan α capacity) (a : α) : Except Halt (Chan α capacity) :=
  if c.closed then .error .closedChannel
  else if hroom : c.buffer.length < capacity then
    .ok
      { c with
        buffer := c.buffer ++ [a]
        hcap := by rw [List.length_append]; exact hroom }
  else .error .blocked

/-- A closed channel goes on to yield zero values when it is empty. -/
def receive [Inhabited α] (c : Chan α capacity) :
    Except Halt (α × Chan α capacity) :=
  match hbuffer : c.buffer with
  | a :: rest =>
      .ok
        (a,
          { c with
            buffer := rest
            hcap :=
              (Nat.le_succ _).trans
                ((congrArg List.length hbuffer).symm.trans_le c.hcap) })
  | [] => if c.closed then .ok (default, c) else .error .blocked

def close (c : Chan α capacity) : Except Halt (Chan α capacity) :=
  if c.closed then .error .closedChannel else .ok { c with closed := true }

/-- The channel is open, and these values wait in it. -/
structure Holds (c : Chan α capacity) (values : List α) : Prop where
  closed : c.closed = false
  buffer : c.buffer = values

variable {c : Chan α capacity} {values : List α}

theorem holds_make : (make α capacity).Holds [] := ⟨rfl, rfl⟩

theorem Holds.send (hc : c.Holds values) (hroom : values.length < capacity)
    (a : α) : ∃ next, c.send a = .ok next ∧ next.Holds (values ++ [a]) := by
  obtain ⟨buffer, closed, hcap⟩ := c
  obtain ⟨hopen, hbuffer⟩ := hc
  subst hopen hbuffer
  exact ⟨_, dif_pos hroom, rfl, rfl⟩

theorem Holds.receive [Inhabited α] {a : α} (hc : c.Holds (a :: values)) :
    ∃ next, c.receive = .ok (a, next) ∧ next.Holds values := by
  obtain ⟨buffer, closed, hcap⟩ := c
  obtain ⟨hopen, hbuffer⟩ := hc
  subst hopen hbuffer
  exact ⟨_, rfl, rfl, rfl⟩

theorem Holds.close (hc : c.Holds values) :
    ∃ next, c.close = .ok next ∧ next.buffer = values := by
  refine ⟨{ c with closed := true }, ?_, hc.buffer⟩
  rw [Chan.close, if_neg (by rw [hc.closed]; decide)]

end Chan

end Go
