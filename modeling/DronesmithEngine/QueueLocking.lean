import DronesmithEngine.RWMutex
import Mathlib.Tactic

/-!
# The lock of the command queue

The methods of the queue in `utils/pqueue.go`, and the processing of a
command acknowledgement, as the calls they make on the queue's lock.  The
acknowledgement holds the lock for reading while it calls `Size` and `Head`,
which take it for reading again.  Goroutines are the elements of any finite
type.
-/

namespace DronesmithEngine.Utils

open RWMutex LabelledRuns

namespace PQueue

def pushLocking : List Op := [.Lock, .Unlock]

def popLocking : List Op := [.Lock, .Unlock]

def headLocking : List Op := [.RLock, .RUnlock]

def sizeLocking : List Op := [.RLock, .RUnlock]

end PQueue

/-- `UpdateFromAck` asks for the head of a queue that is not empty only. -/
def updateFromAckLocking (nonEmpty : Bool) : List Op :=
  PQueue.sizeLocking ++ if nonEmpty then PQueue.headLocking else []

/-- What a goroutine does with the queue. -/
inductive QueueCall
  | push
  | pop
  | head
  | size
  | commandAck (nonEmpty : Bool)

def QueueCall.locking : QueueCall → List Op
  | .push => PQueue.pushLocking
  | .pop => PQueue.popLocking
  | .head => PQueue.headLocking
  | .size => PQueue.sizeLocking
  | .commandAck nonEmpty =>
      [.RLock] ++ updateFromAckLocking nonEmpty ++ [.RUnlock]

/-- A goroutine makes any number of calls, one after the other. -/
def goroutine (calls : List QueueCall) : Thread where
  ops := (calls.map QueueCall.locking).flatten
  held := 0
  status := .running

theorem balanced_locking (call : QueueCall) {ops : List Op}
    (hops : Balanced 0 ops) : Balanced 0 (call.locking ++ ops) := by
  cases call with
  | push => exact hops
  | pop => exact hops
  | head => exact hops
  | size => exact hops
  | commandAck nonEmpty =>
      cases nonEmpty with
      | false => exact hops
      | true => exact hops

theorem balanced_goroutine (calls : List QueueCall) :
    Balanced 0 (goroutine calls).ops := by
  induction calls with
  | nil => trivial
  | cons call calls ih => exact balanced_locking call ih

variable {ι : Type*} [Fintype ι] [DecidableEq ι]

def goroutines (calls : ι → List QueueCall) : ι → Thread :=
  fun i => goroutine (calls i)

/-- As long as no `Push` or `Pop` calls `Lock` while a goroutine holds the
queue's lock for reading and is going to take it again, no state is a
deadlock; and the first such `Lock` leads to one. -/
theorem queue_lock_deadlock (calls : ι → List QueueCall) {events : List ι}
    {s : ι → Thread}
    (hrun : GuardedRun step Undisturbed (goroutines calls) events s) :
    ¬ Deadlock s ∧
      ∀ k next, step s k = some next → ¬ Undisturbed s k →
        ∃ later t, Run step next later t ∧ Deadlock t := by
  have hconsistent : Consistent (goroutines calls) :=
    consistent_of_balanced fun i =>
      ⟨_, balanced_goroutine (calls i), rfl⟩
  have hcalm : Calm (goroutines calls) := by
    intro i hi
    cases hi
  obtain ⟨hs, hfree⟩ :=
    not_deadlock_of_undisturbed hconsistent hcalm hrun
  exact ⟨hfree, fun k next hstep hguard =>
    exists_deadlock_of_disturbed hs hstep hguard⟩

/-- A goroutine that processes an acknowledgement, followed by one that
pushes. -/
theorem queue_lock_deadlock_in_turn :
    ∃ s, Run step
        (goroutines (fun i : Fin 2 =>
          if i = 0 then [.commandAck true] else [.push]))
        [0, 0, 0, 0, 0, 0, 1, 1, 1] s ∧
      ¬ Deadlock s := by
  have hexec : (exec step Undisturbed
      (goroutines (fun i : Fin 2 =>
        if i = 0 then [.commandAck true] else [.push]))
      [0, 0, 0, 0, 0, 0, 1, 1, 1]).isSome := by
    decide
  obtain ⟨s, hrun⟩ := GuardedRun.of_exec_isSome hexec
  exact ⟨s, hrun.run,
    (queue_lock_deadlock (fun i : Fin 2 =>
      if i = 0 then [.commandAck true] else [.push]) hrun).1⟩

/-- `Push` calls `Lock` after the acknowledgement has taken the lock for
reading, and before `Size` takes it again. -/
theorem push_between_read_locks_deadlocks :
    ¬ ∀ events s, Run step
      (goroutines (fun i : Fin 2 =>
        if i = 0 then [.commandAck false] else [.push])) events s →
        ¬ Deadlock s := by
  intro hall
  have hexec : (exec step (fun _ _ => True)
      (goroutines (fun i : Fin 2 =>
        if i = 0 then [.commandAck false] else [.push]))
      [0, 1, 0]).map (fun s => ((s 0).ops.length,
        (List.finRange 2).map fun k => (step s k).isNone)) =
          some (3, [true, true]) := by
    decide
  obtain ⟨s, hrun, heq⟩ := GuardedRun.of_exec_map hexec
  simp only [Prod.mk.injEq] at heq
  obtain ⟨hops, hstuck⟩ := heq
  apply hall _ s hrun
  refine ⟨⟨0, ?_⟩, ?_⟩
  · intro hempty
    rw [hempty] at hops
    cases hops
  · intro k
    have hk : (step s k).isNone ∈
        (List.finRange 2).map fun k => (step s k).isNone :=
      List.mem_map_of_mem (List.mem_finRange k)
    rw [hstuck] at hk
    exact Option.isNone_iff_eq_none.mp (by simpa using hk)

end DronesmithEngine.Utils
