import DronesmithEngine.LabelledRuns
import DronesmithEngine.VehicleInit
import Mathlib.Tactic

/-!
# Looking up a parameter by its index

`GetParamByIndex` of `vehicle/vehicle.go` and `GetParamIndex` of
`vehicle/api/api.go`.  A call looks through the parameters once, and then in a
loop, asking for the parameter after each look that fails; between two looks
anything may happen to the vehicle.
-/

namespace DronesmithEngine

open Go Mavlink Api LabelledRuns

abbrev ParamTable := GoMap (List UInt8) Param

/-! ## One look -/

/-- The names of a table, in an order that a range over it may follow. -/
def Ranges (params : ParamTable) (order : List (List UInt8)) : Prop :=
  order.Nodup ∧ order.toFinset = params.keys

instance (params : ParamTable) (order : List (List UInt8)) :
    Decidable (Ranges params order) :=
  inferInstanceAs (Decidable (_ ∧ _))

def GetParamIndex (params : ParamTable) (order : List (List UInt8))
    (id : UInt64) : Option Float32 :=
  ((order.filterMap params.lookup).find? fun e => e.Index = id).map
    Param.Value

def StoresValue (params : ParamTable) (id : UInt64) (value : Float32) :
    Prop :=
  ∃ name e, params.lookup name = some e ∧ e.Index = id ∧ e.Value = value

def StoresIndex (params : ParamTable) (id : UInt64) : Prop :=
  ∃ value, StoresValue params id value

theorem exists_ranges (params : ParamTable) : ∃ order, Ranges params order :=
  ⟨params.keys.toList, params.keys.nodup_toList, params.keys.toList_toFinset⟩

theorem storesValue_of_GetParamIndex {params : ParamTable}
    {order : List (List UInt8)} {id : UInt64} {value : Float32}
    (hfound : GetParamIndex params order id = some value) :
    StoresValue params id value := by
  obtain ⟨e, hfind, hvalue⟩ := Option.map_eq_some_iff.mp hfound
  obtain ⟨name, -, hlookup⟩ :=
    List.mem_filterMap.mp (List.mem_of_find?_eq_some hfind)
  exact ⟨name, e, hlookup, by simpa using List.find?_some hfind, hvalue⟩

theorem not_storesIndex_of_GetParamIndex {params : ParamTable}
    {order : List (List UInt8)} {id : UInt64} (hranges : Ranges params order)
    (hmissing : GetParamIndex params order id = none) :
    ¬ StoresIndex params id := by
  rintro ⟨value, name, e, hlookup, hindex, -⟩
  have hkey : name ∈ params.keys := by
    rw [Finmap.mem_keys, ← Finmap.lookup_isSome, hlookup]
    rfl
  rw [← hranges.2, List.mem_toFinset] at hkey
  have hmem : e ∈ order.filterMap params.lookup :=
    List.mem_filterMap.mpr ⟨name, hkey, hlookup⟩
  have hnone := List.find?_eq_none.mp (Option.map_eq_none_iff.mp hmissing)
    e hmem
  exact hnone (by simpa using hindex)

/-! ## The call -/

inductive IndexPhase
  | first
  | attempt (attempts : ℕ)
  | returned (value : Float32) (err : Option String)

/-- A call, with the vehicle that it is about, the table at its first look,
those at the looks of its loop, and what it has asked for. -/
structure IndexCall where
  id : UInt64
  vehicle : InitVehicle
  now : Time
  phase : IndexPhase
  first : Option ParamTable
  looks : List ParamTable
  requests : List ParamRequestRead

inductive IndexEvent
  | vehicle (event : InitEvent)
  | look (order : List (List UInt8))

namespace IndexCall

def GetParamByIndex (id : UInt64) (vehicle : InitVehicle) (now : Time) :
    IndexCall where
  id := id
  vehicle := vehicle
  now := now
  phase := .first
  first := none
  looks := []
  requests := []

def params (s : IndexCall) : ParamTable := s.vehicle.api.params

def returns (value : Float32) (err : Option String) (s : IndexCall) :
    IndexCall :=
  { s with phase := .returned value err }

def request (s : IndexCall) : IndexCall :=
  let m := s.vehicle.api.RequestParam s.id
  { s with
    vehicle := s.vehicle.sendMAVLink m.Pack
    requests := s.requests ++ [m] }

/-- The look before the loop: a look that fails returns its value, which is
zero, and no error. -/
def lookFirst (found : Option Float32) (s : IndexCall) : IndexCall :=
  let s := { s with first := some s.params }
  match found with
  | none => s.returns 0 none
  | some _ => { s with phase := .attempt 0 }

def lookAgain (attempts : ℕ) (found : Option Float32) (s : IndexCall) :
    IndexCall :=
  let s := { s with looks := s.looks ++ [s.params] }
  match found with
  | some value => s.returns value none
  | none =>
      if 10 < attempts + 1 then
        s.request.returns 0 (some "Could not retrieve param.")
      else { s.request with phase := .attempt (attempts + 1) }

def look (order : List (List UInt8)) (s : IndexCall) : Option IndexCall :=
  let found := GetParamIndex s.params order s.id
  match s.phase with
  | .first => some (s.lookFirst found)
  | .attempt attempts => some (s.lookAgain attempts found)
  | .returned _ _ => none

def step (s : IndexCall) : IndexEvent → Option IndexCall
  | .vehicle event =>
      some
        { s with
          vehicle := s.vehicle.apply s.now event
          now :=
            match event with
            | .wait d => s.now + d
            | _ => s.now }
  | .look order =>
      if Ranges s.params order then s.look order else none

/-! ## What a call has seen and asked for -/

def FirstFound (s : IndexCall) : Prop := ∃ t ∈ s.first, StoresIndex t s.id

/-- So many looks of the loop have failed, each followed by a request. -/
structure Unanswered (s : IndexCall) (n : ℕ) : Prop where
  first : s.FirstFound
  looks : s.looks.length = n
  missing : ∀ t ∈ s.looks, ¬ StoresIndex t s.id
  requests : s.requests.length = n
  asks : ∀ r ∈ s.requests, r.ParamIndex = s.id.toUInt16.toInt16

inductive Progress (s : IndexCall) : IndexPhase → Prop
  | start (hfirst : s.first = none) (hlooks : s.looks = [])
      (hrequests : s.requests = []) : Progress s .first
  | missing {t : ParamTable} (hfirst : s.first = some t)
      (hmissing : ¬ StoresIndex t s.id) (hlooks : s.looks = []) :
      Progress s (.returned 0 none)
  | looking {attempts : ℕ} (hattempts : attempts ≤ 10)
      (hlooks : s.Unanswered attempts) : Progress s (.attempt attempts)
  | found {value : Float32} {t : ParamTable} (hfirst : s.FirstFound)
      (hlast : s.looks.getLast? = some t)
      (hstores : StoresValue t s.id value) :
      Progress s (.returned value none)
  | gaveUp {value : Float32} {err : String} (hlooks : s.Unanswered 11) :
      Progress s (.returned value (some err))

theorem Unanswered.again {s : IndexCall} {n : ℕ} (hs : s.Unanswered n)
    (hmissing : ¬ StoresIndex s.params s.id) {phase : IndexPhase} :
    ({ ({ s with looks := s.looks ++ [s.params] } : IndexCall).request with
      phase := phase } : IndexCall).Unanswered (n + 1) where
  first := hs.first
  looks := by
    change (s.looks ++ [s.params]).length = n + 1
    rw [List.length_append, hs.looks, List.length_singleton]
  missing := by
    intro t ht
    rcases List.mem_append.mp ht with hold | hnew
    · exact hs.missing t hold
    · rw [List.mem_singleton.mp hnew]
      exact hmissing
  requests := by
    change (s.requests ++ [_]).length = n + 1
    rw [List.length_append, hs.requests, List.length_singleton]
  asks := by
    intro r hr
    rcases List.mem_append.mp hr with hold | hnew
    · exact hs.asks r hold
    · rw [List.mem_singleton.mp hnew]
      rfl

theorem lookFirst_progress {s : IndexCall} {order : List (List UInt8)}
    (hlooks : s.looks = []) (hrequests : s.requests = [])
    (hranges : Ranges s.params order) :
    (s.lookFirst (GetParamIndex s.params order s.id)).Progress
      (s.lookFirst (GetParamIndex s.params order s.id)).phase := by
  cases hfound : GetParamIndex s.params order s.id with
  | none =>
      exact .missing rfl (not_storesIndex_of_GetParamIndex hranges hfound)
        hlooks
  | some value =>
      have hstores := storesValue_of_GetParamIndex hfound
      refine .looking (Nat.zero_le 10)
        ⟨⟨s.params, rfl, value, hstores⟩, ?_, ?_, ?_, ?_⟩
      · exact congrArg List.length hlooks
      · intro t ht
        change t ∈ s.looks at ht
        rw [hlooks] at ht
        cases ht
      · exact congrArg List.length hrequests
      · intro r hr
        change r ∈ s.requests at hr
        rw [hrequests] at hr
        cases hr

theorem Unanswered.lookAgain {s : IndexCall} {attempts : ℕ}
    (hs : s.Unanswered attempts) (hattempts : attempts ≤ 10)
    {order : List (List UInt8)} (hranges : Ranges s.params order) :
    (s.lookAgain attempts (GetParamIndex s.params order s.id)).Progress
      (s.lookAgain attempts (GetParamIndex s.params order s.id)).phase := by
  cases hfound : GetParamIndex s.params order s.id with
  | none =>
      have hmissing := not_storesIndex_of_GetParamIndex hranges hfound
      simp only [IndexCall.lookAgain]
      split
      next hlast =>
        obtain rfl : attempts = 10 := by omega
        exact .gaveUp (hs.again hmissing)
      next hmore => exact .looking (by omega) (hs.again hmissing)
  | some value =>
      exact .found hs.first (by simp [IndexCall.lookAgain, returns])
        (storesValue_of_GetParamIndex hfound)

theorem Progress.look {s next : IndexCall} {order : List (List UInt8)}
    (hs : s.Progress s.phase) (hranges : Ranges s.params order)
    (hlook : s.look order = some next) : next.Progress next.phase := by
  unfold IndexCall.look at hlook
  generalize hphase : s.phase = phase at hs hlook
  cases hs with
  | start hfirst hlooks hrequests =>
      cases hlook
      exact lookFirst_progress hlooks hrequests hranges
  | looking hattempts hlooks =>
      cases hlook
      exact hlooks.lookAgain hattempts hranges
  | missing => cases hlook
  | found => cases hlook
  | gaveUp => cases hlook

/-- What happens to the vehicle leaves the call as it is. -/
theorem Progress.vehicle {s : IndexCall} (hs : s.Progress s.phase)
    (vehicle : InitVehicle) (now : Time) :
    ({ s with vehicle := vehicle, now := now } : IndexCall).Progress
      s.phase := by
  generalize s.phase = phase at hs ⊢
  cases hs with
  | start hfirst hlooks hrequests => exact .start hfirst hlooks hrequests
  | missing hfirst hmissing hlooks => exact .missing hfirst hmissing hlooks
  | looking hattempts hlooks =>
      exact .looking hattempts
        ⟨hlooks.first, hlooks.looks, hlooks.missing, hlooks.requests,
          hlooks.asks⟩
  | found hfirst hlast hstores => exact .found hfirst hlast hstores
  | gaveUp hlooks =>
      exact .gaveUp
        ⟨hlooks.first, hlooks.looks, hlooks.missing, hlooks.requests,
          hlooks.asks⟩

theorem Progress.step {s next : IndexCall} {event : IndexEvent}
    (hs : s.Progress s.phase) (hstep : s.step event = some next) :
    next.Progress next.phase := by
  cases event with
  | vehicle event =>
      cases hstep
      exact hs.vehicle _ _
  | look order =>
      simp only [IndexCall.step] at hstep
      split at hstep
      next hranges => exact hs.look hranges hstep
      next => cases hstep

/-- The call is about this index, and what it has seen fits where it is. -/
structure Sound (s : IndexCall) (id : UInt64) : Prop where
  id_eq : s.id = id
  progress : s.Progress s.phase

theorem lookAgain_id (attempts : ℕ) (found : Option Float32)
    (s : IndexCall) : (s.lookAgain attempts found).id = s.id := by
  unfold lookAgain
  cases found with
  | some value => rfl
  | none =>
      simp only
      split <;> rfl

theorem step_id {s next : IndexCall} {event : IndexEvent}
    (hstep : s.step event = some next) : next.id = s.id := by
  cases event with
  | vehicle event => cases hstep; rfl
  | look order =>
      simp only [IndexCall.step, IndexCall.look] at hstep
      split at hstep
      next =>
        cases hphase : s.phase with
        | first =>
            rw [hphase] at hstep
            cases hstep
            cases GetParamIndex s.params order s.id <;> rfl
        | attempt attempts =>
            rw [hphase] at hstep
            cases hstep
            exact lookAgain_id _ _ s
        | returned value err =>
            rw [hphase] at hstep
            cases hstep
      next => cases hstep

theorem sound_of_run {id : UInt64} {vehicle : InitVehicle} {now : Time}
    {events : List IndexEvent} {s : IndexCall}
    (hrun : Run step (GetParamByIndex id vehicle now) events s) :
    s.Sound id := by
  have hkeep (s : IndexCall) (event : IndexEvent) (next : IndexCall)
      (hs : s.Sound id) (_ : True) (hstep : s.step event = some next) :
      next.Sound id :=
    ⟨(step_id hstep).trans hs.id_eq, hs.progress.step hstep⟩
  exact hrun.invariant hkeep ⟨rfl, .start rfl rfl rfl⟩

/-! ## Answers -/

/-- The table at the last look. -/
def lastTable (s : IndexCall) : Option ParamTable :=
  s.looks.getLast?.or s.first

/-- A value without an error is the value of a parameter with the index, as
stored at the last look.  Where no look of the loop finds one, each is
followed by a request for the same index, and then the call fails. -/
structure Answers (s : IndexCall) (value : Float32) (err : Option String) :
    Prop where
  stored : err = none → ∃ t ∈ s.lastTable, StoresValue t s.id value
  failed : (∀ t ∈ s.looks, ¬ StoresIndex t s.id) →
    err ≠ none ∧ s.looks.length = 11 ∧ s.requests.length = 11 ∧
      ∀ r ∈ s.requests, r.ParamIndex.toInt = s.id.toNat

/-- The parameter is there at the first look; and it is there at another one,
or its index fits a request. -/
structure Answerable (s : IndexCall) : Prop where
  first : s.FirstFound
  fits : s.id.toNat < 2 ^ 15 ∨ ∃ t ∈ s.looks, StoresIndex t s.id

theorem requested_index_iff (id : UInt64) :
    id.toUInt16.toInt16.toInt = id.toNat ↔ id.toNat < 2 ^ 15 := by
  have hcond := BitVec.toInt_eq_toNat_cond id.toUInt16.toBitVec
  have hmod : id.toUInt16.toBitVec.toNat = id.toNat % 2 ^ 16 := rfl
  have hint : id.toUInt16.toInt16.toInt = id.toUInt16.toBitVec.toInt := rfl
  rw [hint, hcond, hmod]
  have hlt := id.toNat_lt
  split <;> omega

theorem answers_iff {s : IndexCall} {value : Float32} {err : Option String}
    (hs : s.Progress (.returned value err)) :
    s.Answers value err ↔ s.Answerable := by
  cases hs with
  | missing hfirst hmissing hlooks =>
      apply iff_of_false
      · intro hanswers
        obtain ⟨t, ht, hstores⟩ := hanswers.stored rfl
        rw [lastTable, hlooks, hfirst] at ht
        cases ht
        exact hmissing ⟨_, hstores⟩
      · rintro ⟨⟨t, ht, hstores⟩, -⟩
        rw [hfirst] at ht
        cases ht
        exact hmissing hstores
  | @found _ t hfirst hlast hstores =>
      have hmem : t ∈ s.looks := List.mem_of_getLast? hlast
      apply iff_of_true
      · refine ⟨fun _ => ⟨t, ?_, hstores⟩, fun hnone => ?_⟩
        · rw [lastTable, hlast]
          rfl
        · exact absurd ⟨value, hstores⟩ (hnone t hmem)
      · exact ⟨hfirst, Or.inr ⟨t, hmem, value, hstores⟩⟩
  | gaveUp hlooks =>
      constructor
      · intro hanswers
        obtain ⟨-, -, hlength, hindex⟩ := hanswers.failed hlooks.missing
        obtain ⟨r, hr⟩ := List.exists_mem_of_length_pos
          (Nat.lt_of_lt_of_eq (by decide) hlength.symm)
        refine ⟨hlooks.first, Or.inl ((requested_index_iff s.id).mp ?_)⟩
        rw [← hlooks.asks r hr, hindex r hr]
      · rintro ⟨-, hfits | ⟨t, ht, hstores⟩⟩
        · refine ⟨nofun, fun _ => ⟨nofun, hlooks.looks, hlooks.requests,
            fun r hr => ?_⟩⟩
          rw [hlooks.asks r hr, requested_index_iff]
          exact hfits
        · exact absurd hstores (hlooks.missing t ht)

def Returned (s : IndexCall) : Prop :=
  ∃ value err, s.phase = .returned value err

theorem look_enabled {s : IndexCall} (hs : ¬ s.Returned) :
    ∃ order next, s.step (.look order) = some next := by
  obtain ⟨order, hranges⟩ := exists_ranges s.params
  have hstep : s.step (.look order) = s.look order := if_pos hranges
  refine ⟨order, ?_⟩
  rw [hstep, look]
  cases hphase : s.phase with
  | first => exact ⟨_, rfl⟩
  | attempt attempts => exact ⟨_, rfl⟩
  | returned value err => exact absurd ⟨value, err, hphase⟩ hs

/-- A call answers as it should exactly when the parameter was answerable,
and it answers after twelve looks at most. -/
theorem GetParamByIndex_answers_iff {id : UInt64} {vehicle : InitVehicle}
    {now : Time} {events : List IndexEvent} {s : IndexCall}
    (hrun : Run step (GetParamByIndex id vehicle now) events s) :
    s.id = id ∧
    (∀ value err, s.phase = .returned value err →
      (s.Answers value err ↔ s.Answerable)) ∧
    (¬ s.Returned → s.looks.length ≤ 10 ∧
      ∃ order next, s.step (.look order) = some next) := by
  have hs := sound_of_run hrun
  have hprogress := hs.progress
  refine ⟨hs.id_eq, fun value err hphase => ?_, fun hnot => ⟨?_, ?_⟩⟩
  · rw [hphase] at hprogress
    exact answers_iff hprogress
  · generalize hphase : s.phase = phase at hprogress
    cases hprogress with
    | start hfirst hlooks hrequests => rw [hlooks]; exact Nat.zero_le 10
    | looking hattempts hlooks => rw [hlooks.looks]; exact hattempts
    | missing => exact absurd ⟨_, _, hphase⟩ hnot
    | found => exact absurd ⟨_, _, hphase⟩ hnot
    | gaveUp => exact absurd ⟨_, _, hphase⟩ hnot
  · exact look_enabled hnot

/-- The call returned a value, and these entries of the name `A` are in the
tables that it has looked through. -/
def shown (s : IndexCall) : Bool × Option (Option UInt64) :=
  (match s.phase with
    | .returned _ none => true
    | _ => false,
    s.first.map fun t => (t.lookup [65]).map Param.Index)

/-- A vehicle with one parameter is asked for it. -/
theorem GetParamByIndex_answers_iff_single :
    ∃ s, Run step
        (GetParamByIndex 0 (.NewVehicle (NewEncoder none) 0) 0)
        [.vehicle (.packet (paramPacket 1 0 65)), .look [[65]],
          .look [[65]]] s ∧
      ∃ value, s.phase = .returned value none ∧ s.Answers value none := by
  have hexec : (exec step (fun _ _ => True)
      (GetParamByIndex 0 (.NewVehicle (NewEncoder none) 0) 0)
      [.vehicle (.packet (paramPacket 1 0 65)), .look [[65]],
        .look [[65]]]).map shown = some (true, some (some 0)) := by
    decide
  obtain ⟨s, hrun, heq⟩ := GuardedRun.of_exec_map hexec
  obtain ⟨hid, hanswers, -⟩ := GetParamByIndex_answers_iff hrun
  simp only [shown, Prod.mk.injEq, Option.map_eq_some_iff] at heq
  obtain ⟨hreturned, t, hfirst, e, hlookup, hindex⟩ := heq
  split at hreturned
  next value hphase =>
    refine ⟨s, hrun, value, hphase, (hanswers _ _ hphase).mpr ⟨?_, ?_⟩⟩
    · exact ⟨t, hfirst, e.Value, [65], e, hlookup, hid ▸ hindex, rfl⟩
    · exact Or.inl (by rw [hid]; decide)
  next => cases hreturned

/-- A parameter that was never received has the value zero, and no request is
sent for it. -/
theorem missing_parameter_is_zero :
    ¬ ∀ id events s,
      Run step (GetParamByIndex id (.NewVehicle (NewEncoder none) 0) 0)
          events s →
        ∀ value err, s.phase = .returned value err →
          s.Answers value err := by
  intro hall
  have hexec : (exec step (fun _ _ => True)
      (GetParamByIndex 5 (.NewVehicle (NewEncoder none) 0) 0)
      [.look []]).map (fun s => (shown s, s.looks.length)) =
        some ((true, some none), 0) := by
    decide
  obtain ⟨s, hrun, heq⟩ := GuardedRun.of_exec_map hexec
  simp only [shown, Prod.mk.injEq, List.length_eq_zero_iff] at heq
  obtain ⟨⟨hreturned, -⟩, hlooks⟩ := heq
  split at hreturned
  next value hphase =>
    have hanswers := hall 5 _ s hrun value none hphase
    have hfailed := hanswers.failed (by rw [hlooks]; simp)
    exact hfailed.1 rfl
  next => cases hreturned

end IndexCall

end DronesmithEngine
