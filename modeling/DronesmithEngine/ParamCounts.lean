import DronesmithEngine.LabelledRuns
import DronesmithEngine.VehicleInit
import Mathlib.Tactic

/-!
# Counts of received parameters

`GetAllParams` computes the number of parameters found from the list
`missingParams`, which only the state handler fills and only `RefreshParams`
empties.  A run records the count that the vehicle reported last, which nothing
takes back, and for each call of `handleRefreshParams` the indices received
since it began.
-/

namespace DronesmithEngine

open Go Mavlink Api LabelledRuns

/-- The indices below the total that a stored parameter has. -/
def InitProgress.found (g : InitProgress) : List ℕ :=
  (List.range g.totalParams.toNat).filter fun i =>
    UInt64.ofNat i ∈ g.foundSet

inductive RefreshReply
  | ok (total : UInt64)
  | failed
  deriving DecidableEq

structure RefreshCall where
  received : Finset UInt64
  attempts : ℕ
  /-- The reply, and the count that the vehicle had reported by then. -/
  answer : Option (RefreshReply × UInt64)

namespace RefreshCall

def new : RefreshCall := ⟨∅, 0, none⟩

def receive (call : RefreshCall) (i : UInt64) : RefreshCall :=
  if call.answer.isNone then
    { call with received := insert i call.received }
  else call

/-- One turn of the loop in `handleRefreshParams`. -/
def poll (call : RefreshCall) (v : InitVehicle) (reported : UInt64) :
    RefreshCall :=
  let (c, t, _) := v.GetAllParams
  if t ≤ c then { call with answer := some (.ok t, reported) }
  else
    let attempts := call.attempts + 1
    if 20 < attempts then
      { call with attempts := attempts, answer := some (.failed, reported) }
    else { call with attempts := attempts }

def HasAll (call : RefreshCall) (count : UInt64) : Prop :=
  ∀ i < count.toNat, UInt64.ofNat i ∈ call.received

instance (call : RefreshCall) (count : UInt64) :
    Decidable (call.HasAll count) :=
  inferInstanceAs (Decidable (∀ i < count.toNat, _))

/-- `OK` is answered only when every index was received since the call. -/
def Right (call : RefreshCall) : Prop :=
  ∀ total count, call.answer = some (.ok total, count) → call.HasAll count

theorem Right.receive {call : RefreshCall} (hright : call.Right)
    (i : UInt64) : (call.receive i).Right := by
  unfold RefreshCall.receive
  split
  next hopen =>
    intro total count hanswer
    simp only [Option.isNone_iff_eq_none] at hopen
    simp only [hopen] at hanswer
    cases hanswer
  next => exact hright

theorem poll_received (call : RefreshCall) (v : InitVehicle)
    (reported : UInt64) :
    (call.poll v reported).received = call.received := by
  unfold poll
  simp only
  split
  · rfl
  · split <;> rfl

theorem poll_right_iff {call : RefreshCall} (hopen : call.answer = none)
    (v : InitVehicle) (reported : UInt64) :
    (call.poll v reported).Right ↔
      (v.GetAllParams.2.1 ≤ v.GetAllParams.1 → call.HasAll reported) := by
  unfold RefreshCall.poll
  simp only
  split
  next hle =>
    constructor
    · intro hright _
      exact hright v.GetAllParams.2.1 reported rfl
    · intro hall total count hanswer
      obtain ⟨-, rfl⟩ := Prod.mk.inj (Option.some.inj hanswer)
      exact hall hle
  next hlt =>
    refine iff_of_true ?_ (fun hle => absurd hle hlt)
    intro total count hanswer
    split at hanswer
    · cases hanswer
    · simp [hopen] at hanswer

end RefreshCall

structure ParamRun where
  vehicle : InitVehicle
  now : Time
  reported : UInt64
  calls : List RefreshCall

inductive ParamEvent
  | vehicle (event : InitEvent)
  | refresh
  | poll (k : ℕ)

namespace ParamRun

def initial (writer : Encoder) (now : Time) : ParamRun where
  vehicle := .NewVehicle writer now
  now := now
  reported := 0
  calls := []

def receive (s : ParamRun) : Message → ParamRun
  | .paramValue m =>
      { s with
        reported := m.ParamCount.toUInt64
        calls := s.calls.map (·.receive m.ParamIndex.toUInt64) }
  | _ => s

def receivePacket (s : ParamRun) (p : Packet) : ParamRun :=
  match wholeMessage p with
  | some m => s.receive m
  | none => s

def vehicleStep (s : ParamRun) (event : InitEvent) : Option ParamRun :=
  let next := { s with vehicle := s.vehicle.apply s.now event }
  match event with
  | .wait d => some { next with now := s.now + d }
  | .packet p =>
      if p.Payload.length < payloadSize p.MsgID then none
      else some (next.receivePacket p)
  | _ => some next

def step (s : ParamRun) : ParamEvent → Option ParamRun
  | .vehicle event => s.vehicleStep event
  | .refresh =>
      some
        { s with
          vehicle := s.vehicle.RefreshParams
          calls := s.calls ++ [.new] }
  | .poll k => do
      let call ← s.calls[k]?
      if call.answer.isSome then none
      else
        some
          { s with calls := s.calls.set k (call.poll s.vehicle s.reported) }

/-- The first number that `GetAllParams` returns is that of the parameters
found, so it is at most the second, and no subtraction wrapped. -/
structure CountsFound (v : InitVehicle) : Prop where
  found : v.GetAllParams.1.toNat = v.progress.found.length
  le_total : v.GetAllParams.1 ≤ v.GetAllParams.2.1
  unwrapped : (v.GetAllParams.1.toNat : ℤ) =
    int v.progress.totalParams - v.missingParams.length

structure Truthful (s : ParamRun) : Prop where
  counts : CountsFound s.vehicle
  replies : ∀ call ∈ s.calls, call.Right

/-- No parameter changes how many of the indices below the count are not
stored; a vehicle is scrubbed only while `missingParams` is empty; and no
call looks at a count that was reset to zero, unless it has received all
parameters that the vehicle had reported. -/
def Steady (s : ParamRun) : ParamEvent → Prop
  | .vehicle (.packet p) =>
      (s.vehicle.progress.receivePacket p).notFound.length =
        s.vehicle.progress.notFound.length
  | .vehicle .scrub => s.vehicle.missingParams = []
  | .vehicle .stateHandler =>
      ¬ s.vehicle.progress.online → s.vehicle.missingParams = []
  | .poll k =>
      s.vehicle.progress.totalParams = 0 →
        ∀ call ∈ s.calls[k]?, call.HasAll s.reported
  | _ => True

instance (s : ParamRun) : ∀ event, Decidable (s.Steady event)
  | .vehicle (.packet _) => inferInstanceAs (Decidable (_ = _))
  | .vehicle .scrub => inferInstanceAs (Decidable (_ = _))
  | .vehicle .stateHandler => inferInstanceAs (Decidable (_ → _))
  | .vehicle (.wait _) => .isTrue trivial
  | .vehicle (.command _ _) => .isTrue trivial
  | .vehicle .checkSysOnline => .isTrue trivial
  | .vehicle .refreshParams => .isTrue trivial
  | .refresh => .isTrue trivial
  | .poll _ => inferInstanceAs (Decidable (_ → _))

/-! ## Found and not found -/

theorem found_add_notFound {g : InitProgress} (hg : g.Valid) :
    g.found.length + g.notFound.length = g.totalParams.toNat := by
  have hsplit := List.length_eq_length_filter_add
    (l := List.range g.totalParams.toNat)
    (fun i => decide (UInt64.ofNat i ∈ g.foundSet))
  simp only [List.length_range] at hsplit
  simp only [InitProgress.found, InitProgress.notFound,
    InitVehicle.notFound, hg.int_totalParams, Int.toNat_natCast]
  simpa using hsplit.symm

/-- What holds of a vehicle in every run. -/
structure Bounded (v : InitVehicle) : Prop where
  valid : v.progress.Valid
  missing : v.missingParams.length < 2 ^ 16

/-- The counts are right exactly when `missingParams` is as long as the list
of the parameters that are missing. -/
theorem countsFound_iff {v : InitVehicle} (hv : Bounded v) :
    CountsFound v ↔
      v.missingParams.length = v.progress.notFound.length := by
  have hsum := found_add_notFound hv.valid
  have hsmall := hv.valid.small
  have hmissing := hv.missing
  have hcurrent : (v.GetAllParams.1.toNat : ℤ) =
      (v.progress.totalParams.toNat - v.missingParams.length) % 2 ^ 64 := by
    rw [← hv.valid.int_totalParams]
    exact toNat_uint _
  constructor
  · intro hcounts
    have hfound := hcounts.found
    have hexact := hcounts.unwrapped
    rw [hv.valid.int_totalParams] at hexact
    omega
  · intro hlength
    have hfound : v.GetAllParams.1.toNat = v.progress.found.length := by
      omega
    refine ⟨hfound, ?_, ?_⟩
    · rw [UInt64.le_iff_toNat_le, hfound]
      exact (Nat.le_add_right _ _).trans_eq hsum
    · rw [hv.valid.int_totalParams]
      omega

/-! ## What holds in every run -/

structure Tracked (s : ParamRun) : Prop where
  bounded : Bounded s.vehicle
  reported : s.vehicle.progress.totalParams = s.reported ∨
    s.vehicle.progress.totalParams = 0
  received : ∀ call ∈ s.calls, call.answer = none →
    ∀ i ∈ s.vehicle.progress.foundSet, i ∈ call.received

theorem initial_tracked (writer : Encoder) (now : Time) :
    (initial writer now).Tracked where
  bounded :=
    ⟨InitProgress.scrub_valid (initial writer now).vehicle.progress,
      by simp [initial, InitVehicle.NewVehicle]⟩
  reported := Or.inl rfl
  received call hcall := by cases hcall

/-- After a reset nothing is stored and nothing has to be received yet. -/
theorem Tracked.reset {s : ParamRun} (hs : s.Tracked) {v : InitVehicle}
    (hvalid : v.progress.Valid) (hparams : v.progress.params = ∅)
    (htotal : v.progress.totalParams = 0)
    (hmissing : v.missingParams.length ≤ s.vehicle.missingParams.length)
    (calls : List RefreshCall) :
    Tracked { s with vehicle := v, calls := calls } where
  bounded := ⟨hvalid, hmissing.trans_lt hs.bounded.missing⟩
  reported := Or.inr htotal
  received call hcall hopen i hi := by
    rw [InitProgress.foundSet_empty hparams] at hi
    cases hi

theorem Tracked.scrub {s : ParamRun} (hs : s.Tracked) :
    Tracked { s with vehicle := s.vehicle.Scrub } :=
  hs.reset (v := s.vehicle.Scrub) s.vehicle.progress.scrub_valid rfl rfl
    le_rfl s.calls

theorem Tracked.refresh {s : ParamRun} (hs : s.Tracked)
    (calls : List RefreshCall) :
    Tracked { s with vehicle := s.vehicle.RefreshParams, calls := calls } :=
  hs.reset (v := s.vehicle.RefreshParams)
    s.vehicle.progress.resetParams_valid rfl rfl (Nat.zero_le _) calls

/-- Nothing changes for the counts as long as the parameters stay. -/
theorem Tracked.keep {s : ParamRun} (hs : s.Tracked) {v : InitVehicle}
    (hvalid : v.progress.Valid)
    (hparams : v.progress.params = s.vehicle.progress.params)
    (htotal : v.progress.totalParams = s.vehicle.progress.totalParams)
    (hmissing : v.missingParams.length < 2 ^ 16) :
    Tracked { s with vehicle := v } where
  bounded := ⟨hvalid, hmissing⟩
  reported := by
    rw [htotal]
    exact hs.reported
  received call hcall hopen i hi := by
    rw [InitProgress.foundSet, hparams] at hi
    exact hs.received call hcall hopen i hi

theorem Tracked.keepProgress {s : ParamRun} (hs : s.Tracked)
    {v : InitVehicle} (hprogress : v.progress = s.vehicle.progress)
    (hmissing : v.missingParams.length < 2 ^ 16) :
    Tracked { s with vehicle := v } := by
  apply hs.keep _ (congrArg InitProgress.params hprogress)
    (congrArg InitProgress.totalParams hprogress) hmissing
  rw [hprogress]
  exact hs.bounded.valid

theorem Tracked.receive {s : ParamRun} (hs : s.Tracked) (m : Message)
    {v : InitVehicle}
    (hprogress : v.progress = s.vehicle.progress.receive m)
    (hmissing : v.missingParams = s.vehicle.missingParams) :
    (({ s with vehicle := v } : ParamRun).receive m).Tracked := by
  have hvalid : v.progress.Valid := by
    rw [hprogress]
    exact hs.bounded.valid.receive m
  have hsmall : v.missingParams.length < 2 ^ 16 := by
    rw [hmissing]
    exact hs.bounded.missing
  cases m with
  | paramValue m =>
      refine ⟨⟨hvalid, hsmall⟩, Or.inl ?_, ?_⟩
      · exact (congrArg InitProgress.totalParams hprogress).trans rfl
      · intro call hcall hopen i hi
        simp only [ParamRun.receive, List.mem_map] at hcall hi
        obtain ⟨old, hold, rfl⟩ := hcall
        have hunanswered : old.answer = none := by
          unfold RefreshCall.receive at hopen
          split at hopen <;> exact hopen
        simp only [RefreshCall.receive, hunanswered, Option.isNone_none,
          if_true]
        rw [hprogress] at hi
        rcases InitProgress.mem_foundSet_paramValue hi with rfl | hstored
        · exact Finset.mem_insert_self _ _
        · exact Finset.mem_insert_of_mem
            (hs.received old hold hunanswered i hstored)
  | _ =>
      exact hs.keep hvalid ((congrArg InitProgress.params hprogress).trans rfl)
        ((congrArg InitProgress.totalParams hprogress).trans rfl) hsmall

theorem Tracked.packet {s : ParamRun} (hs : s.Tracked) (p : Packet) :
    (({ s with vehicle := s.vehicle.apply s.now (.packet p) } :
      ParamRun).receivePacket p).Tracked := by
  have hprogress := s.vehicle.packet_progress p s.now
  unfold InitProgress.receivePacket at hprogress
  unfold ParamRun.receivePacket
  cases hm : wholeMessage p with
  | none =>
      rw [hm] at hprogress
      exact hs.keepProgress hprogress hs.bounded.missing
  | some m =>
      rw [hm] at hprogress
      exact hs.receive m hprogress rfl

theorem Tracked.checkSysOnline {s : ParamRun} (hs : s.Tracked) :
    Tracked
      { s with vehicle := s.vehicle.apply s.now .checkSysOnline } := by
  rcases s.vehicle.checkSysOnline_progress s.now with hsame | hoffline
  · exact hs.keepProgress hsame hs.bounded.missing
  · have hold := hs.bounded.valid
    have hvalid : (s.vehicle.apply s.now .checkSysOnline).progress.Valid := by
      rw [hoffline]
      exact ⟨hold.small, hold.empty⟩
    exact hs.keep hvalid ((congrArg InitProgress.params hoffline).trans rfl)
      ((congrArg InitProgress.totalParams hoffline).trans rfl)
      hs.bounded.missing

theorem Tracked.stateHandler {s : ParamRun} (hs : s.Tracked)
    {action : StateAction} {v : InitVehicle}
    (hv : StateStep s.vehicle s.now action v) :
    Tracked { s with vehicle := v } := by
  cases hv with
  | scrubbed hoffline => exact hs.scrub
  | forced hw hready hmissing hforced htime =>
      refine hs.keepProgress ?_ ?_
      · exact congrArg VehicleApi.progress hw
      · have hsum := found_add_notFound hs.bounded.valid
        have hsmall := hs.bounded.valid.small
        simp only
        omega
  | _ hw =>
      refine hs.keepProgress ?_ hs.bounded.missing
      exact congrArg VehicleApi.progress hw

theorem Tracked.vehicleStep {s next : ParamRun} {event : InitEvent}
    (hs : s.Tracked) (hstep : s.vehicleStep event = some next) :
    next.Tracked := by
  cases event with
  | wait d =>
      rw [← Option.some.inj hstep]
      exact ⟨hs.bounded, hs.reported, hs.received⟩
  | packet p =>
      simp only [ParamRun.vehicleStep] at hstep
      split at hstep
      · cases hstep
      · rw [← Option.some.inj hstep]
        exact hs.packet p
  | command Command op =>
      rw [← Option.some.inj hstep]
      exact hs.keepProgress rfl hs.bounded.missing
  | checkSysOnline =>
      rw [← Option.some.inj hstep]
      exact hs.checkSysOnline
  | scrub =>
      rw [← Option.some.inj hstep]
      exact hs.scrub
  | refreshParams =>
      rw [← Option.some.inj hstep]
      exact hs.refresh s.calls
  | stateHandler =>
      rw [← Option.some.inj hstep]
      exact hs.stateHandler (s.vehicle.stateHandler_step s.now)

theorem poll_cases {s next : ParamRun} {k : ℕ}
    (hstep : s.step (.poll k) = some next) :
    ∃ call, s.calls[k]? = some call ∧ call.answer = none ∧
      next =
        { s with
          calls := s.calls.set k (call.poll s.vehicle s.reported) } := by
  simp only [ParamRun.step, Option.bind_eq_bind,
    Option.bind_eq_some_iff] at hstep
  obtain ⟨call, hcall, hstep⟩ := hstep
  split at hstep
  next => cases hstep
  next hopen =>
    refine ⟨call, hcall, ?_, (Option.some.inj hstep).symm⟩
    simpa using hopen

theorem Tracked.step {s next : ParamRun} {event : ParamEvent}
    (hs : s.Tracked) (hstep : s.step event = some next) : next.Tracked := by
  cases event with
  | vehicle event => exact hs.vehicleStep hstep
  | refresh =>
      rw [← Option.some.inj hstep]
      exact hs.refresh _
  | poll k =>
      obtain ⟨call, hcall, hopen, rfl⟩ := poll_cases hstep
      refine ⟨hs.bounded, hs.reported, ?_⟩
      intro other hother hstill i hi
      rcases List.mem_or_eq_of_mem_set hother with hold | rfl
      · exact hs.received other hold hstill i hi
      · rw [RefreshCall.poll_received]
        exact hs.received call (List.mem_of_getElem? hcall) hopen i hi

/-! ## What keeps the counts right -/

theorem truthful_iff {s : ParamRun} (hs : s.Tracked) :
    s.Truthful ↔
      s.vehicle.missingParams.length =
          s.vehicle.progress.notFound.length ∧
        ∀ call ∈ s.calls, call.Right := by
  rw [← countsFound_iff hs.bounded]
  exact ⟨fun ht => ⟨ht.counts, ht.replies⟩, fun h => ⟨h.1, h.2⟩⟩

theorem notFound_of_zero {g : InitProgress} (hzero : g.totalParams = 0) :
    g.notFound = [] := by
  have hint : int 0 = 0 := by decide
  simp [InitProgress.notFound, InitVehicle.notFound, hzero, hint]

theorem receivePacket_right {s : ParamRun}
    (hright : ∀ call ∈ s.calls, call.Right) (p : Packet) :
    ∀ call ∈ (s.receivePacket p).calls, call.Right := by
  unfold receivePacket
  cases wholeMessage p with
  | none => exact hright
  | some m =>
      cases m with
      | paramValue m =>
          intro call hcall
          obtain ⟨old, hold, rfl⟩ := List.mem_map.mp hcall
          exact (hright old hold).receive _
      | _ => exact hright

theorem receivePacket_vehicle (s : ParamRun) (p : Packet) :
    (s.receivePacket p).vehicle = s.vehicle := by
  unfold receivePacket
  cases wholeMessage p with
  | none => rfl
  | some m => cases m <;> rfl

variable {s next : ParamRun}

/-- A step that leaves `missingParams` and the answers alone keeps the
counts right exactly if it keeps the number of missing parameters. -/
theorem Truthful.iff_of_missing (ht : s.Truthful) (hs : s.Tracked)
    (hnext : next.Tracked)
    (hmissing : next.vehicle.missingParams = s.vehicle.missingParams)
    (hright : ∀ call ∈ next.calls, call.Right) :
    next.Truthful ↔
      next.vehicle.progress.notFound.length =
        s.vehicle.progress.notFound.length := by
  have hlength := ((truthful_iff hs).mp ht).1
  rw [truthful_iff hnext, hmissing, hlength]
  exact ⟨fun h => h.1.symm, fun h => ⟨h.symm, hright⟩⟩

theorem Truthful.packet_iff (ht : s.Truthful) (hs : s.Tracked) {p : Packet}
    (hnext : next.Tracked)
    (heq : next =
      ({ s with vehicle := s.vehicle.apply s.now (.packet p) } :
        ParamRun).receivePacket p) :
    next.Truthful ↔ s.Steady (.vehicle (.packet p)) := by
  have hvehicle : next.vehicle = s.vehicle.apply s.now (.packet p) := by
    rw [heq, receivePacket_vehicle]
  have hprogress : next.vehicle.progress =
      s.vehicle.progress.receivePacket p := by
    rw [hvehicle]
    exact s.vehicle.packet_progress p s.now
  have hright : ∀ call ∈ next.calls, call.Right := by
    rw [heq]
    apply receivePacket_right
    exact ht.replies
  rw [ht.iff_of_missing hs hnext (by rw [hvehicle]; rfl)
    hright, hprogress]
  rfl

theorem Truthful.scrub_iff (ht : s.Truthful) (hs : s.Tracked) :
    Truthful { s with vehicle := s.vehicle.Scrub } ↔
      s.vehicle.missingParams = [] := by
  have hnone : s.vehicle.Scrub.progress.notFound = [] :=
    notFound_of_zero rfl
  rw [truthful_iff hs.scrub]
  simp only
  rw [hnone, List.length_nil, List.length_eq_zero_iff]
  exact ⟨fun h => h.1, fun h => ⟨h, ht.replies⟩⟩

theorem Truthful.refresh (hs : s.Tracked) {calls : List RefreshCall}
    (hright : ∀ call ∈ calls, call.Right) :
    Truthful
      { s with vehicle := s.vehicle.RefreshParams, calls := calls } := by
  rw [truthful_iff (hs.refresh calls)]
  refine ⟨?_, hright⟩
  have hnone : s.vehicle.RefreshParams.progress.notFound = [] :=
    notFound_of_zero rfl
  simp only
  rw [hnone]
  rfl

theorem Truthful.keepProgress (ht : s.Truthful) (hs : s.Tracked)
    {v : InitVehicle} (hprogress : v.progress = s.vehicle.progress)
    (hmissing : v.missingParams = s.vehicle.missingParams) :
    Truthful { s with vehicle := v } := by
  have hlength := ((truthful_iff hs).mp ht).1
  have hsmall : v.missingParams.length < 2 ^ 16 := by
    rw [hmissing]
    exact hs.bounded.missing
  rw [truthful_iff (hs.keepProgress hprogress hsmall)]
  simp only
  rw [hprogress, hmissing]
  exact ⟨hlength, ht.replies⟩

theorem Truthful.stateHandler_iff (ht : s.Truthful) (hs : s.Tracked)
    {action : StateAction} {v : InitVehicle}
    (hv : StateStep s.vehicle s.now action v) :
    Truthful { s with vehicle := v } ↔
      s.Steady (.vehicle .stateHandler) := by
  have hnext := hs.stateHandler hv
  cases hv with
  | scrubbed hoffline =>
      have hno : ¬ s.vehicle.progress.online := by simp [hoffline]
      exact (ht.scrub_iff hs).trans ⟨fun h _ => h, fun h => h hno⟩
  | askedInfo hw honline hcaps =>
      refine iff_of_true ?_ (fun hoffline => absurd honline hoffline)
      exact ht.keepProgress hs (congrArg VehicleApi.progress hw) rfl
  | askedParams hw honline hparams =>
      refine iff_of_true ?_ (fun hoffline => absurd honline hoffline)
      exact ht.keepProgress hs (congrArg VehicleApi.progress hw) rfl
  | online hw hready hdone =>
      refine iff_of_true ?_ (fun hoffline => absurd hready.online hoffline)
      exact ht.keepProgress hs (congrArg VehicleApi.progress hw) rfl
  | waiting hw hready =>
      refine iff_of_true ?_ (fun hoffline => absurd hready.online hoffline)
      exact ht.keepProgress hs (congrArg VehicleApi.progress hw) rfl
  | forced hw hready hmissing hforced htime =>
      have hprogress := congrArg VehicleApi.progress hw
      refine iff_of_true ((truthful_iff hnext).mpr ⟨?_, ht.replies⟩)
        (fun hoffline => absurd hready.online hoffline)
      exact congrArg (fun g => g.notFound.length) hprogress.symm

theorem Truthful.vehicleStep_iff (ht : s.Truthful) (hs : s.Tracked)
    {event : InitEvent} (hstep : s.vehicleStep event = some next) :
    next.Truthful ↔ s.Steady (.vehicle event) := by
  have hnext := hs.vehicleStep hstep
  cases event with
  | wait d =>
      rw [← Option.some.inj hstep]
      exact iff_of_true ⟨ht.counts, ht.replies⟩ trivial
  | packet p =>
      simp only [ParamRun.vehicleStep] at hstep
      split at hstep
      · cases hstep
      · exact ht.packet_iff hs hnext (Option.some.inj hstep).symm
  | command Command op =>
      rw [← Option.some.inj hstep]
      exact iff_of_true (ht.keepProgress hs rfl rfl) trivial
  | checkSysOnline =>
      rw [← Option.some.inj hstep] at hnext ⊢
      refine iff_of_true
        ((ht.iff_of_missing hs hnext rfl ht.replies).mpr ?_) trivial
      rcases s.vehicle.checkSysOnline_progress s.now with hsame | hoffline
      · simp only [hsame]
      · simp only [hoffline]
        rfl
  | scrub =>
      rw [← Option.some.inj hstep]
      exact ht.scrub_iff hs
  | refreshParams =>
      rw [← Option.some.inj hstep]
      exact iff_of_true (Truthful.refresh hs ht.replies) trivial
  | stateHandler =>
      rw [← Option.some.inj hstep]
      exact ht.stateHandler_iff hs (s.vehicle.stateHandler_step s.now)

/-- `OK` is answered when all parameters are stored, or when the count was
reset to zero. -/
theorem Truthful.answers_iff (ht : s.Truthful) (hs : s.Tracked)
    {call : RefreshCall} (hcall : call ∈ s.calls)
    (hopen : call.answer = none) :
    (s.vehicle.GetAllParams.2.1 ≤ s.vehicle.GetAllParams.1 →
        call.HasAll s.reported) ↔
      (s.vehicle.progress.totalParams = 0 → call.HasAll s.reported) := by
  have htotal : s.vehicle.GetAllParams.2.1 =
      s.vehicle.progress.totalParams := rfl
  rw [htotal]
  constructor
  · intro hall hzero
    apply hall
    rw [hzero, UInt64.le_iff_toNat_le]
    exact Nat.zero_le _
  · intro hall hle
    by_cases hzero : s.vehicle.progress.totalParams = 0
    · exact hall hzero
    · have hreported := hs.reported.resolve_right hzero
      intro i hi
      rw [← hreported] at hi
      rw [UInt64.le_iff_toNat_le, ht.counts.found] at hle
      have hsum := found_add_notFound hs.bounded.valid
      have hnone : s.vehicle.progress.notFound = [] :=
        List.length_eq_zero_iff.mp (by omega)
      by_contra hmissing
      have hmem : i ∈ s.vehicle.progress.notFound :=
        hs.bounded.valid.mem_notFound.mpr
          ⟨hi, fun hfound =>
            hmissing (hs.received call hcall hopen _ hfound)⟩
      rw [hnone] at hmem
      cases hmem

theorem Truthful.poll_iff (ht : s.Truthful) (hs : s.Tracked) {k : ℕ}
    (hstep : s.step (.poll k) = some next) :
    next.Truthful ↔ s.Steady (.poll k) := by
  have hnext := hs.step hstep
  obtain ⟨call, hcall, hopen, rfl⟩ := poll_cases hstep
  have hmem := List.mem_of_getElem? hcall
  have hlt := (List.getElem?_eq_some_iff.mp hcall).1
  have hsteady : s.Steady (.poll k) ↔
      (s.vehicle.progress.totalParams = 0 → call.HasAll s.reported) := by
    simp [Steady, hcall]
  rw [hsteady, ← ht.answers_iff hs hmem hopen,
    ← RefreshCall.poll_right_iff hopen]
  constructor
  · intro htrue
    exact htrue.replies _ (List.mem_set hlt _)
  · intro hright
    refine ⟨ht.counts, fun other hother => ?_⟩
    rcases List.mem_or_eq_of_mem_set hother with hold | rfl
    · exact ht.replies other hold
    · exact hright

theorem Truthful.step_iff (ht : s.Truthful) (hs : s.Tracked)
    {event : ParamEvent} (hstep : s.step event = some next) :
    next.Truthful ↔ s.Steady event := by
  cases event with
  | vehicle event => exact ht.vehicleStep_iff hs hstep
  | refresh =>
      rw [← Option.some.inj hstep]
      refine iff_of_true (Truthful.refresh hs ?_) trivial
      intro call hcall
      rcases List.mem_append.mp hcall with hold | hnew
      · exact ht.replies call hold
      · rw [List.mem_singleton.mp hnew]
        intro total count hanswer
        cases hanswer
  | poll k => exact ht.poll_iff hs hstep

theorem initial_truthful (writer : Encoder) (now : Time) :
    (initial writer now).Truthful := by
  rw [truthful_iff (initial_tracked writer now)]
  refine ⟨?_, fun call hcall => by cases hcall⟩
  have hnone : (initial writer now).vehicle.progress.notFound = [] :=
    notFound_of_zero rfl
  rw [hnone]
  rfl

/-- The counts and the replies are right in a run up to the first step that
breaks the condition, and that step makes them wrong. -/
theorem counts_truthful (writer : Encoder) (start : Time)
    {events : List ParamEvent} {s : ParamRun}
    (hrun : GuardedRun step Steady (initial writer start) events s) :
    s.Truthful ∧
      ∀ event next, s.step event = some next →
        (next.Truthful ↔ s.Steady event) := by
  have hinv : s.Tracked ∧ s.Truthful := by
    apply hrun.invariant
    · rintro s event next ⟨hs, ht⟩ hguard hstep
      exact ⟨hs.step hstep, (ht.step_iff hs hstep).mpr hguard⟩
    · exact ⟨initial_tracked writer start, initial_truthful writer start⟩
  exact ⟨hinv.2, fun event next hstep => hinv.2.step_iff hinv.1 hstep⟩

/-- A vehicle with one parameter sends it again before the call looks. -/
theorem counts_truthful_single :
    ∃ s, Run step (initial (NewEncoder none) 0)
        [.vehicle (.packet heartbeatPacket), .vehicle (.packet versionPacket),
          .vehicle .stateHandler, .vehicle (.packet (paramPacket 1 0 65)),
          .refresh, .vehicle (.packet (paramPacket 1 0 65)), .poll 0] s ∧
      s.Truthful := by
  have hexec : (exec step Steady (initial (NewEncoder none) 0)
      [.vehicle (.packet heartbeatPacket), .vehicle (.packet versionPacket),
        .vehicle .stateHandler, .vehicle (.packet (paramPacket 1 0 65)),
        .refresh, .vehicle (.packet (paramPacket 1 0 65)),
        .poll 0]).isSome := by
    decide
  obtain ⟨s, hrun⟩ := GuardedRun.of_exec_isSome hexec
  exact ⟨s, hrun.run,
    (counts_truthful (NewEncoder none) 0 hrun).1⟩

/-- With the first of three parameters all three count as found. -/
theorem first_param_counts_all :
    ¬ ∀ events s, Run step (initial (NewEncoder none) 0) events s →
      s.Truthful := by
  intro hall
  let events : List ParamEvent :=
    [.vehicle (.packet heartbeatPacket), .vehicle (.packet versionPacket),
      .vehicle .stateHandler, .vehicle (.packet (paramPacket 3 0 65))]
  have hexec : (exec step (fun _ _ => True)
      (initial (NewEncoder none) 0) events).map (fun s =>
        (s.vehicle.GetAllParams.1.toNat,
          s.vehicle.progress.found.length)) = some (3, 1) := by
    decide
  obtain ⟨s, hrun, heq⟩ := GuardedRun.of_exec_map hexec
  obtain ⟨hcurrent, hlength⟩ := Prod.mk.inj heq
  have hfound := (hall events s hrun).counts.found
  rw [hcurrent, hlength] at hfound
  exact absurd hfound (by decide)

end ParamRun

end DronesmithEngine
