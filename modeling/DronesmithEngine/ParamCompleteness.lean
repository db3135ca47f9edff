import DronesmithEngine.VehicleInit
import Mathlib.Tactic

/-!
# Complete sets of parameters

The test by which `stateHandler` takes the parameters for complete compares
the number of their indices, less one, with the count in their messages.  It
does not look at the indices, of which some may lie beyond the count.
-/

namespace DronesmithEngine

open Go Mavlink Api

namespace InitVehicle

/-- `len(foundSet)-1 == int(total)`. -/
def ParamsComplete (v : InitVehicle) : Prop :=
  let (total, foundSet) := v.api.CheckParams
  (foundSet.card : ℤ) - 1 = int total

/-- The messages of a download, each with the time it arrived. -/
def receiveParams (v : InitVehicle) (messages : List (ParamValue × Time)) :
    InitVehicle :=
  messages.foldl (fun v (m, now) => v.withApi (v.api.UpdateFromParam m now)) v

/-- A stored parameter has this index. -/
def Holds (v : InitVehicle) (i : ℕ) : Prop :=
  ∃ name param, v.api.params.lookup name = some param ∧
    param.Index.toNat = i

def storedIndices (v : InitVehicle) : Finset ℕ :=
  ((values v.api.params).map fun param => param.Index.toNat).toFinset

theorem holds_iff {v : InitVehicle} {i : ℕ} :
    v.Holds i ↔ i ∈ v.storedIndices := by
  rw [storedIndices, Multiset.mem_toFinset, Multiset.mem_map]
  constructor
  · rintro ⟨name, param, hname, hindex⟩
    exact ⟨param, mem_values.mpr ⟨name, hname⟩, hindex⟩
  · rintro ⟨param, hparam, hindex⟩
    obtain ⟨name, hname⟩ := mem_values.mp hparam
    exact ⟨name, param, hname, hindex⟩

/-- Indices in 64 bits are counted like the numbers they stand for. -/
theorem card_foundSet (v : InitVehicle) :
    v.progress.foundSet.card = v.storedIndices.card := by
  have himage : v.storedIndices = v.progress.foundSet.image UInt64.toNat := by
    ext i
    rw [← holds_iff, Finset.mem_image]
    constructor
    · rintro ⟨name, param, hname, hindex⟩
      exact ⟨param.Index, InitProgress.mem_foundSet.mpr
        ⟨name, param, hname, rfl⟩, hindex⟩
    · rintro ⟨index, hindex, rfl⟩
      obtain ⟨name, param, hname, rfl⟩ := InitProgress.mem_foundSet.mp hindex
      exact ⟨name, param, hname, rfl⟩
  rw [himage]
  exact (Finset.card_image_of_injective _
    fun _ _ heq => UInt64.toNat_inj.mp heq).symm

/-- The test decides whether an iteration that is not forced goes on to the
command queue. -/
theorem stateHandler_online_iff {v : InitVehicle} (hready : v.progress.Ready)
    (hforced : v.paramForceInit = false) (now : Time) :
    (∃ action, (v.stateHandler now).1 = .online action) ↔
      v.ParamsComplete := by
  have hstep := v.stateHandler_step now
  constructor
  · rintro ⟨action, haction⟩
    rw [haction] at hstep
    generalize (v.stateHandler now).2 = next at hstep
    cases hstep with
    | online _ _ hdone =>
        rw [hforced] at hdone
        exact hdone.resolve_right Bool.false_ne_true
  · intro hcomplete
    have honline : v.api.SysOnline := hready.online
    have hcaps : v.api.SysGotCaps := hready.gotCaps
    have hparams : v.api.ParamsInit := hready.paramsRequested
    refine ⟨v.vehicle.sysOnlineHandler.1, ?_⟩
    unfold stateHandler
    rw [if_pos honline, if_neg (not_not_intro hcaps),
      if_neg (not_not_intro hparams)]
    exact congrArg Prod.fst (if_pos (Or.inl hcomplete))

/-! ## Indices below and beyond the count -/

/-- How many indices below `n` no parameter has. -/
def missing (v : InitVehicle) (n : ℕ) : ℕ :=
  (Finset.range n \ v.storedIndices).card

/-- How many indices from `n` on a parameter has. -/
def beyond (v : InitVehicle) (n : ℕ) : ℕ :=
  (v.storedIndices \ Finset.range n).card

theorem holds_all_iff {v : InitVehicle} {n : ℕ} :
    (∀ i < n, v.Holds i) ↔ v.missing n = 0 := by
  rw [missing, Finset.card_eq_zero, Finset.sdiff_eq_empty_iff_subset]
  constructor
  · intro hall i hi
    exact holds_iff.mp (hall i (Finset.mem_range.mp hi))
  · intro hsub i hi
    exact holds_iff.mpr (hsub (Finset.mem_range.mpr hi))

theorem card_storedIndices (v : InitVehicle) (n : ℕ) :
    v.storedIndices.card + v.missing n = n + v.beyond n := by
  have hunion := Finset.card_union_add_card_inter v.storedIndices
    (Finset.range n)
  have hleft := Finset.card_sdiff_add_card v.storedIndices (Finset.range n)
  have hright := Finset.card_sdiff_add_card (Finset.range n) v.storedIndices
  rw [Finset.union_comm] at hright
  rw [Finset.card_range] at hleft
  rw [missing, beyond]
  omega

/-! ## Downloads -/

/-- Nothing was received yet, or the total is the count of the messages. -/
theorem receiveParams_cases {v : InitVehicle} {n : UInt16}
    {messages : List (ParamValue × Time)}
    (hcount : ∀ m ∈ messages, m.1.ParamCount = n)
    (hstart : v.progress = v.progress.resetParams ∨
      v.progress.totalParams = n.toUInt64) :
    (v.receiveParams messages).progress =
        (v.receiveParams messages).progress.resetParams ∨
      (v.receiveParams messages).progress.totalParams = n.toUInt64 := by
  induction messages generalizing v with
  | nil => exact hstart
  | cons m messages ih =>
      rw [List.forall_mem_cons] at hcount
      apply ih hcount.2
      right
      exact congrArg UInt16.toUInt64 hcount.1

/-- The test is right after a download exactly when one index beyond the
count is stored, or when indices are missing and those beyond the count are
not one more than they. -/
theorem paramsComplete_iff_iff (v : InitVehicle) {n : UInt16} (hn : 0 < n)
    {messages : List (ParamValue × Time)}
    (hcount : ∀ m ∈ messages, m.1.ParamCount = n) :
    let w := v.ResetParams.receiveParams messages
    (w.ParamsComplete ↔ ∀ i < n.toNat, w.Holds i) ↔
      w.beyond n.toNat = 1 ∨
        w.missing n.toNat ≠ 0 ∧
          w.beyond n.toNat ≠ w.missing n.toNat + 1 := by
  intro w
  have hsmall : n.toNat < 2 ^ 16 := n.toNat_lt
  have hpos : 0 < n.toNat := UInt16.lt_iff_toNat_lt.mp hn
  have hcard := w.card_storedIndices n.toNat
  have hcomplete : w.ParamsComplete ↔
      w.storedIndices.card = n.toNat + 1 := by
    have hdef : w.ParamsComplete ↔
        (w.progress.foundSet.card : ℤ) - 1 = int w.api.totalParams := Iff.rfl
    rw [hdef, ← w.card_foundSet]
    rcases receiveParams_cases hcount (v := v.ResetParams)
      (Or.inl rfl) with hreset | htotal
    · have hempty : w.progress.foundSet = ∅ :=
        InitProgress.foundSet_empty (congrArg InitProgress.params hreset)
      have htotal : w.api.totalParams = 0 :=
        congrArg InitProgress.totalParams hreset
      rw [hempty, htotal, Finset.card_empty]
      exact iff_of_false (by decide) (Nat.zero_ne_add_one _)
    · rw [show w.api.totalParams = n.toUInt64 from htotal, int_of_lt,
        UInt16.toNat_toUInt64]
      · omega
      · rw [UInt16.toNat_toUInt64]
        omega
  rw [hcomplete, holds_all_iff]
  omega

/-- A parameter with a name of one letter. -/
def paramMessage (ParamCount ParamIndex : UInt16) (letter : UInt8) :
    ParamValue where
  ParamCount := ParamCount
  ParamIndex := ParamIndex
  ParamId := (Vector.replicate 16 0).set 0 letter

/-- One parameter, and one with an index beyond the count. -/
theorem paramsComplete_iff_iff_one :
    let w := (NewVehicle (NewEncoder none) 0).ResetParams.receiveParams
      [(paramMessage 1 0 65, 0), (paramMessage 1 65535 66, 0)]
    w.ParamsComplete ↔ ∀ i < (1 : UInt16).toNat, w.Holds i := by
  have hcount : ∀ m ∈ [(paramMessage 1 0 65, 0), (paramMessage 1 65535 66, 0)],
      m.1.ParamCount = (1 : UInt16) := by
    decide
  exact (paramsComplete_iff_iff (NewVehicle (NewEncoder none) 0) (by decide)
    hcount).mpr (Or.inl (by decide))

/-- The only parameter there is was received, and the set is not complete. -/
theorem all_held_incomplete :
    ¬ ∀ (v : InitVehicle) (n : UInt16) (messages : List (ParamValue × Time)),
      0 < n → (∀ m ∈ messages, m.1.ParamCount = n) →
        let w := v.ResetParams.receiveParams messages
        (w.ParamsComplete ↔ ∀ i < n.toNat, w.Holds i) := by
  intro hall
  have hiff := hall (NewVehicle (NewEncoder none) 0) 1
    [(paramMessage 1 0 65, 0)] (by decide) (by decide)
  have hmissing : ((NewVehicle (NewEncoder none) 0).ResetParams.receiveParams
      [(paramMessage 1 0 65, 0)]).missing 1 = 0 := by
    decide
  have hcomplete := hiff.mpr (holds_all_iff.mpr hmissing)
  have hcard : ¬ ((NewVehicle (NewEncoder none) 0).ResetParams.receiveParams
      [(paramMessage 1 0 65, 0)]).ParamsComplete := by
    unfold ParamsComplete
    decide
  exact hcard hcomplete

end InitVehicle

end DronesmithEngine
