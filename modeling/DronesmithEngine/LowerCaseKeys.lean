import DronesmithEngine.ApiService
import DronesmithEngine.MapRanges
import Mathlib.Tactic

/-!
# Lower-case keys

`toLowerJSON` stores the members of a request under their lower-case keys
while it ranges over them.  What a handler reads depends on the order of the
range when two keys differ in case only.
-/

namespace DronesmithEngine.Apiservice

open Go

/-- The platform with one order for the range of `toLowerJSON`. -/
def Platform.inOrder (platform : Platform) (order : List String) :
    Platform :=
  { platform with rangeOrder := fun _ => order }

/-- Whatever the order, the map ends up the same, and so do the answer to the
request and the vehicle. -/
structure OrderFree (platform : Platform) (data : JsonObject) : Prop where
  lowered : ∀ order order', Visits platform.ToLower data order →
    Visits platform.ToLower data order' →
      toLowerJSON (platform.inOrder order) data =
        toLowerJSON (platform.inOrder order') data
  served : ∀ order order', Visits platform.ToLower data order →
    Visits platform.ToLower data order' →
      ∀ meanwhile req, req.Body = .object data →
        ServeHTTP (platform.inOrder order) meanwhile req =
          ServeHTTP (platform.inOrder order') meanwhile req

variable (platform : Platform)

theorem toLowerJSON_inOrder (order : List String) (data : JsonObject) :
    toLowerJSON (platform.inOrder order) data =
      normalizeKeys platform.ToLower order data := by
  refine congrFun (congrFun (congrArg List.foldl ?_) data) order
  funext m k
  unfold storeNormal
  cases m.lookup k <;> rfl

/-- The handlers do not range over a map. -/
theorem handlePost_inOrder (order : List String) :
    handlePost (platform.inOrder order) = handlePost platform := rfl

theorem ServeHTTP_inOrder {order order' : List String} {data : JsonObject}
    (hsame : toLowerJSON (platform.inOrder order) data =
      toLowerJSON (platform.inOrder order') data)
    (meanwhile : Meanwhile) {req : PostRequest}
    (hbody : req.Body = .object data) :
    ServeHTTP (platform.inOrder order) meanwhile req =
      ServeHTTP (platform.inOrder order') meanwhile req := by
  simp only [ServeHTTP, servePost, hbody, handlePost_inOrder, hsame]

section

variable (hlower : ∀ s, platform.ToLower (platform.ToLower s) =
  platform.ToLower s)

include hlower

theorem lowered_iff (data : JsonObject) :
    (∀ order order', Visits platform.ToLower data order →
      Visits platform.ToLower data order' →
        toLowerJSON (platform.inOrder order) data =
          toLowerJSON (platform.inOrder order') data) ↔
      Unambiguous platform.ToLower data := by
  simp only [toLowerJSON_inOrder]
  exact normalizeKeys_order_iff hlower

/-- The order does not matter exactly when no two keys with capital letters
have one lower-case form and different values. -/
theorem orderFree_iff (data : JsonObject) :
    OrderFree platform data ↔ Unambiguous platform.ToLower data := by
  rw [← lowered_iff platform hlower]
  constructor
  · exact OrderFree.lowered
  · intro hlowered
    refine ⟨hlowered, ?_⟩
    intro order order' hvisits hvisits' meanwhile req hbody
    exact ServeHTTP_inOrder platform
      (hlowered order order' hvisits hvisits') meanwhile hbody

end

/-! ## Two capital forms of one key -/

theorem charToLower_idem (c : Char) : c.toLower.toLower = c.toLower := by
  unfold Char.toLower
  by_cases hc : c.val ≥ 'A'.val ∧ c.val ≤ 'Z'.val
  · rw [dif_pos hc, dif_neg]
    have hlow : 65 ≤ c.val.toNat := UInt32.le_iff_toNat_le.mp hc.1
    have hhigh : c.val.toNat ≤ 90 := UInt32.le_iff_toNat_le.mp hc.2
    rintro ⟨-, hagain⟩
    have hle := UInt32.le_iff_toNat_le.mp hagain
    rw [UInt32.toNat_add] at hle
    have hshift : ('a'.val - 'A'.val).toNat = 32 := rfl
    have hlast : 'Z'.val.toNat = 90 := rfl
    omega
  · rw [dif_neg hc, dif_neg hc]

theorem toList_toLower (s : String) :
    s.toLower.toList = s.toList.map Char.toLower := String.toList_map

theorem toLower_idem (s : String) : s.toLower.toLower = s.toLower := by
  apply String.toList_injective
  rw [toList_toLower, toList_toLower, List.map_map]
  refine congrFun (congrArg List.map ?_) s.toList
  funext c
  exact charToLower_idem c

theorem toLower_eq {s lower : String}
    (h : s.toList.map Char.toLower = lower.toList) : s.toLower = lower := by
  apply String.toList_injective
  rw [toList_toLower, h]

/-- Letters of ASCII only have capital forms. -/
def ascii : Platform where
  ToLower := String.toLower
  rangeOrder := fun _ => ["ARM", "Arm"]
  int := fun f => f.toInt64.toInt
  uint := Float.toUInt64
  uint16 := Float.toUInt16

theorem orderFree_iff_arm :
    OrderFree ascii ((∅ : JsonObject).insert "Arm" (.bool true)) ↔
      Unambiguous ascii.ToLower
        ((∅ : JsonObject).insert "Arm" (.bool true)) :=
  orderFree_iff ascii toLower_idem _

/-- Two capital forms of `arm` have different values, and the last one that is
visited counts. -/
theorem capital_forms_differ :
    ¬ ∀ platform : Platform,
      (∀ s, platform.ToLower (platform.ToLower s) = platform.ToLower s) →
        ∀ data, OrderFree platform data := by
  intro hall
  let data : JsonObject :=
    ((∅ : JsonObject).insert "Arm" (.bool true)).insert "ARM" (.bool false)
  have hfree := hall ascii toLower_idem data
  have hone := (lowered_iff ascii toLower_idem data).mp hfree.lowered
  have hmixed : data.lookup "Arm" = some (.bool true) := by
    rw [Finmap.lookup_insert_of_ne _ (by decide)]
    exact Finmap.lookup_insert _
  have hcapital : data.lookup "ARM" = some (.bool false) :=
    Finmap.lookup_insert _
  have hlower : ascii.ToLower "Arm" = "arm" := toLower_eq (by decide)
  have hlower' : ascii.ToLower "ARM" = "arm" := toLower_eq (by decide)
  have hsame := hone "Arm" (Finmap.mem_of_lookup_eq_some hmixed) "ARM"
    (Finmap.mem_of_lookup_eq_some hcapital)
    (by rw [hlower]; decide) (by rw [hlower']; decide)
    (hlower.trans hlower'.symm)
  rw [hmixed, hcapital] at hsame
  cases hsame

end DronesmithEngine.Apiservice
