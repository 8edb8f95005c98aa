import MacMu.Qemu.ControlReceiver

/-!
The walk of DISPLAY_LIST over the display table. Between two calls of
`getNextMultiDisplay` the last id is in a signed 32-bit variable, where an id
from 2^31 on is negative and starts the walk anew; below that the walk is the
table in order.
-/

namespace MacMu
namespace DisplayList

open Std ControlReceiver

variable {s : MultiDisplay.State}

def SmallIds (s : MultiDisplay.State) : Prop := ∀ id ∈ s.mMultiDisplay, id.toNat < 2 ^ 31

def infoOf (entry : UInt32 × MultiDisplay.MultiDisplayInfo) : ControlDisplayInfo :=
  ⟨entry.1, entry.2.originalWidth, entry.2.originalHeight, entry.2.dpi, entry.2.flag, 1⟩

theorem pairwise_toList (s : MultiDisplay.State) :
    s.mMultiDisplay.toList.Pairwise fun a b => a.1 < b.1 := by
  apply List.Pairwise.imp _ s.mMultiDisplay.ordered_keys_toList
  intro a b hab
  exact Std.compare_eq_lt.mp hab

theorem next_key {id : UInt32} (h : id.toNat < 2 ^ 31) :
    (if id.toInt32 < 0 then 0 else (id.toInt32 + 1).toUInt32) = id + 1 := by
  have hvalue : id.toInt32.toInt = (id.toNat : Int) := by
    change id.toBitVec.toInt = _
    rw [BitVec.toInt_eq_toNat_of_lt]
    · rfl
    · change 2 * id.toNat < 2 ^ 32
      omega
  rw [if_neg]
  · rfl
  · rw [Int32.lt_iff_toInt_lt, hvalue]
    simp

theorem getNextMultiDisplay_of_split {front back : List (UInt32 × MultiDisplay.MultiDisplayInfo)}
    {previousId : Int32} {key : UInt32} (htable : s.mMultiDisplay.toList = front ++ back)
    (hkey : (if previousId < 0 then 0 else (previousId + 1).toUInt32) = key)
    (hfront : ∀ entry ∈ front, entry.1 < key) (hback : ∀ entry ∈ back, key ≤ entry.1) :
    MultiDisplay.getNextMultiDisplay s previousId = back.head? := by
  have hskip : front.find? (fun entry => decide (key ≤ entry.1)) = none := by
    rw [List.find?_eq_none]
    intro entry hentry
    simpa using hfront entry hentry
  rw [MultiDisplay.getNextMultiDisplay, hkey, htable, List.find?_append, hskip, Option.none_or]
  cases back with
  | nil => rfl
  | cons entry back =>
    have hentry : decide (key ≤ entry.1) = true := decide_eq_true (hback entry List.mem_cons_self)
    rw [List.find?_cons, hentry]
    rfl

theorem displayInfos_of_split (hsmall : SmallIds s)
    (front back : List (UInt32 × MultiDisplay.MultiDisplayInfo)) (key : UInt32) {fuel : Nat}
    {previousId : Int32} (htable : s.mMultiDisplay.toList = front ++ back) (hfuel : back.length < fuel)
    (hkey : (if previousId < 0 then 0 else (previousId + 1).toUInt32) = key)
    (hfront : ∀ entry ∈ front, entry.1 < key) (hback : ∀ entry ∈ back, key ≤ entry.1) :
    displayInfos s fuel previousId = some (back.map infoOf) := by
  induction back generalizing front fuel previousId key with
  | nil =>
    cases fuel with
    | zero => cases hfuel
    | succ fuel => rw [displayInfos, getNextMultiDisplay_of_split htable hkey hfront hback]; rfl
  | cons entry back ih =>
    cases fuel with
    | zero => cases hfuel
    | succ fuel =>
      have hmem : entry ∈ s.mMultiDisplay.toList := by
        rw [htable]
        exact List.mem_append_right _ List.mem_cons_self
      have hid : entry.1.toNat < 2 ^ 31 := by
        apply hsmall
        rw [ExtTreeMap.mem_iff_isSome_getElem?, ExtTreeMap.mem_toList_iff_getElem?_eq_some.mp hmem]
        rfl
      have hsorted := pairwise_toList s
      rw [htable, List.pairwise_append, List.pairwise_cons] at hsorted
      have hnext : entry.1 < entry.1 + 1 ∧ ∀ id : UInt32, entry.1 < id → entry.1 + 1 ≤ id := by
        constructor
        · rw [UInt32.lt_iff_toNat_lt, UInt32.toNat_add]
          simp only [UInt32.reduceToNat]
          omega
        · intro id hlt
          rw [UInt32.lt_iff_toNat_lt] at hlt
          rw [UInt32.le_iff_toNat_le, UInt32.toNat_add]
          simp only [UInt32.reduceToNat]
          omega
      have hrest : displayInfos s fuel entry.1.toInt32 = some (back.map infoOf) := by
        apply ih (front ++ [entry]) (entry.1 + 1) (by rw [htable]; simp)
          (Nat.lt_of_succ_lt_succ hfuel) (next_key hid)
        · intro e he
          obtain hold | hnew := List.mem_append.mp he
          · exact lt_trans (hsorted.2.2 e hold entry List.mem_cons_self) hnext.1
          · rw [List.mem_singleton.mp hnew]
            exact hnext.1
        · exact fun e he => hnext.2 e.1 (hsorted.2.1.1 e he)
      rw [displayInfos, getNextMultiDisplay_of_split htable hkey hfront hback]
      simp only [List.head?_cons, hrest, Option.map_some, List.map_cons]
      rfl

theorem displayInfos_eq (hsmall : SmallIds s) {fuel : Nat} (hfuel : s.mMultiDisplay.size < fuel) :
    displayInfos s fuel (-1) = some (s.mMultiDisplay.toList.map infoOf) := by
  have hlength : s.mMultiDisplay.toList.length < fuel := by
    rw [ExtTreeMap.length_toList]
    exact hfuel
  refine displayInfos_of_split hsmall [] s.mMultiDisplay.toList 0 rfl hlength rfl nofun ?_
  intro entry _
  rw [UInt32.le_iff_toNat_le]
  exact Nat.zero_le _

theorem displayIds_eq (s : MultiDisplay.State) :
    (s.mMultiDisplay.toList.map infoOf).map ControlDisplayInfo.displayId =
      s.mMultiDisplay.keys := by
  rw [List.map_map, ← ExtTreeMap.map_fst_toList_eq_keys]
  rfl

end DisplayList
end MacMu
