import Mathlib

/-!
`hid_keyboard.cpp`: the usages of Apple's key codes, and the keyboard report that is kept
up to date with the keys that are pressed. The report is an array of eight bytes and the
ordinary keys an array of flags, as in the source; both are changed in place.

The report is a function of the set of usages that are pressed. `Call.press` says what a
call does to that set, and `canonicalReport` what the report of a set is; the state of the
keyboard follows them through every sequence of calls, also while more keys are pressed
than the report has slots for.
-/

namespace MacMu
namespace HidKeyboard

/-- The rows of `mac_virtual_key_to_hid_usage`. -/
def kKeyUsages : List (UInt16 × UInt8) :=
  [(0x00, 0x04), (0x0b, 0x05), (0x08, 0x06), (0x02, 0x07), (0x0e, 0x08), (0x03, 0x09),
    (0x05, 0x0a), (0x04, 0x0b), (0x22, 0x0c), (0x26, 0x0d), (0x28, 0x0e), (0x25, 0x0f),
    (0x2e, 0x10), (0x2d, 0x11), (0x1f, 0x12), (0x23, 0x13), (0x0c, 0x14), (0x0f, 0x15),
    (0x01, 0x16), (0x11, 0x17), (0x20, 0x18), (0x09, 0x19), (0x0d, 0x1a), (0x07, 0x1b),
    (0x10, 0x1c), (0x06, 0x1d), (0x12, 0x1e), (0x13, 0x1f), (0x14, 0x20), (0x15, 0x21),
    (0x17, 0x22), (0x16, 0x23), (0x1a, 0x24), (0x1c, 0x25), (0x19, 0x26), (0x1d, 0x27),
    (0x24, 0x28), (0x35, 0x29), (0x33, 0x2a), (0x30, 0x2b), (0x31, 0x2c), (0x1b, 0x2d),
    (0x18, 0x2e), (0x21, 0x2f), (0x1e, 0x30), (0x2a, 0x31), (0x29, 0x33), (0x27, 0x34),
    (0x32, 0x35), (0x2b, 0x36), (0x2f, 0x37), (0x2c, 0x38), (0x39, 0x39), (0x7a, 0x3a),
    (0x78, 0x3b), (0x63, 0x3c), (0x76, 0x3d), (0x60, 0x3e), (0x61, 0x3f), (0x62, 0x40),
    (0x64, 0x41), (0x65, 0x42), (0x6d, 0x43), (0x67, 0x44), (0x6f, 0x45), (0x72, 0x49),
    (0x73, 0x4a), (0x74, 0x4b), (0x75, 0x4c), (0x77, 0x4d), (0x79, 0x4e), (0x7c, 0x4f),
    (0x7b, 0x50), (0x7d, 0x51), (0x7e, 0x52), (0x47, 0x53), (0x4b, 0x54), (0x43, 0x55),
    (0x4e, 0x56), (0x45, 0x57), (0x4c, 0x58), (0x53, 0x59), (0x54, 0x5a), (0x55, 0x5b),
    (0x56, 0x5c), (0x57, 0x5d), (0x58, 0x5e), (0x59, 0x5f), (0x5b, 0x60), (0x5c, 0x61),
    (0x52, 0x62), (0x41, 0x63), (0x0a, 0x64), (0x51, 0), (0x3b, 0xe0), (0x38, 0xe1),
    (0x3a, 0xe2), (0x37, 0xe3), (0x3e, 0xe4), (0x3c, 0xe5), (0x3d, 0xe6), (0x36, 0xe7)]

def macVirtualKeyToHidUsage (keyCode : UInt16) : UInt8 := (kKeyUsages.lookup keyCode).getD 0

def kFirstModifier : UInt8 := 0xe0

def kLastModifier : UInt8 := 0xe7

def isModifier (usage : UInt8) : Bool := kFirstModifier ≤ usage && usage ≤ kLastModifier

def modifierMask (usage : UInt8) : UInt8 := 1 <<< (usage - kFirstModifier)

abbrev Report := Vector UInt8 8

structure State where
  keys : Vector Bool 0x66
  report : Report
  deriving DecidableEq, Repr

def State.empty : State := ⟨.replicate 0x66 false, .replicate 8 0⟩

def fillKeys (report : Report) (value : UInt8) : Report :=
  #v[report[0], report[1], value, value, value, value, value, value]

/-- The loop of `rebuild_keys` over the usages that are left; `count` slots are taken. -/
def rebuildLoop (keys : Vector Bool 0x66) : List Nat → Nat → Report → Report
  | [], _, report => report
  | usage :: usages, count, report =>
    if keys[usage]?.getD false = false then rebuildLoop keys usages count report
    else if 6 ≤ count then fillKeys report 0x01 -- ErrorRollOver
    else
      rebuildLoop keys usages (count + 1) (report.setIfInBounds (2 + count) (.ofNat usage))

namespace State

def rebuildKeys (s : State) : State :=
  { s with report := rebuildLoop s.keys (List.range' 0x04 0x62) 0 (fillKeys s.report 0) }

/-- `set_key`, with what it returns. -/
def setKey (s : State) (usage : UInt8) (pressed : Bool) : Bool × State :=
  if isModifier usage then
    let mask := modifierMask usage
    let wasPressed := s.report[0] &&& mask != 0
    if wasPressed = pressed then (false, s)
    else if pressed then (true, { s with report := s.report.set 0 (s.report[0] ||| mask) })
    else (true, { s with report := s.report.set 0 (s.report[0] &&& ~~~mask) })
  else if usage < 0x04 ∨ 0x66 ≤ usage ∨ s.keys[usage.toNat]?.getD false = pressed then (false, s)
  else (true, { s with keys := s.keys.setIfInBounds usage.toNat pressed }.rebuildKeys)

def isPressed (s : State) (usage : UInt8) : Bool :=
  if isModifier usage then s.report[0] &&& modifierMask usage != 0
  else s.keys[usage.toNat]?.getD false

/-- `release_all`, with what it returns. -/
def releaseAll (s : State) : Bool × State := (s.report.any (· != 0), empty)

end State

inductive Call where
  | setKey (usage : UInt8) (pressed : Bool)
  | releaseAll
  deriving DecidableEq, Repr

def isOrdinary (usage : UInt8) : Bool := 0x04 ≤ usage && usage < 0x66

def Call.press (pressed : Finset UInt8) : Call → Finset UInt8
  | .setKey usage true =>
    if isModifier usage || isOrdinary usage then insert usage pressed else pressed
  | .setKey usage false => pressed.erase usage
  | .releaseAll => ∅

def Call.apply (s : State) : Call → Bool × State
  | .setKey usage pressed => s.setKey usage pressed
  | .releaseAll => s.releaseAll

def modifierByte (pressed : Finset UInt8) : UInt8 :=
  ⟨.ofBoolListLE [0xe0 ∈ pressed, 0xe1 ∈ pressed, 0xe2 ∈ pressed, 0xe3 ∈ pressed, 0xe4 ∈ pressed,
    0xe5 ∈ pressed, 0xe6 ∈ pressed, 0xe7 ∈ pressed]⟩

/-- Six slots with the keys, or with the error code if there are more. -/
def slots (keys : List UInt8) : List UInt8 :=
  if keys.length ≤ 6 then keys ++ .replicate (6 - keys.length) 0 else .replicate 6 0x01

def ordinaryKeys (pressed : Finset UInt8) : List UInt8 :=
  (pressed.filter (isOrdinary ·)).sort (· ≤ ·)

def canonicalReport (pressed : Finset UInt8) : List UInt8 :=
  modifierByte pressed :: 0 :: slots (ordinaryKeys pressed)

section Bytes

theorem exists_of_isModifier {usage : UInt8} (h : isModifier usage = true) :
    ∃ k : Fin 8, usage = UInt8.ofNat (0xe0 + k) := by
  obtain ⟨hfirst, hlast⟩ := Bool.and_eq_true_iff.mp h
  have hge : 0xe0 ≤ usage.toNat := UInt8.le_iff_toNat_le.mp (of_decide_eq_true hfirst)
  have hle : usage.toNat ≤ 0xe7 := UInt8.le_iff_toNat_le.mp (of_decide_eq_true hlast)
  refine ⟨⟨usage.toNat - 0xe0, by omega⟩, ?_⟩
  dsimp only
  rw [Nat.add_sub_cancel' hge, UInt8.ofNat_toNat]

theorem and_modifierMask (byte : UInt8) (k : Fin 8) :
    (byte &&& modifierMask (.ofNat (0xe0 + k)) != 0) = byte.toBitVec.getLsbD k := by
  have hall : ∀ n : Fin 256, ∀ k : Fin 8,
      (UInt8.ofNat n &&& modifierMask (.ofNat (0xe0 + k)) != 0) =
        (UInt8.ofNat n).toBitVec.getLsbD k := by decide +kernel
  have hbyte := hall ⟨byte.toNat, byte.toNat_lt⟩ k
  rwa [UInt8.ofNat_toNat] at hbyte

theorem getLsbD_modifierMask (j k : Fin 8) :
    (modifierMask (.ofNat (0xe0 + k))).toBitVec.getLsbD j = decide (j = k) := by
  revert j k
  decide +kernel

theorem getLsbD_modifierByte (pressed : Finset UInt8) (k : Fin 8) :
    (modifierByte pressed).toBitVec.getLsbD k = true ↔ UInt8.ofNat (0xe0 + k) ∈ pressed := by
  have hbit : (modifierByte pressed).toBitVec.getLsbD k =
      decide (UInt8.ofNat (0xe0 + k) ∈ pressed) := by
    rw [modifierByte, BitVec.getLsbD_ofBoolListLE]
    fin_cases k <;> rfl
  rw [hbit, decide_eq_true_iff]

theorem eq_modifierByte {byte : UInt8} {pressed : Finset UInt8}
    (h : ∀ k : Fin 8, byte.toBitVec.getLsbD k = true ↔ UInt8.ofNat (0xe0 + k) ∈ pressed) :
    byte = modifierByte pressed := by
  refine UInt8.toBitVec_inj.mp (BitVec.eq_of_getLsbD_eq fun k hk => ?_)
  exact Bool.eq_iff_iff.mpr ((h ⟨k, hk⟩).trans (getLsbD_modifierByte pressed ⟨k, hk⟩).symm)

theorem ofNat_modifier_inj (j k : Fin 8) :
    UInt8.ofNat (0xe0 + j) = UInt8.ofNat (0xe0 + k) ↔ j = k := by
  revert j k
  decide

theorem or_modifierMask (pressed : Finset UInt8) (k : Fin 8) :
    modifierByte pressed ||| modifierMask (.ofNat (0xe0 + k)) =
      modifierByte (insert (.ofNat (0xe0 + k)) pressed) := by
  refine eq_modifierByte fun j => ?_
  rw [UInt8.toBitVec_or, BitVec.getLsbD_or, Bool.or_eq_true, getLsbD_modifierByte,
    getLsbD_modifierMask, decide_eq_true_iff, Finset.mem_insert, ofNat_modifier_inj, or_comm]

theorem and_not_modifierMask (pressed : Finset UInt8) (k : Fin 8) :
    modifierByte pressed &&& ~~~modifierMask (.ofNat (0xe0 + k)) =
      modifierByte (pressed.erase (.ofNat (0xe0 + k))) := by
  refine eq_modifierByte fun j => ?_
  rw [UInt8.toBitVec_and, UInt8.toBitVec_not, BitVec.getLsbD_and, BitVec.getLsbD_not,
    Bool.and_eq_true, getLsbD_modifierByte, getLsbD_modifierMask, Finset.mem_erase, ne_eq,
    ofNat_modifier_inj, and_comm]
  simp

theorem modifierByte_congr {pressed pressed' : Finset UInt8}
    (h : ∀ usage, isModifier usage = true → (usage ∈ pressed ↔ usage ∈ pressed')) :
    modifierByte pressed = modifierByte pressed' := by
  refine eq_modifierByte fun k => ?_
  have hmodifier : isModifier (UInt8.ofNat (0xe0 + k)) = true := by
    revert k
    decide
  exact (getLsbD_modifierByte pressed k).trans (h _ hmodifier)

end Bytes

section Slots

variable {report : Report} {first second : UInt8}

theorem getElem_of_toList {rest : List UInt8} (h : report.toList = first :: second :: rest) :
    report[0] = first ∧ report[1] = second := by
  constructor
  · rw [← Vector.getElem_toList (by rw [h]; exact Nat.zero_lt_succ _)]
    simp only [h, List.getElem_cons_zero]
  · rw [← Vector.getElem_toList (by rw [h]; exact Nat.succ_lt_succ (Nat.zero_lt_succ _))]
    simp only [h, List.getElem_cons_succ, List.getElem_cons_zero]

theorem toList_fillKeys {rest : List UInt8} (h : report.toList = first :: second :: rest)
    (value : UInt8) : (fillKeys report value).toList = first :: second :: .replicate 6 value := by
  rw [fillKeys, (getElem_of_toList h).1, (getElem_of_toList h).2]
  rfl

theorem toList_rebuildLoop (keys : Vector Bool 0x66) (usages : List Nat) {done : List UInt8}
    (hdone : done.length ≤ 6)
    (hreport : report.toList = first :: second :: (done ++ .replicate (6 - done.length) 0)) :
    (rebuildLoop keys usages done.length report).toList =
      first :: second ::
        slots (done ++ (usages.filter (keys[·]?.getD false)).map UInt8.ofNat) := by
  induction usages generalizing done report with
  | nil =>
    rw [rebuildLoop, hreport, slots, List.filter_nil, List.map_nil, List.append_nil,
      if_pos hdone]
  | cons usage usages ih =>
    rw [rebuildLoop]
    by_cases hkey : keys[usage]?.getD false = true
    · rw [if_neg (by rw [hkey]; exact Bool.true_eq_false.mp), List.filter_cons, if_pos hkey,
        List.map_cons]
      by_cases hfull : 6 ≤ done.length
      · -- The seventh key ends the loop.
        have hmore : ¬(done ++ UInt8.ofNat usage ::
            (usages.filter (keys[·]?.getD false)).map UInt8.ofNat).length ≤ 6 := by
          rw [List.length_append, List.length_cons]
          omega
        rw [if_pos hfull, slots, if_neg hmore, toList_fillKeys hreport]
      · rw [if_neg hfull]
        have hnext : (report.setIfInBounds (2 + done.length) (.ofNat usage)).toList =
            first :: second :: ((done ++ [.ofNat usage]) ++
              .replicate (6 - (done ++ [UInt8.ofNat usage]).length) 0) := by
          obtain ⟨free, hfree⟩ : ∃ free, 6 - done.length = free + 1 :=
            ⟨5 - done.length, by omega⟩
          have hfree' : 6 - (done ++ [UInt8.ofNat usage]).length = free := by
            rw [List.length_append, List.length_singleton]
            omega
          rw [Vector.toList_setIfInBounds, hreport, hfree, hfree', List.replicate_succ,
            Nat.add_comm 2, List.set_cons_succ, List.set_cons_succ,
            List.set_append_right _ _ (Nat.le_refl _), Nat.sub_self, List.set_cons_zero,
            List.append_assoc]
          rfl
        have hrest := ih (by rw [List.length_append]; exact Nat.not_le.mp hfull) hnext
        rw [List.length_append, List.length_singleton] at hrest
        rw [hrest, List.append_assoc]
        rfl
    · rw [if_pos (Bool.not_eq_true _ ▸ hkey), List.filter_cons, if_neg hkey]
      exact ih hdone hreport

end Slots

section Keyboard

variable {usage : UInt8} {pressed' : Finset UInt8}

structure Rep (s : State) (pressed : Finset UInt8) : Prop where
  keys : ∀ usage, isModifier usage = false →
    (s.keys[usage.toNat]?.getD false = true ↔ usage ∈ pressed)
  known : ∀ usage ∈ pressed, isModifier usage = true ∨ isOrdinary usage = true
  report : s.report.toList = canonicalReport pressed

variable {s : State} {pressed : Finset UInt8}

theorem not_isModifier_of_isOrdinary (h : isOrdinary usage = true) : isModifier usage = false := by
  refine Bool.eq_false_iff.mpr fun hmodifier => ?_
  obtain ⟨k, rfl⟩ := exists_of_isModifier hmodifier
  revert k
  decide

theorem isOrdinary_iff : isOrdinary usage = true ↔ 0x04 ≤ usage.toNat ∧ usage.toNat < 0x66 := by
  rw [isOrdinary, Bool.and_eq_true, decide_eq_true_iff, decide_eq_true_iff]
  exact Iff.rfl

/-- The usages that the loop finds are the ordinary keys in their order. -/
theorem ordinaryKeys_eq {keys : Vector Bool 0x66}
    (h : ∀ usage, isModifier usage = false →
      (keys[usage.toNat]?.getD false = true ↔ usage ∈ pressed)) :
    ((List.range' 0x04 0x62).filter (keys[·]?.getD false)).map UInt8.ofNat =
      ordinaryKeys pressed := by
  have hmono : ∀ a ∈ List.range' 0x04 0x62, ∀ b ∈ List.range' 0x04 0x62, a < b →
      UInt8.ofNat a < UInt8.ofNat b := by
    intro a ha b hb hlt
    rw [List.mem_range'_1] at ha hb
    rw [UInt8.lt_iff_toNat_lt, UInt8.toNat_ofNat', UInt8.toNat_ofNat']
    omega
  have hsorted : (((List.range' 0x04 0x62).filter (keys[·]?.getD false)).map UInt8.ofNat).Pairwise
      (· < ·) := by
    rw [List.pairwise_map]
    refine List.Pairwise.filter _ (List.Pairwise.imp_of_mem ?_ List.pairwise_lt_range')
    exact fun ha hb hlt => hmono _ ha _ hb hlt
  have hmem : (((List.range' 0x04 0x62).filter (keys[·]?.getD false)).map UInt8.ofNat).toFinset =
      pressed.filter (isOrdinary ·) := by
    ext usage
    rw [List.mem_toFinset, List.mem_map, Finset.mem_filter]
    constructor
    · rintro ⟨key, hkey, rfl⟩
      rw [List.mem_filter, List.mem_range'_1] at hkey
      have htoNat : (UInt8.ofNat key).toNat = key := by
        rw [UInt8.toNat_ofNat']
        omega
      have hordinary : isOrdinary (.ofNat key) = true := by
        rw [isOrdinary_iff]
        omega
      refine ⟨(h _ (not_isModifier_of_isOrdinary hordinary)).mp ?_, hordinary⟩
      rw [htoNat]
      exact hkey.2
    · rintro ⟨hpressed, hordinary⟩
      obtain ⟨hge, hlt⟩ := isOrdinary_iff.mp hordinary
      refine ⟨usage.toNat, List.mem_filter.mpr ⟨?_, ?_⟩, UInt8.ofNat_toNat⟩
      · rw [List.mem_range'_1]
        omega
      · exact (h usage (not_isModifier_of_isOrdinary hordinary)).mpr hpressed
  rw [ordinaryKeys, ← hmem]
  have hnodup := hsorted.imp fun {_ _} hlt => UInt8.ne_of_lt hlt
  exact ((List.toFinset_sort _ hnodup).mpr (hsorted.imp fun {_ _} hlt => UInt8.le_of_lt hlt)).symm

theorem Rep.empty : Rep .empty ∅ := by
  refine ⟨fun usage _ => ?_, nofun, ?_⟩
  · rw [State.empty, Vector.getElem?_replicate]
    split <;> simp
  · have hnone : ordinaryKeys ∅ = [] := by simp [ordinaryKeys]
    rw [canonicalReport, hnone]
    decide

theorem rep_rebuildKeys (hkeys : ∀ usage, isModifier usage = false →
      (s.keys[usage.toNat]?.getD false = true ↔ usage ∈ pressed))
    (hknown : ∀ usage ∈ pressed, isModifier usage = true ∨ isOrdinary usage = true)
    {rest : List UInt8} (hreport : s.report.toList = modifierByte pressed :: 0 :: rest) :
    Rep s.rebuildKeys pressed := by
  refine ⟨hkeys, hknown, ?_⟩
  have hnone : ([] : List UInt8).length ≤ 6 := Nat.zero_le 6
  have hloop := toList_rebuildLoop s.keys (List.range' 0x04 0x62) hnone (toList_fillKeys hreport 0)
  rw [List.nil_append, ordinaryKeys_eq hkeys] at hloop
  exact hloop

theorem Rep.and_mask (h : Rep s pressed) (hmodifier : isModifier usage = true) :
    (s.report[0] &&& modifierMask usage != 0) = decide (usage ∈ pressed) := by
  obtain ⟨k, rfl⟩ := exists_of_isModifier hmodifier
  rw [(getElem_of_toList h.report).1, and_modifierMask, Bool.eq_iff_iff, decide_eq_true_iff]
  exact getLsbD_modifierByte ..

theorem ordinaryKeys_congr
    (h : ∀ usage, isOrdinary usage = true → (usage ∈ pressed ↔ usage ∈ pressed')) :
    ordinaryKeys pressed = ordinaryKeys pressed' := by
  have hfilter : pressed.filter (isOrdinary ·) = pressed'.filter (isOrdinary ·) := by
    ext usage
    rw [Finset.mem_filter, Finset.mem_filter]
    exact and_congr_left (h usage)
  rw [ordinaryKeys, ordinaryKeys, hfilter]

theorem Rep.setModifier (h : Rep s pressed) {byte : UInt8} (hbyte : byte = modifierByte pressed')
    (hsame : ∀ usage, isModifier usage = false → (usage ∈ pressed' ↔ usage ∈ pressed))
    (hknown : ∀ usage ∈ pressed', isModifier usage = true ∨ isOrdinary usage = true) :
    Rep { s with report := s.report.set 0 byte } pressed' := by
  refine ⟨fun usage husage => (h.keys usage husage).trans (hsame usage husage).symm, hknown, ?_⟩
  rw [Vector.toList_set, h.report, hbyte, canonicalReport, canonicalReport, List.set_cons_zero,
    ordinaryKeys_congr fun usage husage => hsame usage (not_isModifier_of_isOrdinary husage)]

/-- An ordinary key changes its flag, and the slots are filled anew. -/
theorem Rep.setOrdinary (h : Rep s pressed) (husage : isOrdinary usage = true) {value : Bool}
    (hsame : ∀ other, other ≠ usage → (other ∈ pressed' ↔ other ∈ pressed))
    (hvalue : usage ∈ pressed' ↔ value = true) :
    Rep { s with keys := s.keys.setIfInBounds usage.toNat value }.rebuildKeys pressed' := by
  have hlt := (isOrdinary_iff.mp husage).2
  have hmodifiers : modifierByte pressed = modifierByte pressed' := by
    refine modifierByte_congr fun other hother => ?_
    have hne : other ≠ usage := by
      rintro rfl
      rw [not_isModifier_of_isOrdinary husage] at hother
      cases hother
    exact (hsame other hne).symm
  have hreport := h.report
  rw [canonicalReport, hmodifiers] at hreport
  refine rep_rebuildKeys (fun other hother => ?_) (fun other hother => ?_) hreport
  · by_cases heq : other = usage
    · subst heq
      rw [Vector.getElem?_setIfInBounds_self, if_pos hlt, Option.getD_some, hvalue]
    · have hne : usage.toNat ≠ other.toNat := fun hnat => heq (UInt8.toNat_inj.mp hnat.symm)
      rw [Vector.getElem?_setIfInBounds_ne hne, hsame other heq]
      exact h.keys other hother
  · by_cases heq : other = usage
    · exact .inr (heq ▸ husage)
    · exact h.known other ((hsame other heq).mp hother)

section Press

variable {usage : UInt8} (value : Bool)

theorem mem_press (pressed : Finset UInt8) (h : isModifier usage = true ∨ isOrdinary usage = true) (other : UInt8) :
    other ∈ (Call.setKey usage value).press pressed ↔
      if other = usage then value = true else other ∈ pressed := by
  cases value with
  | true =>
    rw [Call.press, if_pos (Bool.or_eq_true_iff.mpr h), Finset.mem_insert]
    by_cases heq : other = usage <;> simp [heq]
  | false =>
    rw [Call.press, Finset.mem_erase]
    by_cases heq : other = usage <;> simp [heq]

theorem press_eq_iff (pressed : Finset UInt8) (h : isModifier usage = true ∨ isOrdinary usage = true) :
    (Call.setKey usage value).press pressed = pressed ↔ (usage ∈ pressed ↔ value = true) := by
  constructor
  · intro heq
    have hmem := mem_press value pressed h usage
    rwa [heq, if_pos rfl] at hmem
  · intro hiff
    ext other
    rw [mem_press value pressed h]
    split
    · rename_i heq
      rw [heq, hiff]
    · rfl

theorem Rep.press_unknown (h : Rep s pressed) (hmodifier : isModifier usage = false)
    (hordinary : isOrdinary usage = false) : (Call.setKey usage value).press pressed = pressed := by
  cases value with
  | true => rw [Call.press, hmodifier, hordinary, Bool.or_self, if_neg Bool.false_ne_true]
  | false =>
    refine Finset.erase_eq_of_notMem fun hmem => ?_
    obtain hmodifier' | hordinary' := h.known usage hmem
    · rw [hmodifier] at hmodifier'
      cases hmodifier'
    · rw [hordinary] at hordinary'
      cases hordinary'

end Press

/-- A known usage: the call does nothing if the key is as it should be. -/
theorem Rep.setKey_known (h : Rep s pressed) (hknown : isModifier usage = true ∨ isOrdinary usage = true)
    {value was : Bool} {next : State} (hwas : was = true ↔ usage ∈ pressed)
    (hset : s.setKey usage value = if was = value then (false, s) else (true, next))
    (hnext : Rep next ((Call.setKey usage value).press pressed)) :
    Rep (s.setKey usage value).2 ((Call.setKey usage value).press pressed) ∧
      ((s.setKey usage value).1 = true ↔ (Call.setKey usage value).press pressed ≠ pressed) := by
  have hiff : (Call.setKey usage value).press pressed = pressed ↔ was = value := by
    rw [press_eq_iff value pressed hknown, ← hwas, ← Bool.eq_iff_iff]
  rw [hset]
  by_cases hvalue : was = value
  · rw [if_pos hvalue, hiff.mpr hvalue]
    exact ⟨h, by simp⟩
  · rw [if_neg hvalue]
    exact ⟨hnext, by simp [hiff, hvalue]⟩

theorem Rep.press_modifier (h : Rep s pressed) (hmodifier : isModifier usage = true) (value : Bool)
    {byte : UInt8} (hbyte : byte = modifierByte ((Call.setKey usage value).press pressed)) :
    Rep { s with report := s.report.set 0 byte } ((Call.setKey usage value).press pressed) := by
  refine h.setModifier hbyte (fun other hother => ?_) fun other hother => ?_
  · rw [mem_press value pressed (.inl hmodifier), if_neg]
    rintro rfl
    rw [hmodifier] at hother
    cases hother
  · rw [mem_press value pressed (.inl hmodifier)] at hother
    split at hother
    · rename_i heq
      exact .inl (heq ▸ hmodifier)
    · exact h.known other hother

theorem Rep.setKey (h : Rep s pressed) (usage : UInt8) (value : Bool) :
    Rep (s.setKey usage value).2 ((Call.setKey usage value).press pressed) ∧
      ((s.setKey usage value).1 = true ↔ (Call.setKey usage value).press pressed ≠ pressed) := by
  by_cases hmodifier : isModifier usage = true
  · have hbyte := (getElem_of_toList h.report).1
    have hwas : (s.report[0] &&& modifierMask usage != 0) = true ↔ usage ∈ pressed := by
      rw [h.and_mask hmodifier, decide_eq_true_iff]
    obtain ⟨k, rfl⟩ := exists_of_isModifier hmodifier
    cases value with
    | true =>
      refine h.setKey_known (.inl hmodifier) hwas (if_pos hmodifier) (h.press_modifier hmodifier true ?_)
      rw [hbyte, or_modifierMask, Call.press, if_pos (by rw [hmodifier]; rfl)]
    | false =>
      refine h.setKey_known (.inl hmodifier) hwas (if_pos hmodifier) (h.press_modifier hmodifier false ?_)
      rw [hbyte, and_not_modifierMask, Call.press]
  rw [Bool.not_eq_true] at hmodifier
  have hset : s.setKey usage value = if usage < 0x04 ∨ 0x66 ≤ usage ∨
      s.keys[usage.toNat]?.getD false = value then (false, s)
      else (true, { s with keys := s.keys.setIfInBounds usage.toNat value }.rebuildKeys) := by
    rw [State.setKey, hmodifier, if_neg Bool.false_ne_true]
  by_cases hrange : usage < 0x04 ∨ 0x66 ≤ usage
  · have hordinary : isOrdinary usage = false := by
      rw [isOrdinary, Bool.and_eq_false_iff, decide_eq_false_iff_not, decide_eq_false_iff_not,
        UInt8.not_le, UInt8.not_lt]
      exact hrange
    rw [hset, if_pos (or_assoc.mp (.inl hrange)), h.press_unknown value hmodifier hordinary]
    exact ⟨h, by simp⟩
  · obtain ⟨hfirst, hlast⟩ := not_or.mp hrange
    have hordinary : isOrdinary usage = true :=
      Bool.and_eq_true_iff.mpr ⟨decide_eq_true (UInt8.not_lt.mp hfirst),
        decide_eq_true (UInt8.not_le.mp hlast)⟩
    simp only [hfirst, hlast, false_or] at hset
    refine h.setKey_known (.inr hordinary) (h.keys usage hmodifier) hset
      (h.setOrdinary hordinary (fun other hother => ?_) ?_)
    · rw [mem_press value pressed (.inr hordinary), if_neg hother]
    · rw [mem_press value pressed (.inr hordinary), if_pos rfl]

theorem exists_ne_zero (h : usage ∈ pressed)
    (hknown : isModifier usage = true ∨ isOrdinary usage = true) :
    ∃ byte ∈ canonicalReport pressed, byte ≠ 0 := by
  obtain hmodifier | hordinary := hknown
  · obtain ⟨k, rfl⟩ := exists_of_isModifier hmodifier
    refine ⟨modifierByte pressed, .head _, fun hzero => ?_⟩
    have hbit := (getLsbD_modifierByte pressed k).mpr h
    rw [hzero, UInt8.toBitVec_zero, BitVec.getLsbD_zero] at hbit
    cases hbit
  · have hkey : usage ∈ ordinaryKeys pressed :=
      (Finset.mem_sort _).mpr (Finset.mem_filter.mpr ⟨h, hordinary⟩)
    by_cases hlength : (ordinaryKeys pressed).length ≤ 6
    · refine ⟨usage, .tail _ (.tail _ ?_), ?_⟩
      · rw [slots, if_pos hlength]
        exact List.mem_append_left _ hkey
      · rintro rfl
        cases hordinary
    · refine ⟨0x01, .tail _ (.tail _ ?_), by decide⟩
      rw [slots, if_neg hlength]
      exact List.mem_replicate.mpr ⟨by decide, rfl⟩

theorem Rep.releaseAll (h : Rep s pressed) : s.releaseAll.1 = true ↔ pressed ≠ ∅ := by
  have hany : s.releaseAll.1 = (canonicalReport pressed).any (· != 0) := by
    rw [← h.report, Vector.any_toList]
    rfl
  rw [hany, List.any_eq_true]
  simp only [bne_iff_ne]
  constructor
  · rintro ⟨byte, hbyte, hne⟩ rfl
    rw [← Rep.empty.report] at hbyte
    exact hne (List.eq_of_mem_replicate hbyte)
  · intro hne
    obtain ⟨usage, husage⟩ := Finset.nonempty_iff_ne_empty.mpr hne
    exact exists_ne_zero husage (h.known usage husage)

theorem Rep.isPressed (h : Rep s pressed) (usage : UInt8) :
    s.isPressed usage = true ↔ usage ∈ pressed := by
  rw [State.isPressed]
  by_cases hmodifier : isModifier usage = true
  · rw [if_pos hmodifier, h.and_mask hmodifier, decide_eq_true_iff]
  · rw [if_neg hmodifier]
    exact h.keys usage (Bool.not_eq_true _ ▸ hmodifier)

theorem Rep.apply (h : Rep s pressed) (call : Call) : Rep (call.apply s).2 (call.press pressed) := by
  cases call with
  | setKey usage value => exact (h.setKey usage value).1
  | releaseAll => exact Rep.empty

end Keyboard

def pressedAfter (calls : List Call) : Finset UInt8 := calls.foldl Call.press ∅

def stateAfter (calls : List Call) : State := calls.foldl (fun s call => (call.apply s).2) .empty

theorem rep_after (calls : List Call) : Rep (stateAfter calls) (pressedAfter calls) := by
  have hfrom : ∀ {s : State} {pressed : Finset UInt8}, Rep s pressed →
      Rep (calls.foldl (fun s call => (call.apply s).2) s) (calls.foldl Call.press pressed) := by
    intro s pressed h
    induction calls generalizing s pressed with
    | nil => exact h
    | cons call calls ih => exact ih (h.apply call)
  exact hfrom Rep.empty

/-- The report is that of the set of pressed usages, and each call says whether it has
changed the set. -/
theorem hid_report_canonical (calls : List Call) :
    (stateAfter calls).report.toList = canonicalReport (pressedAfter calls) ∧
      (∀ usage, (stateAfter calls).isPressed usage = true ↔ usage ∈ pressedAfter calls) ∧
      (∀ usage value, ((stateAfter calls).setKey usage value).1 = true ↔
        pressedAfter (calls ++ [.setKey usage value]) ≠ pressedAfter calls) ∧
      ((stateAfter calls).releaseAll.1 = true ↔ pressedAfter calls ≠ ∅) := by
  have hrep := rep_after calls
  refine ⟨hrep.report, hrep.isPressed, fun usage value => ?_, hrep.releaseAll⟩
  rw [pressedAfter, List.foldl_concat]
  exact (hrep.setKey usage value).2

/-- The keys `a` to `g` with the shift key, and without `g` again. -/
example :
    let calls := .setKey 0xe1 true ::
      (List.range' 0x04 7).map fun usage => .setKey (.ofNat usage) true
    (stateAfter calls).report = #v[0x02, 0, 1, 1, 1, 1, 1, 1] ∧
      (stateAfter (calls ++ [.setKey 0x0a false])).report = #v[0x02, 0, 4, 5, 6, 7, 8, 9] := by
  decide +kernel

end HidKeyboard
end MacMu
