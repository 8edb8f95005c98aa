import MacMu.Qemu.ControlReceiver

/-!
When an ERROR answer to DISPLAY_ADD or DISPLAY_REMOVE means that the display
table is as it was. Every check before the table work refuses with the table
untouched. The last check, for the guest pipe, comes after the table work: with
the pipe down the answer is an ERROR although the display has been created,
resized or destroyed. The condition below says which requests escape that, in
terms of the request, the emulator's checks and the table before the request.
-/

namespace MacMu
namespace DisplayErrors

open Std ControlProtocol MultiDisplay ControlReceiver

structure Entry where
  width : UInt32
  height : UInt32
  dpi : UInt32
  flag : UInt32
  deriving DecidableEq, Repr

def entryOf (info : MultiDisplayInfo) : Entry :=
  ⟨info.width, info.height, info.dpi, info.flag⟩

def entry (s : State) (id : UInt32) : Option Entry := s.mMultiDisplay[id]?.map entryOf

def SameTable (s t : State) : Prop := ∀ id, entry s id = entry t id

/-- If the handler answers ERROR, the table is the one before the request. -/
def Authoritative (s : State) (ran : Ran) : Prop :=
  (∃ r ∈ ran.sends, r.IsError) → SameTable s ran.displays

structure PassesChecks (env : Environment) (s : State) : Prop where
  feature : env.multiDisplayFeature = true
  notFoldable : env.anyFoldedAreaConfigured = false
  notResizable : env.resizableEnabled = false
  flavor : env.flavor ≠ .tv ∧ env.flavor ≠ .wear
  notGuest : s.mGuestMode = false
  upright : env.orientation = .rotation0

/-- Recomputing the layout after a change to `id` leaves the other entries
alone. -/
def LayoutSettled (env : Environment) (s : State) (id : UInt32) : Prop :=
  if env.isPixelFold then (0 : UInt32) ∈ s.mMultiDisplay
  else ∀ (other : UInt32) (info : MultiDisplayInfo), other ≠ id →
    s.mMultiDisplay[other]? = some info →
      info.width = info.originalWidth ∧ info.height = info.originalHeight

def AlreadyPosed (env : Environment) (s : State) (id w h dpi flag : UInt32) : Prop :=
  ∃ info, s.mMultiDisplay[id]? = some info ∧
    entryOf info = ⟨w, h, dpi, effectiveFlag env id flag⟩ ∧
    (info.cb ≠ 0 → env.isMultiDisplayWindow = false → LayoutSettled env s id)

def addTarget (s : State) (request : ControlDisplayAdd) : Option UInt32 :=
  if request.displayId = kControlDisplayIdAuto then freeDisplayId s else some request.displayId

/-- A DISPLAY_ADD that reaches the table while the guest pipe is down finds the
display already as requested. -/
def AddIsSafe (around : Surroundings) (s : State) (request : ControlDisplayAdd) : Prop :=
  around.env.pipe = false → around.env.hotPlugDisplayEnabled = false → around.agent = true →
    PassesChecks around.env s →
    s.mMultiDisplay.size ≤ around.header.maxNumMultiDisplay.toNat →
    ∀ id, addTarget s request = some id → id ≠ 0 → id ≤ kMaxUserDisplayId →
      multiDisplayParamValidate around.header id request.width request.height
        request.dpi = true →
      AlreadyPosed around.env s id request.width request.height request.dpi request.flags

/-- A DISPLAY_REMOVE that reaches the table while the guest pipe is down finds
no such display. -/
def RemoveIsSafe (around : Surroundings) (s : State) (id : UInt32) : Prop :=
  around.env.pipe = false → around.env.hotPlugDisplayEnabled = false → around.agent = true →
    PassesChecks around.env s → id ≠ 0 → id ≤ kMaxUserDisplayId →
    id ∉ s.mMultiDisplay

theorem SameTable.refl (s : State) : SameTable s s := fun _ => rfl

theorem refusal_eq_none_iff (header : Header) (env : Environment) (s : State)
    (id w h dpi : UInt32) (add : Bool) :
    refusal header env s id w h dpi add = none ↔
      PassesChecks env s ∧
        (add = true → multiDisplayParamValidate header id w h dpi = true) := by
  constructor
  · intro hnone
    simp only [refusal] at hnone
    repeat split at hnone <;> try contradiction
    refine ⟨⟨?_, ?_, ?_, ?_, ?_, ?_⟩, ?_⟩ <;> simp_all
  · rintro ⟨⟨h1, h2, h3, h4, h5, h6⟩, hv⟩
    cases add with
    | false => simp [refusal, h1, h2, h3, h4, h5, h6]
    | true => simp [refusal, h1, h2, h3, h4, h5, h6, hv rfl]

theorem refusal_neg {header : Header} {env : Environment} {s : State}
    {id w h dpi : UInt32} {add : Bool} {ret : Int}
    (hr : refusal header env s id w h dpi add = some ret) : ret < 0 := by
  simp only [refusal] at hr
  repeat' split at hr
  all_goals
    first
    | contradiction
    | (cases hr; decide)

theorem insertIfNew_of_mem {m : ExtTreeMap UInt32 MultiDisplayInfo} {id : UInt32}
    (h : id ∈ m) (info : MultiDisplayInfo) : m.insertIfNew id info = m := by
  apply ExtTreeMap.ext_getElem?
  intro k
  grind

theorem createDisplay_eq (header : Header) (s : State) (id : UInt32)
    (hguest : s.mGuestMode = false) (hid : id ≠ header.invalidIdMultiDisplay) :
    createDisplay header s id =
      if header.maxNumMultiDisplay.toNat < s.mMultiDisplay.size then (-EINVAL, id, s)
      else (0, id,
        { s with mMultiDisplay := s.mMultiDisplay.insertIfNew id header.defaultInfo }) := by
  obtain ⟨m, guest⟩ := s
  cases hguest
  by_cases hsize : header.maxNumMultiDisplay.toNat < m.size
  · simp [createDisplay, hsize]
  · by_cases hmem : id ∈ m
    · simp [createDisplay, hsize, hmem, insertIfNew_of_mem hmem]
    · simp [createDisplay, hsize, hmem, hid]

/-- The table after a change whose display is bound to a color buffer. -/
def relayout (header : Header) (env : Environment) (cb : UInt32)
    (m : ExtTreeMap UInt32 MultiDisplayInfo) : ExtTreeMap UInt32 MultiDisplayInfo :=
  if cb ≠ 0 ∧ env.isMultiDisplayWindow = false then
    getCombinedDisplaySizeLocked header env (performRotationLocked header env m)
  else m

/-- The table work of a DISPLAY_ADD: the new or old entry takes the pose. -/
theorem applyToTable_add (header : Header) (env : Environment) (s : State)
    (id w h dpi flag : UInt32) (hguest : s.mGuestMode = false)
    (hid : id ≠ header.invalidIdMultiDisplay) :
    applyToTable header env s id (-1) (-1) w h dpi flag true =
      if header.maxNumMultiDisplay.toNat < s.mMultiDisplay.size then (-EINVAL, s)
      else
        let info := s.mMultiDisplay[id]?.getD header.defaultInfo
        let posed := s.mMultiDisplay.insert id (info.pose w h dpi flag)
        (0, { s with mMultiDisplay := relayout header env info.cb posed }) := by
  rw [applyToTable, if_pos rfl, createDisplay_eq header s id hguest hid]
  obtain ⟨m, guest⟩ := s
  cases hguest
  by_cases hsize : header.maxNumMultiDisplay.toNat < m.size
  · simp only [hsize, if_true]
    rfl
  · have hget : (m.insertIfNew id header.defaultInfo)[id]? =
        some (m[id]?.getD header.defaultInfo) := by
      grind
    have hinsert : ∀ info, (m.insertIfNew id header.defaultInfo).insert id info =
        m.insert id info := by
      intro info
      apply ExtTreeMap.ext_getElem?
      intro k
      grind
    simp only [hsize, if_false, setDisplayPose, Bool.false_eq_true, hget, hinsert, relayout,
      and_self, if_true]
    split <;> rfl

theorem applyToTable_remove (header : Header) (env : Environment) (s : State)
    (id w h dpi flag : UInt32) (x y : Int) (hguest : s.mGuestMode = false) :
    applyToTable header env s id x y w h dpi flag false =
      match s.mMultiDisplay[id]? with
      | none => (0, s)
      | some info =>
        let rest := s.mMultiDisplay.erase id
        (0, { s with mMultiDisplay := relayout header env info.cb rest }) := by
  rw [applyToTable, if_neg (by decide), destroyDisplay, if_neg (by simp [hguest])]
  cases s.mMultiDisplay[id]? with
  | none => rfl
  | some info =>
    simp only [relayout]
    split <;> rfl

def upright (info : MultiDisplayInfo) : MultiDisplayInfo :=
  { info with width := info.originalWidth, height := info.originalHeight }

theorem relayout_getElem? (header : Header) (env : Environment)
    (hrot : env.orientation = .rotation0) (cb : UInt32)
    (m : ExtTreeMap UInt32 MultiDisplayInfo) (k : UInt32) :
    (relayout header env cb m)[k]? =
      if cb ≠ 0 ∧ env.isMultiDisplayWindow = false then
        if env.isPixelFold = true then
          if k = 0 then some (m[k]?.getD header.defaultInfo) else m[k]?
        else m[k]?.map upright
      else m[k]? := by
  by_cases hcb : cb ≠ 0 ∧ env.isMultiDisplayWindow = false
  · rw [relayout, if_pos hcb, if_pos hcb, performRotationLocked, getCombinedDisplaySizeLocked]
    by_cases hfold : env.isPixelFold = true
    · simp only [hfold, if_true, Bool.true_and, touch]
      grind
    · have hmap : (m.map fun _ info => upright info)[k]? = m[k]?.map upright := by
        rw [ExtTreeMap.getElem?_map]
      simp only [hfold, hrot, Bool.false_and, Bool.false_eq_true, if_false, reduceCtorEq, or_self]
      exact hmap
  · rw [relayout, if_neg hcb, if_neg hcb]

/-- Posing a display leaves the table as it is exactly when the display is
already posed that way. -/
theorem sameTable_pose_iff (header : Header) (env : Environment) (s : State)
    (id w h dpi flag : UInt32) (hrot : env.orientation = .rotation0) (hid : id ≠ 0) :
    let info := s.mMultiDisplay[id]?.getD header.defaultInfo
    let posed := s.mMultiDisplay.insert id (info.pose w h dpi (effectiveFlag env id flag))
    SameTable s { s with mMultiDisplay := relayout header env info.cb posed } ↔
      AlreadyPosed env s id w h dpi flag := by
  intro info posed
  have hafter : ∀ k : UInt32, (relayout header env info.cb posed)[k]? = _ :=
    relayout_getElem? header env hrot info.cb posed
  have hself : (relayout header env info.cb posed)[id]?.map entryOf =
      some ⟨w, h, dpi, effectiveFlag env id flag⟩ := by
    rw [hafter id]
    simp only [posed, ExtTreeMap.getElem?_insert_self, hid, if_false]
    split
    · split <;> rfl
    · rfl
  have hother : ∀ k : UInt32, k ≠ id → posed[k]? = s.mMultiDisplay[k]? := by
    intro k hk
    simp only [posed]
    grind
  constructor
  · intro hsame
    have hid' := hsame id
    simp only [entry, hself, Option.map_eq_some_iff] at hid'
    obtain ⟨old, hold, hpose⟩ := hid'
    have hinfo : info = old := by simp only [info, hold, Option.getD_some]
    refine ⟨old, hold, hpose, ?_⟩
    intro hcb hwin
    have hlook : info.cb ≠ 0 ∧ env.isMultiDisplayWindow = false := ⟨hinfo ▸ hcb, hwin⟩
    rw [LayoutSettled]
    split
    · rename_i hfold
      have hzero := hsame 0
      simp only [entry, hafter, hlook, hfold, ne_eq, not_false_eq_true, and_self, if_true,
        Option.map_some] at hzero
      by_contra habs
      rw [ExtTreeMap.getElem?_eq_none habs] at hzero
      cases hzero
    · rename_i hfold
      intro k old' hk hold'
      have hkeep : s.mMultiDisplay[k]?.map entryOf =
          (relayout header env info.cb posed)[k]?.map entryOf := hsame k
      rw [hafter k, if_pos hlook, if_neg hfold, hother k hk, hold'] at hkeep
      have hentry : entryOf old' = entryOf (upright old') := Option.some.inj hkeep
      exact ⟨congrArg Entry.width hentry, congrArg Entry.height hentry⟩
  · rintro ⟨old, hold, hpose, hsettled⟩ k
    have hinfo : info = old := by simp only [info, hold, Option.getD_some]
    by_cases hk : k = id
    · subst hk
      simp only [entry, hself, hold, Option.map_some, hpose]
    · simp only [entry, hafter k, hother k hk]
      split
      · rename_i hlook
        have hset := hsettled (hinfo ▸ hlook.1) hlook.2
        rw [LayoutSettled] at hset
        split
        · rename_i hfold
          rw [if_pos hfold] at hset
          split
          · rename_i hzero
            subst hzero
            rw [ExtTreeMap.getElem?_eq_some_getElem hset]
            rfl
          · rfl
        · rename_i hfold
          rw [if_neg hfold] at hset
          cases hlk : s.mMultiDisplay[k]? with
          | none => rfl
          | some other =>
            obtain ⟨hw, hh⟩ := hset k other hk hlk
            simp only [Option.map_some, upright, entryOf, hw, hh]
      · rfl

theorem not_sameTable_erase (header : Header) (env : Environment) (s : State)
    (id cb : UInt32) (hrot : env.orientation = .rotation0) (hid : id ≠ 0)
    (hmem : id ∈ s.mMultiDisplay) :
    ¬ SameTable s { s with mMultiDisplay := relayout header env cb (s.mMultiDisplay.erase id) } := by
  intro hsame
  have hgone : (relayout header env cb (s.mMultiDisplay.erase id))[id]? = none := by
    rw [relayout_getElem? header env hrot, ExtTreeMap.getElem?_erase_self]
    simp [hid]
  have hat : entry s id = none := by
    rw [hsame id, entry, hgone]
    rfl
  rw [entry, ExtTreeMap.getElem?_eq_some_getElem hmem] at hat
  cases hat

theorem authoritative_of_same {s : State} {ran : Ran} (h : ran.displays = s) :
    Authoritative s ran := by
  intro _
  rw [h]
  exact SameTable.refl s

theorem authoritative_of_no_error {s : State} {ran : Ran}
    (h : ∀ r ∈ ran.sends, ¬ r.IsError) : Authoritative s ran := by
  rintro ⟨r, hr, herr⟩
  exact absurd herr (h r hr)

theorem authoritative_error_iff {s t : State} {requestId : UInt32} {code : Int32}
    {message : String} {streaming : Option StreamCall} :
    Authoritative s ⟨[.error requestId code message], t, streaming⟩ ↔ SameTable s t := by
  constructor
  · intro h
    exact h ⟨_, List.mem_singleton.mpr rfl, rfl⟩
  · intro h _
    exact h

theorem authoritative_addDisplay_iff (around : Surroundings) (s : State)
    (requestId : UInt32) (request : ControlDisplayAdd) (id : UInt32)
    (hinvalid : kMaxUserDisplayId < around.header.invalidIdMultiDisplay) :
    Authoritative s (addDisplay around s requestId request id) ↔
      (around.env.pipe = false → around.env.hotPlugDisplayEnabled = false →
        PassesChecks around.env s →
        s.mMultiDisplay.size ≤ around.header.maxNumMultiDisplay.toNat →
        id ≠ 0 → id ≤ kMaxUserDisplayId →
        multiDisplayParamValidate around.header id request.width request.height
          request.dpi = true →
        AlreadyPosed around.env s id request.width request.height request.dpi
          request.flags) := by
  rw [addDisplay]
  by_cases hrange : id = 0 ∨ kMaxUserDisplayId < id
  · rw [if_pos hrange]
    refine iff_of_true (authoritative_of_same rfl) ?_
    exact fun _ _ _ _ hzero hle => (hrange.elim hzero (UInt32.not_lt.mpr hle)).elim
  rw [if_neg hrange]
  obtain ⟨hzero, hle⟩ := not_or.mp hrange
  have hle : id ≤ kMaxUserDisplayId := UInt32.not_lt.mp hle
  rw [setMultiDisplay]
  cases hr : refusal around.header around.env s id request.width request.height
      request.dpi true with
  | some ret =>
    refine iff_of_true (authoritative_of_same ?_) ?_
    · simp only [refusal_neg hr, if_true]
    · intro _ _ hpass _ _ _ hvalid
      rw [(refusal_eq_none_iff ..).mpr ⟨hpass, fun _ => hvalid⟩] at hr
      cases hr
  | none =>
    obtain ⟨hpass, hvalid⟩ := (refusal_eq_none_iff ..).mp hr
    have hid : id ≠ around.header.invalidIdMultiDisplay :=
      UInt32.ne_of_lt (UInt32.lt_of_le_of_lt hle hinvalid)
    by_cases hhot : around.env.hotPlugDisplayEnabled = true
    · refine iff_of_true (authoritative_of_no_error ?_) ?_
      · simp [hhot, Reply.IsError, Reply.type, sendDisplayEvent]
      · intro _ hcold
        cases hhot.symm.trans hcold
    simp only [hhot, if_false, Bool.false_eq_true]
    rw [applyToTable_add _ _ _ _ _ _ _ _ hpass.notGuest hid]
    by_cases hsize : around.header.maxNumMultiDisplay.toNat < s.mMultiDisplay.size
    · refine iff_of_true (authoritative_of_same ?_) ?_
      · simp only [hsize, if_true]
        rfl
      · intro _ _ _ hle'
        omega
    simp only [hsize, if_false]
    by_cases hpipe : around.env.pipe = true
    · refine iff_of_true (authoritative_of_no_error ?_) ?_
      · simp [hpipe, Reply.IsError, Reply.type, sendDisplayEvent]
      · intro hdown
        cases hpipe.symm.trans hdown
    have hneg : -EPIPE < 0 := by decide
    simp only [hpipe, if_false, Bool.false_eq_true, hneg, if_true]
    refine authoritative_error_iff.trans
      ((sameTable_pose_iff _ _ _ _ _ _ _ _ hpass.upright hzero).trans ?_)
    constructor
    · intro hposed _ _ _ _ _ _ _
      exact hposed
    · intro hsafe
      exact hsafe trivial trivial hpass (Nat.not_lt.mp hsize) hzero hle (hvalid rfl)

theorem authoritative_handleDisplayRemove_iff (around : Surroundings) (s : State)
    (requestId id : UInt32) :
    Authoritative s (handleDisplayRemove around s requestId id) ↔
      RemoveIsSafe around s id := by
  rw [handleDisplayRemove, RemoveIsSafe]
  by_cases hagent : around.agent = false
  · rw [if_pos hagent]
    refine iff_of_true (authoritative_of_same rfl) ?_
    intro _ _ htrue
    cases hagent.symm.trans htrue
  rw [if_neg hagent]
  by_cases hrange : id = 0 ∨ kMaxUserDisplayId < id
  · rw [if_pos hrange]
    refine iff_of_true (authoritative_of_same rfl) ?_
    exact fun _ _ _ _ hzero hle => (hrange.elim hzero (UInt32.not_lt.mpr hle)).elim
  rw [if_neg hrange]
  obtain ⟨hzero, hle⟩ := not_or.mp hrange
  rw [setMultiDisplay]
  cases hr : refusal around.header around.env s id 0 0 0 false with
  | some ret =>
    refine iff_of_true (authoritative_of_same ?_) ?_
    · simp only [refusal_neg hr, if_true]
    · intro _ _ _ hpass
      have hnone : refusal around.header around.env s id 0 0 0 false = none :=
        (refusal_eq_none_iff ..).mpr ⟨hpass, fun h => absurd h (by decide)⟩
      rw [hnone] at hr
      cases hr
  | none =>
    have hpass := ((refusal_eq_none_iff ..).mp hr).1
    by_cases hhot : around.env.hotPlugDisplayEnabled = true
    · refine iff_of_true (authoritative_of_no_error ?_) ?_
      · simp [hhot, Reply.IsError, Reply.type, sendDisplayEvent]
      · intro _ hcold
        cases hhot.symm.trans hcold
    simp only [hhot, if_false, Bool.false_eq_true]
    rw [applyToTable_remove _ _ _ _ _ _ _ _ _ _ hpass.notGuest]
    by_cases hpipe : around.env.pipe = true
    · refine iff_of_true (authoritative_of_no_error ?_) ?_
      · cases s.mMultiDisplay[id]? <;>
          simp [hpipe, Reply.IsError, Reply.type, sendDisplayEvent]
      · intro hdown
        cases hpipe.symm.trans hdown
    have hneg : -EPIPE < 0 := by decide
    cases hat : s.mMultiDisplay[id]? with
    | none =>
      refine iff_of_true (authoritative_of_same ?_) ?_
      · simp only [hpipe, if_false, Bool.false_eq_true, hneg, if_true]
      · intro _ _ _ _ _ _ hmem
        rw [ExtTreeMap.getElem?_eq_some_getElem hmem] at hat
        cases hat
    | some info =>
      have hmem : id ∈ s.mMultiDisplay := by
        rw [ExtTreeMap.mem_iff_isSome_getElem?, hat]
        rfl
      simp only [hpipe, if_false, Bool.false_eq_true, hneg, if_true]
      refine authoritative_error_iff.trans
        (iff_of_false (not_sameTable_erase _ _ _ _ _ hpass.upright hzero hmem) ?_)
      intro hsafe
      exact hsafe trivial trivial
        (Bool.eq_true_of_not_eq_false hagent) hpass hzero (UInt32.not_lt.mp hle) hmem

theorem authoritative_handleDisplayAdd_iff (around : Surroundings) (s : State)
    (requestId : UInt32) (request : ControlDisplayAdd)
    (hinvalid : kMaxUserDisplayId < around.header.invalidIdMultiDisplay) :
    Authoritative s (handleDisplayAdd around s requestId request) ↔
      AddIsSafe around s request := by
  rw [handleDisplayAdd, AddIsSafe]
  by_cases hagent : around.agent = false
  · rw [if_pos hagent]
    refine iff_of_true (authoritative_of_same rfl) ?_
    intro _ _ htrue
    cases hagent.symm.trans htrue
  rw [if_neg hagent]
  have hagent := Bool.eq_true_of_not_eq_false hagent
  -- once the id is chosen, both sides are about `addDisplay` on it
  have hchosen : ∀ id, addTarget s request = some id →
      (Authoritative s (addDisplay around s requestId request id) ↔
        AddIsSafe around s request) := by
    intro id htarget
    rw [authoritative_addDisplay_iff around s requestId request id hinvalid, AddIsSafe]
    constructor
    · intro h hpipe hhot _ hpass hsize id' htarget'
      rw [htarget] at htarget'
      cases htarget'
      exact h hpipe hhot hpass hsize
    · intro h hpipe hhot hpass hsize
      exact h hpipe hhot hagent hpass hsize id htarget
  by_cases hauto : request.displayId = kControlDisplayIdAuto
  · rw [if_pos hauto]
    have htarget : addTarget s request = freeDisplayId s := if_pos hauto
    cases hfree : freeDisplayId s with
    | none =>
      refine iff_of_true (authoritative_of_same rfl) ?_
      intro _ _ _ _ _ id hid
      rw [htarget, hfree] at hid
      cases hid
    | some id => exact hchosen id (htarget.trans hfree)
  · rw [if_neg hauto]
    exact hchosen request.displayId (if_neg hauto)

/-- An ERROR answer to DISPLAY_ADD or DISPLAY_REMOVE leaves the display table as
it was exactly when the request did not reach the table with the guest pipe
down, or had nothing to change there. -/
theorem display_error_authoritative_iff (around : Surroundings) (s : State)
    (requestId : UInt32)
    (hinvalid : kMaxUserDisplayId < around.header.invalidIdMultiDisplay) :
    (∀ request, Authoritative s (handleDisplayAdd around s requestId request) ↔
      AddIsSafe around s request) ∧
    (∀ id, Authoritative s (handleDisplayRemove around s requestId id) ↔
      RemoveIsSafe around s id) :=
  ⟨fun request => authoritative_handleDisplayAdd_iff around s requestId request hinvalid,
    authoritative_handleDisplayRemove_iff around s requestId⟩

def phoneRequest : ControlDisplayAdd := ⟨1, 1080, 1920, 320, 0⟩

/-- The table with the phone display on id 1, not yet bound to a color buffer. -/
def phoneTable : State :=
  ⟨(∅ : ExtTreeMap UInt32 MultiDisplayInfo).insert 1 ⟨1080, 1920, 1080, 1920, 320, 0, 0, true⟩,
    false⟩

theorem display_error_authoritative_phone :
    kMaxUserDisplayId < (plainSurroundings false).header.invalidIdMultiDisplay ∧
      AddIsSafe (plainSurroundings false) phoneTable phoneRequest ∧
      Authoritative phoneTable
        (handleDisplayAdd (plainSurroundings false) phoneTable 7 phoneRequest) := by
  have hinvalid :
      kMaxUserDisplayId < (plainSurroundings false).header.invalidIdMultiDisplay := by decide
  have hsafe : AddIsSafe (plainSurroundings false) phoneTable phoneRequest := by
    intro _ _ _ _ _ id hid _ _ _
    cases hid
    exact ⟨_, rfl, rfl, fun hcb => absurd rfl hcb⟩
  exact ⟨hinvalid, hsafe,
    ((display_error_authoritative_iff (plainSurroundings false) phoneTable 7
      hinvalid).1 phoneRequest).mpr hsafe⟩

/-- With the pipe down, an ERROR answers a DISPLAY_ADD that created the display
and a DISPLAY_REMOVE that destroyed it. -/
theorem error_answered_after_table_change :
    ((∃ r ∈ (handleDisplayAdd (plainSurroundings false) ⟨∅, false⟩ 7 phoneRequest).sends,
        r.IsError) ∧
      ¬ SameTable ⟨∅, false⟩
        (handleDisplayAdd (plainSurroundings false) ⟨∅, false⟩ 7 phoneRequest).displays) ∧
    ((∃ r ∈ (handleDisplayRemove (plainSurroundings false) phoneTable 8 1).sends, r.IsError) ∧
      ¬ SameTable phoneTable
        (handleDisplayRemove (plainSurroundings false) phoneTable 8 1).displays) := by
  refine ⟨⟨by decide, ?_⟩, ⟨by decide, ?_⟩⟩
  · intro h
    exact absurd (h 1) (by decide)
  · intro h
    exact absurd (h 1) (by decide)

end DisplayErrors
end MacMu
