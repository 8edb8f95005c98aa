import MacMu.Qemu.DisplayErrors
import MacMu.Shell.Moves
import MacMu.Shell.ControlPipeline

/-!
What a looper task does to the entries of the user displays, and which frames
tell it. A DISPLAY_ADD that is accepted gives its own entry the requested
geometry and leaves the other user displays alone; laying the displays out again
does not turn them, since the request is refused while the device is rotated.
The path that hands the request to the VM keeps no table and is not covered.
-/

namespace MacMu
namespace DisplayTable

open Std ControlProtocol MultiDisplay ControlReceiver DisplayErrors

variable {d : UInt32} {s t : State}

def tableGeometry (s : State) (d : UInt32) : Option Geometry :=
  s.mMultiDisplay[d]?.map fun info => ⟨info.width, info.height, info.dpi⟩

def Upright (s : State) : Prop :=
  ∀ (d : UInt32) (info : MultiDisplayInfo), UserRange d → s.mMultiDisplay[d]? = some info →
    upright info = info

theorem relayout_user (header : Header) (env : Environment) (hrot : env.orientation = .rotation0)
    (cb : UInt32) {m : ExtTreeMap UInt32 MultiDisplayInfo} (hd : UserRange d)
    (hup : ∀ info, m[d]? = some info → upright info = info) :
    (relayout header env cb m)[d]? = m[d]? := by
  rw [relayout_getElem? header env hrot]
  split
  · split
    · exact if_neg hd.1
    · cases hget : m[d]? with
      | none => rfl
      | some info => rw [Option.map_some, hup info hget]
  · rfl

theorem validated_positive {header : Header} {id w h dpi : UInt32}
    (hvalid : multiDisplayParamValidate header id w h dpi = true) : 0 < w ∧ 0 < h ∧ 0 < dpi := by
  unfold multiDisplayParamValidate at hvalid
  split at hvalid
  · cases hvalid
  · rename_i hdpi
    split at hvalid
    · cases hvalid
    · rename_i hsize
      simp only [Bool.or_eq_true, decide_eq_true_eq, not_or, UInt32.not_lt, UInt32.le_iff_toNat_le,
        UInt32.toNat_div, UInt32.toNat_mul] at hdpi hsize
      simp only [UInt32.lt_iff_toNat_lt]
      change 120 ≤ dpi.toNat ∧ dpi.toNat ≤ 640 at hdpi
      change 320 * dpi.toNat % 2 ^ 32 / 160 ≤ w.toNat ∧
        320 * dpi.toNat % 2 ^ 32 / 160 ≤ h.toNat at hsize
      have hmul : 320 * dpi.toNat % 2 ^ 32 = 320 * dpi.toNat := Nat.mod_eq_of_lt (by omega)
      rw [hmul] at hsize
      change 0 < w.toNat ∧ 0 < h.toNat ∧ 0 < dpi.toNat
      omega

structure Posed (s t : State) (d w h dpi : UInt32) : Prop where
  positive : 0 < w ∧ 0 < h ∧ 0 < dpi
  shown : tableGeometry t d = some ⟨w, h, dpi⟩
  upright : Upright t
  others : ∀ k, UserRange k → k ≠ d → tableGeometry t k = tableGeometry s k

theorem posed_relayout (header : Header) (env : Environment) (hup : Upright s) (hd : UserRange d)
    {w h dpi : UInt32} (hpositive : 0 < w ∧ 0 < h ∧ 0 < dpi) (flag : UInt32)
    (hrot : env.orientation = .rotation0) (info : MultiDisplayInfo) :
    Posed s { s with
      mMultiDisplay :=
        relayout header env info.cb (s.mMultiDisplay.insert d (info.pose w h dpi flag)) }
      d w h dpi := by
  have hself : (s.mMultiDisplay.insert d (info.pose w h dpi flag))[d]? =
      some (info.pose w h dpi flag) := ExtTreeMap.getElem?_insert_self
  have hother : ∀ k : UInt32, k ≠ d →
      (s.mMultiDisplay.insert d (info.pose w h dpi flag))[k]? = s.mMultiDisplay[k]? := by
    intro k hk
    simp only [ExtTreeMap.getElem?_insert, LawfulEqCmp.compare_eq_iff_eq]
    exact if_neg (Ne.symm hk)
  have hposed : ∀ (k : UInt32) (i : MultiDisplayInfo), UserRange k →
      (s.mMultiDisplay.insert d (info.pose w h dpi flag))[k]? = some i → upright i = i := by
    intro k i hk hi
    by_cases heq : k = d
    · subst heq
      rw [hself] at hi
      cases hi
      rfl
    · rw [hother k heq] at hi
      exact hup k i hk hi
  have hkept : ∀ k, UserRange k → (relayout header env info.cb
      (s.mMultiDisplay.insert d (info.pose w h dpi flag)))[k]? =
        (s.mMultiDisplay.insert d (info.pose w h dpi flag))[k]? :=
    fun k hk => relayout_user header env hrot info.cb hk fun i hi => hposed k i hk hi
  refine ⟨hpositive, ?_, ?_, ?_⟩
  · rw [tableGeometry, hkept d hd, hself]
    rfl
  · intro k i hk hi
    exact hposed k i hk ((hkept k hk).symm.trans hi)
  · intro k hk hne
    rw [tableGeometry, hkept k hk, hother k hne]
    rfl

theorem setMultiDisplay_add (header : Header) (env : Environment) (hup : Upright s)
    (hd : UserRange d) (w h dpi flag : UInt32)
    (hinvalid : ControlReceiver.kMaxUserDisplayId < header.invalidIdMultiDisplay)
    (hcold : env.hotPlugDisplayEnabled = false) {ret : Int}
    (hran : setMultiDisplay header env s d (-1) (-1) w h dpi flag true = (ret, t)) :
    (ret < 0 ∧ t = s) ∨ Posed s t d w h dpi := by
  rw [setMultiDisplay] at hran
  cases hr : refusal header env s d w h dpi true with
  | some refused =>
    rw [hr] at hran
    cases hran
    exact .inl ⟨refusal_neg hr, rfl⟩
  | none =>
    obtain ⟨hpass, hvalid⟩ := (refusal_eq_none_iff ..).mp hr
    have hid : d ≠ header.invalidIdMultiDisplay :=
      UInt32.ne_of_lt (UInt32.lt_of_le_of_lt hd.2 hinvalid)
    simp only [hr, hcold, if_false, Bool.false_eq_true] at hran
    rw [applyToTable_add _ _ _ _ _ _ _ _ hpass.notGuest hid] at hran
    by_cases hsize : header.maxNumMultiDisplay.toNat < s.mMultiDisplay.size
    · simp only [hsize, if_true] at hran
      cases hran
      exact .inl ⟨by decide, rfl⟩
    · simp only [hsize, if_false] at hran
      cases hran
      exact .inr (posed_relayout header env hup hd (validated_positive (hvalid rfl)) _
        hpass.upright _)

theorem setMultiDisplay_remove (header : Header) (env : Environment) (hup : Upright s)
    (d w h dpi flag : UInt32) {ret : Int}
    (hran : setMultiDisplay header env s d (-1) (-1) w h dpi flag false = (ret, t)) :
    Upright t ∧ ∀ k, UserRange k → k ≠ d → tableGeometry t k = tableGeometry s k := by
  have hsame : Upright s ∧ ∀ k, UserRange k → k ≠ d → tableGeometry s k = tableGeometry s k :=
    ⟨hup, fun _ _ _ => rfl⟩
  rw [setMultiDisplay] at hran
  cases hr : refusal header env s d w h dpi false with
  | some refused =>
    rw [hr] at hran
    cases hran
    exact hsame
  | none =>
    have hpass := ((refusal_eq_none_iff ..).mp hr).1
    simp only [hr] at hran
    split at hran
    · cases hran
      exact hsame
    · rw [applyToTable_remove _ _ _ _ _ _ _ _ _ _ hpass.notGuest] at hran
      cases hget : s.mMultiDisplay[d]? with
      | none =>
        simp only [hget] at hran
        cases hran
        exact hsame
      | some info =>
        simp only [hget] at hran
        cases hran
        have hother : ∀ k : UInt32, k ≠ d →
            (s.mMultiDisplay.erase d)[k]? = s.mMultiDisplay[k]? := by
          intro k hk
          simp only [ExtTreeMap.getElem?_erase, LawfulEqCmp.compare_eq_iff_eq]
          exact if_neg (Ne.symm hk)
        have herased : ∀ (k : UInt32) (i : MultiDisplayInfo), UserRange k →
            (s.mMultiDisplay.erase d)[k]? = some i → upright i = i := by
          intro k i hk hi
          apply hup k i hk
          have hmem : k ∈ s.mMultiDisplay.erase d := by
            rw [ExtTreeMap.mem_iff_isSome_getElem?, hi]
            rfl
          have hne : k ≠ d := fun heq =>
            (ExtTreeMap.mem_erase.mp hmem).1 (LawfulEqCmp.compare_eq_iff_eq.mpr heq.symm)
          rw [← hother k hne, hi]
        have hkept : ∀ k, UserRange k →
            (relayout header env info.cb (s.mMultiDisplay.erase d))[k]? =
              (s.mMultiDisplay.erase d)[k]? :=
          fun k hk => relayout_user header env hpass.upright info.cb hk
            fun i hi => herased k i hk hi
        refine ⟨fun k i hk hi => herased k i hk ((hkept k hk).symm.trans hi), ?_⟩
        intro k hk hne
        rw [tableGeometry, hkept k hk, hother k hne]
        rfl

theorem tableGeometry_of_sameTable (h : SameTable s t) (d : UInt32) :
    tableGeometry t d = tableGeometry s d := by
  have hshow : ∀ u : State, tableGeometry u d =
      (entry u d).map fun e => (⟨e.width, e.height, e.dpi⟩ : Geometry) := by
    intro u
    rw [entry, Option.map_map]
    rfl
  rw [hshow, hshow, h d]

/-- DISPLAY_ADD for a user display is refused, or accepted with its event. -/
theorem handleDisplayAdd_cases (around : ControlReceiver.Surroundings) (hup : Upright s)
    (requestId : UInt32) {request : ControlDisplayAdd} (hd : UserRange request.displayId)
    (hinvalid : ControlReceiver.kMaxUserDisplayId < around.header.invalidIdMultiDisplay)
    (hcold : around.env.hotPlugDisplayEnabled = false) :
    ((∃ code message, (handleDisplayAdd around s requestId request).sends =
        [.error requestId code message]) ∧
      Upright (handleDisplayAdd around s requestId request).displays) ∨
    ((handleDisplayAdd around s requestId request).sends =
        [.displayAddOk requestId request.displayId,
          sendDisplayEvent request.displayId kControlDisplayAdded request.width request.height
            request.dpi request.flags] ∧
      Posed s (handleDisplayAdd around s requestId request).displays request.displayId
        request.width request.height request.dpi) := by
  have hrange : ¬ (request.displayId = 0 ∨ ControlReceiver.kMaxUserDisplayId < request.displayId) :=
    not_or.mpr ⟨hd.1, UInt32.not_lt.mpr hd.2⟩
  have hauto : request.displayId ≠ kControlDisplayIdAuto := by
    intro heq
    have hle := hd.2
    rw [heq] at hle
    exact absurd hle (by decide)
  rw [handleDisplayAdd, if_neg hauto, addDisplay, if_neg hrange]
  split
  · exact .inl ⟨⟨_, _, rfl⟩, hup⟩
  · cases hran : setMultiDisplay around.header around.env s request.displayId (-1) (-1)
        request.width request.height request.dpi request.flags true with
    | mk ret t =>
      have hcases := setMultiDisplay_add around.header around.env hup hd _ _ _ _ hinvalid hcold hran
      dsimp only
      split
      · refine .inl ⟨⟨_, _, rfl⟩, ?_⟩
        rcases hcases with ⟨-, rfl⟩ | hposed
        · exact hup
        · exact hposed.upright
      · rename_i hret
        exact .inr ⟨rfl, hcases.resolve_left fun hneg => hret hneg.1⟩

theorem handleDisplayRemove_cases (around : ControlReceiver.Surroundings) (hup : Upright s)
    (requestId d : UInt32) :
    Upright (handleDisplayRemove around s requestId d).displays ∧
    (∀ k, UserRange k → k ≠ d →
      tableGeometry (handleDisplayRemove around s requestId d).displays k = tableGeometry s k) ∧
    ((∃ code message, (handleDisplayRemove around s requestId d).sends =
        [.error requestId code message]) ∨
      (handleDisplayRemove around s requestId d).sends =
        [.displayRemoveOk requestId, sendDisplayEvent d kControlDisplayRemoved 0 0 0 0]) := by
  rw [handleDisplayRemove]
  split
  · exact ⟨hup, fun _ _ _ => rfl, .inl ⟨_, _, rfl⟩⟩
  · split
    · exact ⟨hup, fun _ _ _ => rfl, .inl ⟨_, _, rfl⟩⟩
    · cases hran : setMultiDisplay around.header around.env s d (-1) (-1) 0 0 0 0 false with
      | mk ret t =>
        obtain ⟨hup', hothers⟩ := setMultiDisplay_remove around.header around.env hup d _ _ _ _ hran
        dsimp only
        split
        · exact ⟨hup', hothers, .inl ⟨_, _, rfl⟩⟩
        · exact ⟨hup', hothers, .inr rfl⟩

end DisplayTable
end MacMu
