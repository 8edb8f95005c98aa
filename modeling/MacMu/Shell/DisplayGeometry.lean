import MacMu.Shell.DisplayEmulator
import MacMu.Shell.DisplayEvents
import MacMu.Shell.DisplayReuse

/-!
Agreement on the geometry of a display over whole runs of the composition. When
nothing about a bound display is on its way and it is not being removed, the
shell's profile and the emulator's table give it the same size and density.
This needs conditions that the shell does not enforce: a resize that fails must
not have been overtaken by DISPLAY_ADDED of another geometry than the one it
captured, and a shell that shuts down must not be sent DISPLAY_ADDED. The run at
the end shows a display that stays wrong when a resize is overtaken.
-/

namespace MacMu
namespace DisplayGeometry

open Std ControlProtocol ControlRoundTrip ControlReceiver DisplayTable TransitionSystem
open DisplayReuse RemovalTokens

def Trusted (w : World) : PipelineStep → Prop
  | .task around => ∀ tag requestId request rest,
      w.looper = (tag, .displayAdd requestId request) :: rest →
        Assumed around w.displays requestId request
  | _ => True

/-- The block of request `tag` does not undo what the shell learnt since the
request was issued, and no DISPLAY_ADDED is lost. -/
def InOrder (w : World) (tag : Nat) : Block → Prop
  | .controlEvent type payload =>
    (Block.controlEvent type payload).addedEvent.isSome → w.shell.shuttingDown = false
  | .resizeResponse displayId previous response =>
    response.ok = false → ∀ x ∈ w.lastFollowed[displayId]?, tag < x.1 → x.2 = previous.geometry
  | _ => True

def Orderly (w : World) : PipelineStep → Prop
  | .mainBlock _ _ => ∀ x ∈ w.mainQueue.head?, InOrder w x.1 x.2
  | _ => True

instance (w : World) (tag : Nat) (b : Block) : Decidable (InOrder w tag b) := by
  unfold InOrder
  split <;> infer_instance

instance (w : World) (step : PipelineStep) : Decidable (Orderly w step) := by
  unfold Orderly
  split <;> infer_instance

section Step

variable {w : World}

theorem Inv.issue {t : AppDelegate} (h : Inv { w with shell := t } t.outbox)
    (outcomes : List WriteOutcome)
    (hids : ({ w with shell := { t with outbox := [] } }.requests t.outbox outcomes).issued.length <
      2 ^ 32 - 1) :
    Inv ({ w with shell := { t with outbox := [] } }.requests t.outbox outcomes) [] := by
  have hdrained : Inv { w with shell := { t with outbox := [] } } t.outbox :=
    ⟨h.traffic.rebound (t := { t with outbox := [] }) fun _ hk => hk, h.consistent⟩
  exact hdrained.requests outcomes hids

theorem Inv.localBlock (h : Inv w []) (hdrained : w.shell.outbox = []) {b : Block}
    (hlocal : b.isLocal) (env : Surroundings) :
    Inv { w with shell := w.shell.run env b } (w.shell.run env b).outbox := by
  have hshell := h.withShell hdrained
  have hresize : b.Resizing → Inv { w with shell := w.shell.run env b }
      (w.shell.run env b).outbox := by
    intro hb
    rcases movesOrResize_run env w.shell hb with
      hmoves | ⟨d, width, height, dpi, previous, u, v, hbefore, hresized, hafter⟩
    · exact hshell.moves hmoves
    · exact ((hshell.moves hbefore).resized hresized).moves hafter
  cases b with
  | launch component profile screen =>
    rcases launch_moves_or_launched env w.shell component profile screen with
      hmoves | ⟨d, hlaunched⟩
    · exact hshell.moves hmoves
    · exact hshell.launched hlaunched
  | rotateFocused | changedScreen | orientationResponse => exact hresize trivial
  | controlEvent | launchAddResponse | resizeResponse | qemuExited => cases hlocal
  | _ => exact hshell.moves (moves_run env w.shell trivial)

theorem Inv.mainBlock (h : Inv w []) (hdrained : w.shell.outbox = []) {tag : Nat} {b : Block}
    {rest : List (Nat × Block)} (hqueue : w.mainQueue = (tag, b) :: rest)
    (horder : InOrder w tag b) (env : Surroundings) :
    Inv { { w with mainQueue := rest }.noteBlock tag b with shell := w.shell.run env b }
      (w.shell.run env b).outbox := by
  have hchannel := h.traffic.queued (tag, b) (hqueue ▸ List.mem_cons_self)
  cases b with
  | controlEvent type payload => exact h.controlEvent hdrained hqueue horder env
  | launchAddResponse component packageName d response =>
    obtain ⟨answered, hnote⟩ := noteBlock_other (w := { w with mainQueue := rest }) tag
      (b := .launchAddResponse component packageName d response) rfl
    rw [hnote]
    exact (h.launchAddResponse hdrained hqueue env).history answered
  | resizeResponse d previous response =>
    obtain ⟨answered, hnote⟩ := noteBlock_other (w := { w with mainQueue := rest }) tag
      (b := .resizeResponse d previous response) rfl
    rw [hnote]
    refine Inv.history (h.resizeResponse hdrained hqueue ?_) answered
    intro hok n g hfollowed
    exact horder hok (n, g) hfollowed
  | _ => exact hchannel.elim

theorem noteBlock_shell (tag : Nat) (b : Block) : (w.noteBlock tag b).shell = w.shell := by
  unfold World.noteBlock
  split
  · rfl
  · dsimp only
    split <;> split <;> rfl

theorem noteBlock_issued (tag : Nat) (b : Block) : (w.noteBlock tag b).issued = w.issued := by
  unfold World.noteBlock
  split
  · rfl
  · dsimp only
    split <;> split <;> rfl

theorem issued_le_step {w' : World} {step : PipelineStep} (hstep : w.step step = some w') :
    w.issued.length ≤ w'.issued.length := by
  cases step <;> simp only [World.step] at hstep
  case localBlock env b outcomes =>
    split at hstep <;> cases hstep
    exact requests_issued_le { w with shell := { w.shell.run env b with outbox := [] } } _ outcomes
  case mainBlock env outcomes =>
    split at hstep <;> cases hstep
    rename_i tag b rest hqueue
    refine Nat.le_trans (Nat.le_of_eq ?_) (requests_issued_le _ _ outcomes)
    exact (congrArg List.length (noteBlock_issued (w := { w with mainQueue := rest }) tag b)).symm
  case timeout id =>
    split at hstep <;> cases hstep
    rw [World.complete_eq]
  case read =>
    split at hstep
    · cases hstep
    · split at hstep
      · cases hstep
        exact Nat.le_refl _
      · split at hstep
        · cases hstep
          exact Nat.le_refl _
        · cases hstep
          rw [World.complete_eq]
  case receive now | send =>
    split at hstep <;> cases hstep
    exact Nat.le_refl _
  case looperStarts =>
    cases hstep
    exact Nat.le_refl _
  case task around =>
    split at hstep <;> cases hstep
    exact Nat.le_refl _

theorem Inv.step (h : Inv w []) (hdrained : w.shell.outbox = []) {step : PipelineStep}
    (htrusted : Trusted w step) (horderly : Orderly w step) {w' : World}
    (hstep : w.step step = some w') (hids : w'.issued.length < 2 ^ 32 - 1) : Inv w' [] := by
  cases step with
  | localBlock env b outcomes =>
    simp only [World.step] at hstep
    split at hstep <;> cases hstep
    rename_i hlocal
    exact (h.localBlock hdrained hlocal env).issue outcomes hids
  | mainBlock env outcomes =>
    simp only [World.step] at hstep
    split at hstep <;> cases hstep
    rename_i tag b rest hqueue
    have horder := horderly (tag, b) (by rw [hqueue]; rfl)
    have hrun := h.mainBlock hdrained hqueue horder env
    have hshell := noteBlock_shell (w := { w with mainQueue := rest }) tag b
    rw [World.runBlock, hshell] at hids ⊢
    exact hrun.issue outcomes hids
  | timeout id => exact h.timeout hstep
  | read => exact h.read hstep
  | receive now => exact h.receive hstep
  | looperStarts =>
    cases hstep
    exact ⟨{ h.traffic with }, h.consistent⟩
  | task around => exact h.task htrusted hstep
  | send => exact h.send hstep

end Step

/-- A generation starts with no display of the shell's and no request but HELLO. -/
theorem inv_start (shell : AppDelegate) {displays : MultiDisplay.State} (hup : Upright displays) :
    Inv (World.start shell displays) [] := by
  have hpending : ∀ (id : UInt32) x, (World.start shell displays).pending[id]? = some x →
      id = 1 ∧ x = (0, .logOnly) := by
    intro id x hx
    change ((∅ : ExtTreeMap UInt32 (Nat × Completion)).insert 1 (0, .logOnly))[id]? = some x at hx
    rw [ExtTreeMap.getElem?_insert] at hx
    split at hx
    · rename_i hcmp
      exact ⟨(LawfulEqCmp.eq_of_compare hcmp).symm, (Option.some.inj hx).symm⟩
    · rw [ExtTreeMap.getElem?_empty] at hx
      cases hx
  have hout : ∀ t c d, displayOf c = some d → ¬ Outstanding (World.start shell displays) t c := by
    rintro t c d hc (⟨id, hid⟩ | ⟨response, b, hb, hmem⟩)
    · cases (hpending id _ hid).2
      cases hc
    · exact List.not_mem_nil hmem
  have horders : ∀ d, orders (World.start shell displays) [] d = [] := fun _ => rfl
  have hnext : 0 < (2 : UInt32).toNat ∧ (2 : UInt32).toNat ≤ 2 := by decide
  have hhello : (1 : UInt32) ≠ 0 ∧ (1 : UInt32).toNat < (2 : UInt32).toNat := by decide
  refine ⟨⟨hnext, ?_, ?_, ?_, ?_, fun x hx => absurd hx List.not_mem_nil, hup, ?_⟩, ?_⟩
  · intro id x hx
    rw [(hpending id x hx).1]
    exact hhello
  · intro x hx
    rw [List.mem_singleton.mp hx]
    exact hhello.2
  · intro x _ t c d hc hd
    cases (hpending _ _ hc).2
    cases hd
  · intro d hadd
    rw [horders] at hadd
    cases hadd
  · intro d hd
    exact absurd hd ExtTreeMap.not_mem_empty
  · intro d _
    have hunbound : ¬ (view (World.start shell displays) [] d).bound := ExtTreeMap.not_mem_empty
    have hidle : ¬ (view (World.start shell displays) [] d).resizing := ExtTreeSet.not_mem_empty
    refine ⟨List.not_mem_nil, fun hmem => absurd hmem List.not_mem_nil, List.not_mem_nil,
      fun hmem => absurd hmem List.not_mem_nil, fun hbound => absurd hbound hunbound,
      fun hr => absurd hr hidle, ?_, fun _ hbound => absurd hbound hunbound⟩
    rintro t g ⟨previous, -, ht⟩
    exact absurd ht (hout t _ d rfl)

def completedDisplay : Block → Option UInt32
  | .launchAddResponse _ _ displayId _ | .resizeResponse displayId _ _ => some displayId
  | _ => none

/-- Nothing about `d` is on its way: no DISPLAY_ADD is unprocessed or unanswered,
and no answer or event is queued. -/
structure Quiescent (w : World) (d : UInt32) : Prop where
  frames : ∀ f ∈ w.toQemu, frameOrder d f ≠ some .add
  tasks : ∀ x ∈ w.looper, taskOrder d x ≠ some .add
  pending : ∀ x ∈ w.pending.toList, displayOf x.2.2 ≠ some d
  replies : ∀ x ∈ w.outgoing ++ w.toShell, replySignal d x = none
  completions : ∀ x ∈ w.mainQueue, completedDisplay x.2 ≠ some d
  events : ∀ x ∈ w.mainQueue, blockSignal d x = none

instance (w : World) (d : UInt32) : Decidable (Quiescent w d) :=
  decidable_of_iff
    ((∀ f ∈ w.toQemu, frameOrder d f ≠ some .add) ∧ (∀ x ∈ w.looper, taskOrder d x ≠ some .add) ∧
      (∀ x ∈ w.pending.toList, displayOf x.2.2 ≠ some d) ∧
      (∀ x ∈ w.outgoing ++ w.toShell, replySignal d x = none) ∧
      (∀ x ∈ w.mainQueue, completedDisplay x.2 ≠ some d) ∧
      ∀ x ∈ w.mainQueue, blockSignal d x = none)
    ⟨fun ⟨h₁, h₂, h₃, h₄, h₅, h₆⟩ => ⟨h₁, h₂, h₃, h₄, h₅, h₆⟩,
      fun h => ⟨h.frames, h.tasks, h.pending, h.replies, h.completions, h.events⟩⟩

theorem completedDisplay_of_block {c : Completion} {response : Response} {b : Block}
    (hb : c.block response = some b) : completedDisplay b = displayOf c := by
  cases c <;> cases hb <;> rfl

namespace Quiescent

variable {w : World} {d : UInt32} (h : Quiescent w d)
include h

theorem signals_eq : signals w d = [] := by
  have hblocks : w.mainQueue.filterMap (blockSignal d) = [] :=
    List.filterMap_eq_nil_iff.mpr h.events
  have hshell : w.toShell.filterMap (replySignal d) = [] :=
    List.filterMap_eq_nil_iff.mpr fun x hx => h.replies x (List.mem_append_right _ hx)
  have houtgoing : w.outgoing.filterMap (replySignal d) = [] :=
    List.filterMap_eq_nil_iff.mpr fun x hx => h.replies x (List.mem_append_left _ hx)
  rw [signals, hblocks, hshell, houtgoing]
  rfl

theorem not_outstanding {t : Nat} {c : Completion} (hc : displayOf c = some d) :
    ¬ Outstanding w t c := by
  rintro (⟨id, hid⟩ | ⟨response, b, hb, hmem⟩)
  · exact h.pending (id, t, c) (ExtTreeMap.mem_toList_iff_getElem?_eq_some.mpr hid) hc
  · exact h.completions (t, b) hmem ((completedDisplay_of_block hb).trans hc)

end Quiescent

theorem inv_of_exec {shell : AppDelegate} {displays : MultiDisplay.State}
    (hup : Upright displays) {steps : List PipelineStep} {w : World}
    (hrun : exec World.step (World.start shell displays) steps = some w)
    (htrusted : Meets World.step Trusted (World.start shell displays) steps)
    (horderly : Meets World.step Orderly (World.start shell displays) steps)
    (hids : w.issued.length < 2 ^ 32 - 1) : Inv w [] := by
  have hkeep := exec_guarded_invariant
    (I := fun w => Tracked w ∧ (w.issued.length < 2 ^ 32 - 1 → Inv w [])) ?_ steps
    ⟨tracked_start shell displays, fun _ => inv_start shell hup⟩ (htrusted.and horderly) hrun
  · exact hkeep.2 hids
  · rintro w step w' ⟨htracked, hinv⟩ ⟨htrusted, horderly⟩ hstep
    refine ⟨tracked_step htracked step hstep, fun hids => ?_⟩
    have hbefore := hinv (Nat.lt_of_le_of_lt (issued_le_step hstep) hids)
    exact hbefore.step htracked.drained htrusted horderly hstep hids

theorem upright_empty : Upright ⟨∅, false⟩ := by
  intro d info _ hinfo
  rw [ExtTreeMap.getElem?_empty] at hinfo
  cases hinfo

/-- The guest pipe is up, which is enough for ERROR to mean what it says. -/
def pipeUp : PipelineStep → Bool
  | .task around => around.env.pipe && !around.env.hotPlugDisplayEnabled &&
      decide (ControlReceiver.kMaxUserDisplayId < around.header.invalidIdMultiDisplay)
  | _ => true

theorem trusted_of_pipeUp {step : PipelineStep} (h : pipeUp step = true) (w : World) :
    Trusted w step := by
  cases step with
  | task around =>
    simp only [pipeUp, Bool.and_eq_true, Bool.not_eq_true', decide_eq_true_eq] at h
    obtain ⟨⟨hpipe, hcold⟩, hinvalid⟩ := h
    intro tag requestId request rest _
    refine ⟨hcold, hinvalid, ?_⟩
    rw [DisplayErrors.authoritative_handleDisplayAdd_iff around w.displays requestId request
      hinvalid]
    intro hdown
    rw [hpipe] at hdown
    cases hdown
  | _ => trivial

theorem meets_trusted {steps : List PipelineStep} (h : steps.all pipeUp = true) (w : World) :
    Meets World.step Trusted w steps :=
  meets_of_forall (fun _ hstep => trusted_of_pipeUp (List.all_eq_true.mp h _ hstep)) w

/-- A launch, and a rotation that times out before the emulator has seen it. -/
def timedOutRotation : List PipelineStep :=
  [.localBlock upSurroundings (.agentConnection true) [],
    .localBlock upSurroundings
      (.launch "org.example/.Main" ⟨"Match Current Screen", 1440, 2560, 240⟩ true) [],
    .looperStarts, .receive 0, .receive 0, .task (plainSurroundings true), .send, .send,
    .read, .read, .read, .mainBlock upSurroundings [], .mainBlock upSurroundings [],
    .localBlock upSurroundings .rotateFocused [], .timeout 5, .mainBlock upSurroundings []]

/-- The emulator rotates the display after all, and its event is followed. -/
def lateRotation : List PipelineStep :=
  timedOutRotation ++
    [.receive 0, .receive 0, .receive 0, .task (plainSurroundings true), .send, .send,
      .read, .read, .read, .read, .mainBlock upSurroundings [], .receive 0, .read]

/-- Before the emulator gets to the rotation the window moves to a screen of
5120 by 1440 points at scale 2, whose geometry the emulator refuses. -/
def overtakenResize : List PipelineStep :=
  timedOutRotation ++
    [.localBlock upSurroundings (.changedScreen 1 ⟨"Match Current Screen", 2880, 10240, 480⟩) [],
      .receive 0, .receive 0, .receive 0, .receive 0, .receive 0,
      .task (plainSurroundings true), .send, .send, .task (plainSurroundings true), .send,
      .read, .read, .read, .read, .read, .read,
      .mainBlock upSurroundings [], .mainBlock upSurroundings [], .receive 0, .read]

/-- In every run whose steps are orderly and meet the assumption on the emulator:
when nothing about a bound display is on its way and it is not being removed,
the profile and the table agree on its width, height and density. -/
theorem display_geometry_agrees (shell : AppDelegate) (displays : MultiDisplay.State)
    (hup : Upright displays) (steps : List PipelineStep) (w : World)
    (hrun : exec World.step (World.start shell displays) steps = some w)
    (htrusted : Meets World.step Trusted (World.start shell displays) steps)
    (horderly : Meets World.step Orderly (World.start shell displays) steps)
    (hids : w.issued.length < 2 ^ 32 - 1) (d : UInt32) (hquiet : Quiescent w d)
    (hbound : d ∈ w.shell.displayAppBindings) (hkept : d ∉ w.shell.displayRemovalPending) :
    ∃ profile info, w.shell.displayLaunchProfiles[d]? = some profile ∧
      w.displays.mMultiDisplay[d]? = some info ∧ profile.width = info.width ∧
      profile.height = info.height ∧ profile.dpi = info.dpi := by
  have h := inv_of_exec hup hrun htrusted horderly hids
  have hlaunch : ¬ (view w [] d).launching := by
    rintro ⟨component, packageName, ⟨t, ht⟩ | ⟨e, he, -⟩⟩
    · exact hquiet.not_outstanding rfl ht
    · exact List.not_mem_nil he
  have hresizes : ∀ t g, ¬ (view w [] d).resizes t g := by
    rintro t g ⟨previous, -, ht⟩
    exact hquiet.not_outstanding rfl ht
  have hunsent : ∀ g, ¬ (view w [] d).unsent g := by
    rintro g ⟨previous, -, e, he, -⟩
    exact List.not_mem_nil he
  obtain ⟨q, htable, hprofile⟩ := (h.consistent d (h.traffic.ranged d hbound)).agree hbound hkept
    hquiet.signals_eq hlaunch hresizes hunsent
  obtain ⟨info, hinfo, hq⟩ := Option.map_eq_some_iff.mp htable
  obtain ⟨profile, hprofile, hp⟩ := Option.map_eq_some_iff.mp hprofile
  obtain ⟨hwidth, hheight, hdpi⟩ := Geometry.mk.inj (hp.trans hq.symm)
  exact ⟨profile, info, hprofile, hinfo, hwidth, hheight, hdpi⟩

theorem display_geometry_agrees_late_rotation :
    ∃ w, exec World.step (World.start {} ⟨∅, false⟩) lateRotation = some w ∧
      Meets World.step Trusted (World.start {} ⟨∅, false⟩) lateRotation ∧
      Meets World.step Orderly (World.start {} ⟨∅, false⟩) lateRotation ∧ Quiescent w 1 ∧
      ∃ profile info, w.shell.displayLaunchProfiles[(1 : UInt32)]? = some profile ∧
        w.displays.mMultiDisplay[(1 : UInt32)]? = some info ∧ profile.width = info.width ∧
        profile.height = info.height ∧ profile.dpi = info.dpi := by
  obtain ⟨w, hrun, hids, hquiet, hbound, hkept⟩ := exists_of_map_decide
    (o := exec World.step (World.start {} ⟨∅, false⟩) lateRotation)
    (p := fun w => w.issued.length < 2 ^ 32 - 1 ∧ Quiescent w 1 ∧
      1 ∈ w.shell.displayAppBindings ∧ 1 ∉ w.shell.displayRemovalPending) (by decide +kernel)
  have htrusted : Meets World.step Trusted (World.start {} ⟨∅, false⟩) lateRotation :=
    meets_trusted (by decide) _
  have horderly : Meets World.step Orderly (World.start {} ⟨∅, false⟩) lateRotation := by
    decide +kernel
  exact ⟨w, hrun, htrusted, horderly, hquiet, display_geometry_agrees {} ⟨∅, false⟩ upright_empty
    lateRotation w hrun htrusted horderly hids 1 hquiet hbound hkept⟩

/-- The resize that fails restores the geometry it captured, although the shell
had followed the emulator to another one since. Nothing is on its way any more
and the display stays as the emulator does not have it. -/
theorem display_geometry_lost_when_resize_overtaken :
    Upright ⟨∅, false⟩ ∧
      Meets World.step Trusted (World.start {} ⟨∅, false⟩) overtakenResize ∧
      ∃ w, exec World.step (World.start {} ⟨∅, false⟩) overtakenResize = some w ∧
        w.issued.length < 2 ^ 32 - 1 ∧ Quiescent w 1 ∧ 1 ∈ w.shell.displayAppBindings ∧
        1 ∉ w.shell.displayRemovalPending ∧
        w.shell.displayLaunchProfiles[(1 : UInt32)]?.map DisplayLaunchProfile.geometry =
          some ⟨1440, 2560, 240⟩ ∧
        tableGeometry w.displays 1 = some ⟨2560, 1440, 240⟩ :=
  ⟨upright_empty, meets_trusted (by decide) _, exists_of_map_decide (by decide +kernel)⟩

end DisplayGeometry
end MacMu
