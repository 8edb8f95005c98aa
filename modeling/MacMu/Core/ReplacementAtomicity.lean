import MacMu.Core.ReplacementDirectories

/-!
Replacement with at most one fault. A call that returns false leaves the destination
as it was, and one that returns true has put the image of the source there. What can
go wrong is a staging directory from an earlier call that cannot be removed: a source
on another volume is copied into it, and what the source does not have stays.
-/

namespace MacMu
namespace ImageReplacement

open FileTree SystemImage TransitionSystem

section Kept

variable {α : Type}

/-- The images before the source is staged. A copy overwrites all that is left. -/
structure Untouched (b : Before α) (crossVolume : Bool) (x : Slots α) : Prop where
  destination : x .destination = b.destination
  source : x .source = b.source
  importing : crossVolume = true → (x .importing).Within b.source

/-- The images once the source is staged, while the destination is in its place. -/
structure Staged (b : Before α) (spent : Bool) (x : Slots α) : Prop where
  destination : x .destination = b.destination
  importing : x .importing = b.source
  previous : spent = false → x .previous = Image.nothing

structure BackedUp (b : Before α) (x : Slots α) : Prop where
  destination : x .destination = Image.nothing
  previous : x .previous = b.destination
  present : b.destination [] ≠ none

/-- What is at the four places after a run with at most one fault; `spent` is whether
it has happened. -/
def Kept (b : Before α) (crossVolume spent : Bool) : Stage → Slots α → Prop
  | .checkSource, x | .makeRuntime .., x | .removeImporting, x | .removePrevious, x =>
    Untouched b crossVolume x
  | .makeParent, x | .moveSource, x =>
    Untouched b crossVolume x ∧ (spent = false → x .previous = Image.nothing)
  | .copySource, x =>
    (Untouched b crossVolume x ∧ (spent = false → x .previous = Image.nothing)) ∧
      crossVolume = true
  | .checkStaged, x | .findDestination, x => Staged b spent x
  | .backUp, x => Staged b spent x ∧ b.destination [] ≠ none
  | .activate, x =>
    (BackedUp b x ∧ x .importing = b.source) ∨
      Staged b spent x ∧ (b.destination [] = none ∨ spent = true ∧ x .previous = Image.nothing)
  | .findPrevious, x =>
    spent = true ∧
      (BackedUp b x ∨ x .destination = b.destination ∧ x .previous = Image.nothing)
  | .restore, x => spent = true ∧ BackedUp b x
  | .cleanCopy, x | .dropStaged, x | .returned false, x => x .destination = b.destination
  | .dropPrevious, x | .returned true, x => x .destination = b.source

end Kept

section Steps

variable {α : Type} {setup : Setup α} {source : Source} {b : Before α} {spent : Bool}
  {outcome : Outcome α} {stage stage' : Stage} {x x' : Slots α}

theorem kept_afterRuntime (h : Untouched b source.crossVolume x) (rest : List (List String)) :
    Kept b source.crossVolume spent (afterRuntime rest) x := by
  cases rest <;> exact h

theorem Untouched.remove {slot : Slot} (h : Untouched b source.crossVolume x)
    (hslot : slot = .importing ∨ slot = .previous) :
    Untouched b source.crossVolume (x.remove slot outcome) := by
  rcases hslot with rfl | rfl
  · refine ⟨?_, ?_, fun hcross => ?_⟩
    · rw [x.remove_of_ne outcome (by decide)]
      exact h.destination
    · rw [x.remove_of_ne outcome (by decide)]
      exact h.source
    · rw [x.remove_self]
      exact (h.importing hcross).survivors _
  · refine ⟨?_, ?_, fun hcross => ?_⟩
    · rw [x.remove_of_ne outcome (by decide)]
      exact h.destination
    · rw [x.remove_of_ne outcome (by decide)]
      exact h.source
    · rw [x.remove_of_ne outcome (by decide)]
      exact h.importing hcross

theorem Untouched.previous_nothing (hprevious : spent = false → x .previous = Image.nothing)
    (hspent : (spent || !outcome.isOk) = false) : x .previous = Image.nothing :=
  hprevious (Bool.or_eq_false_iff.mp hspent).1

theorem Kept.findDestination (hlink : ∀ absolute target,
      b.destination [] ≠ some (.link absolute target))
    (h : Staged b spent x) {found : Bool} (hlooked : Looked (x .destination) outcome found)
    (hfault : spent = true → outcome.isOk = true) :
    Kept b source.crossVolume (spent || !outcome.isOk) (if found then .backUp else .activate) x := by
  have hstaged : Staged b (spent || !outcome.isOk) x :=
    ⟨h.destination, h.importing, fun hspent => h.previous (Bool.or_eq_false_iff.mp hspent).1⟩
  rw [h.destination] at hlooked
  cases outcome with
  | ok =>
    have hfound := looked_ok hlink hlooked
    cases found with
    | true => exact ⟨hstaged, hfound.mp rfl⟩
    | false => exact .inr ⟨hstaged, .inl (not_not.mp fun hne => nomatch hfound.mpr hne)⟩
  | fault residue =>
    cases looked_fault hlooked
    have hspent : spent = false := by
      cases spent with
      | false => rfl
      | true => cases hfault rfl
    exact .inr ⟨hstaged, .inr ⟨by simp [Outcome.isOk], h.previous hspent⟩⟩

/-- An activation that fails without the one fault finds something in its way. -/
theorem Kept.notActivated (hsource : b.source [] ≠ none)
    (h : Kept b source.crossVolume spent .activate x)
    (hfits : outcome.isOk = true → ¬(x .importing).Fits (x .destination))
    (hfault : spent = true → outcome.isOk = true) :
    Kept b source.crossVolume (spent || !outcome.isOk) .findPrevious x := by
  rcases h with ⟨hbacked, himporting⟩ | ⟨hstaged, hrest⟩
  · rw [himporting, hbacked.destination] at hfits
    have hfaulty : outcome.isOk = false :=
      Bool.eq_false_iff.mpr fun hok => hfits hok (Image.fits_of_none hsource rfl)
    exact ⟨by rw [hfaulty]; exact Bool.or_true _, .inl hbacked⟩
  · rw [hstaged.importing, hstaged.destination] at hfits
    rcases hrest with hnone | ⟨hspent, hprevious⟩
    · have hfaulty : outcome.isOk = false :=
        Bool.eq_false_iff.mpr fun hok => hfits hok (Image.fits_of_none hsource hnone)
      have hunspent : spent = false := by
        cases spent with
        | false => rfl
        | true => cases hfaulty.symm.trans (hfault rfl)
      exact ⟨by rw [hfaulty]; exact Bool.or_true _,
        .inr ⟨hstaged.destination, hstaged.previous hunspent⟩⟩
    · exact ⟨by rw [hspent]; rfl, .inr ⟨hstaged.destination, hprevious⟩⟩

theorem Kept.step (hsource : b.source [] ≠ none)
    (hlink : ∀ absolute target, b.destination [] ≠ some (.link absolute target))
    (h : Kept b source.crossVolume spent stage x)
    (hmoves : Moves setup source outcome stage x stage' x')
    (hfault : spent = true → outcome.isOk = true) :
    Kept b source.crossVolume (spent || !outcome.isOk) stage' x' := by
  cases hmoves with
  | checkSource passed =>
    cases passed with
    | false => exact Untouched.destination h
    | true => exact kept_afterRuntime h _
  | makeRuntime =>
    split
    · exact kept_afterRuntime h _
    · exact Untouched.destination h
  | removeImporting => exact Untouched.remove h (.inl rfl)
  | removePrevious =>
    refine ⟨Untouched.remove h (.inr rfl), fun hspent => ?_⟩
    have hok : outcome.isOk = true := by simpa using (Bool.or_eq_false_iff.mp hspent).2
    cases outcome with
    | ok => rw [x.remove_self, Outcome.left, Image.survivors_nil]
    | fault residue => cases hok
  | makeParent made =>
    cases made with
    | false => exact h.1.destination
    | true => exact ⟨h.1, Untouched.previous_nothing h.2⟩
  | moved =>
    refine ⟨?_, ?_, fun hspent => ?_⟩
    · rw [x.rename_of_ne (by decide) (by decide)]
      exact h.1.destination
    · rw [x.rename_new]
      exact h.1.source
    · rw [x.rename_of_ne (by decide) (by decide)]
      exact Untouched.previous_nothing h.2 hspent
  | crossDevice hvolume => exact ⟨⟨h.1, Untouched.previous_nothing h.2⟩, hvolume⟩
  | notMoved => exact h.1.destination
  | copied =>
    refine ⟨?_, ?_, fun hspent => ?_⟩
    · rw [Function.update_of_ne (by decide)]
      exact h.1.1.destination
    · rw [Function.update_self, h.1.1.source, Image.merge_of_within (h.1.1.importing h.2)]
    · rw [Function.update_of_ne (by decide)]
      exact Untouched.previous_nothing h.1.2 hspent
  | notCopied => exact (Function.update_of_ne (by decide) ..).trans h.1.1.destination
  | cleanCopy => exact (x.remove_of_ne _ (by decide)).trans h
  | checkStaged passed =>
    cases passed with
    | false => exact Staged.destination h
    | true => exact ⟨h.destination, h.importing, Untouched.previous_nothing h.previous⟩
  | findDestination found hlooked => exact Kept.findDestination hlink h hlooked hfault
  | backedUp =>
    refine .inl ⟨⟨x.rename_old (by decide), ?_, h.2⟩, ?_⟩
    · rw [x.rename_new]
      exact h.1.destination
    · rw [x.rename_of_ne (by decide) (by decide)]
      exact h.1.importing
  | notBackedUp => exact h.1.destination
  | activated =>
    refine (x.rename_new).trans ?_
    rcases h with ⟨-, himporting⟩ | ⟨hstaged, -⟩
    · exact himporting
    · exact hstaged.importing
  | notActivated hfits => exact Kept.notActivated hsource h hfits hfault
  | findPrevious found hlooked =>
    obtain ⟨hspent, hrest⟩ := h
    cases outcome with
    | fault residue => cases hfault hspent
    | ok =>
      rcases hrest with hbacked | ⟨hdestination, hprevious⟩
      · rw [hbacked.previous] at hlooked
        rw [if_pos ((looked_ok hlink hlooked).mpr hbacked.present)]
        exact ⟨by rw [hspent]; rfl, hbacked⟩
      · rw [hprevious] at hlooked
        cases show found = false from hlooked
        exact hdestination
  | restored =>
    refine (x.rename_new).trans ?_
    exact h.2.previous
  | notRestored hfits =>
    refine absurd ?_ (hfits (hfault h.1))
    rw [h.2.destination, h.2.previous]
    exact Image.fits_of_none h.2.present rfl
  | dropStaged | dropPrevious => exact (x.remove_of_ne _ (by decide)).trans h

end Steps

section Runs

variable {α : Type} {setup : Setup α} {source : Source} {site : Site} {t : Tree α}

def faults (outcomes : List (Outcome α)) : Nat := outcomes.countP fun outcome => !outcome.isOk

theorem Kept.exec {b : Before α} (hsource : b.source [] ≠ none)
    (hlink : ∀ absolute target, b.destination [] ≠ some (.link absolute target))
    {outcomes : List (Outcome α)} {spent : Bool} {s last : State α} {x : Slots α}
    (hkept : Kept b source.crossVolume spent s.stage x)
    (hsim : Sim setup source site s.stage s.tree x) (hfaults : faults outcomes + spent.toNat ≤ 1)
    (hrun : exec (State.step setup source) s outcomes = some last) :
    ∃ spent x, Kept b source.crossVolume spent last.stage x ∧
      Sim setup source site last.stage last.tree x := by
  induction outcomes generalizing spent s x with
  | nil =>
    cases hrun
    exact ⟨spent, x, hkept, hsim⟩
  | cons outcome outcomes ih =>
    rw [exec_cons] at hrun
    obtain ⟨next, hstep, hrest⟩ := Option.bind_eq_some_iff.mp hrun
    obtain ⟨x', hmoves, hsim'⟩ := hsim.step hstep
    rw [faults, List.countP_cons, ← faults] at hfaults
    have hfault : spent = true → outcome.isOk = true := by
      rintro rfl
      cases hok : outcome.isOk with
      | true => rfl
      | false =>
        rw [hok] at hfaults
        simp at hfaults
    refine ih (hkept.step hsource hlink hmoves hfault) hsim' ?_ hrest
    cases hok : outcome.isOk <;> cases spent <;> simp [hok] at hfaults ⊢ <;> omega

end Runs

namespace Sample

/-- The activation fails once everything before it is done. -/
def refused : List (Outcome Unit) :=
  List.replicate 9 .ok ++ [.fault ⟨0, [], []⟩, .ok, .ok, .ok]

/-- An earlier call has left a staging directory with a file of its own. -/
def leftover : Tree Unit :=
  .ofList (entries ++ image ["img", "sys.importing"] ++
    [(["img", "sys.importing", "extra"], .file () true)])

end Sample

end ImageReplacement
end MacMu
