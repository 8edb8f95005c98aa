import MacMu.Core.ReplacementDirectories

/-!
Calls one after another, each of which may stop after any of its operations. The first
thing a call does is to remove what an earlier one has left beside the system path. A
call that begins while the image is at the system path itself keeps a complete image at
one of the three places, whatever fails and wherever it stops. One that begins while
the only image is the backup of an interrupted call removes it.
-/

namespace MacMu
namespace ImageReplacement

open FileTree SystemImage TransitionSystem

section Safe

variable {α : Type}

def Safe (isDisk : α → Bool) : Stage → Slots α → Prop
  | .checkSource, x | .makeRuntime .., x | .removeImporting, x | .removePrevious, x
  | .makeParent, x | .moveSource, x | .copySource, x =>
    (x .destination).Complete isDisk ∧ (x .source).Complete isDisk
  | .checkStaged, x | .findDestination, x | .backUp, x =>
    (x .destination).Complete isDisk ∧ (x .importing).Complete isDisk
  | .activate, x =>
    ((x .destination).Complete isDisk ∨ (x .previous).Complete isDisk) ∧
      (x .importing).Complete isDisk
  | .findPrevious, x | .restore, x | .dropStaged, x | .returned false, x =>
    (x .destination).Complete isDisk ∨ (x .previous).Complete isDisk
  | .cleanCopy, x | .dropPrevious, x | .returned true, x => (x .destination).Complete isDisk

variable {isDisk : α → Bool} {setup : Setup α} {source : Source} {outcome : Outcome α}
  {stage stage' : Stage} {x x' : Slots α}

theorem Safe.complete (h : Safe isDisk stage x) :
    (x .destination).Complete isDisk ∨ (x .previous).Complete isDisk := by
  cases stage with
  | findPrevious | restore | dropStaged => exact h
  | activate => exact h.1
  | cleanCopy | dropPrevious => exact .inl h
  | returned result =>
    cases result with
    | false => exact h
    | true => exact .inl h
  | _ => exact .inl h.1

theorem safe_afterRuntime (h : (x .destination).Complete isDisk ∧ (x .source).Complete isDisk)
    (rest : List (List String)) : Safe isDisk (afterRuntime rest) x := by
  cases rest <;> exact h

theorem safe_remove {slot : Slot} (hslot : slot = .importing ∨ slot = .previous)
    (h : (x .destination).Complete isDisk ∧ (x .source).Complete isDisk) :
    (x.remove slot outcome .destination).Complete isDisk ∧
      (x.remove slot outcome .source).Complete isDisk := by
  rcases hslot with rfl | rfl <;>
    rwa [x.remove_of_ne _ (by decide), x.remove_of_ne _ (by decide)]

/-- An operation, with or without a fault, leaves a complete image. -/
theorem Safe.step (h : Safe setup.isDisk stage x)
    (hmoves : Moves setup source outcome stage x stage' x') : Safe setup.isDisk stage' x' := by
  cases hmoves with
  | checkSource passed =>
    cases passed with
    | true => exact safe_afterRuntime h _
    | false => exact .inl h.1
  | makeRuntime =>
    split
    · exact safe_afterRuntime h _
    · exact .inl h.1
  | removeImporting => exact safe_remove (.inl rfl) h
  | removePrevious => exact safe_remove (.inr rfl) h
  | makeParent made =>
    cases made with
    | true => exact h
    | false => exact .inl h.1
  | moved =>
    refine ⟨?_, ?_⟩
    · rw [x.rename_of_ne (by decide) (by decide)]
      exact h.1
    · rw [x.rename_new]
      exact h.2
  | crossDevice => exact h
  | notMoved => exact .inl h.1
  | copied =>
    refine ⟨?_, ?_⟩
    · rw [Function.update_of_ne (by decide)]
      exact h.1
    · rw [Function.update_self]
      exact h.2.merge
  | notCopied =>
    change Image.Complete _ (Function.update x _ _ _)
    rw [Function.update_of_ne (by decide)]
    exact h.1
  | cleanCopy =>
    refine .inl ?_
    rw [x.remove_of_ne _ (by decide)]
    exact h
  | checkStaged passed =>
    cases passed with
    | true => exact h
    | false => exact .inl h.1
  | findDestination found =>
    cases found with
    | true => exact h
    | false => exact ⟨.inl h.1, h.2⟩
  | backedUp =>
    refine ⟨.inr ?_, ?_⟩
    · rw [x.rename_new]
      exact h.1
    · rw [x.rename_of_ne (by decide) (by decide)]
      exact h.2
  | notBackedUp => exact .inl h.1
  | activated =>
    change Image.Complete _ (x.rename .importing .destination .destination)
    rw [x.rename_new]
    exact h.2
  | notActivated => exact h.1
  | findPrevious found => cases found <;> exact h
  | restored hfits =>
    refine .inl ?_
    rw [x.rename_new]
    exact h.resolve_left fun hcomplete => hcomplete.not_fits hfits
  | notRestored => exact h
  | dropStaged =>
    change Image.Complete _ (x.remove _ _ .destination) ∨
      Image.Complete _ (x.remove _ _ .previous)
    rw [x.remove_of_ne _ (by decide), x.remove_of_ne _ (by decide)]
    exact h
  | dropPrevious =>
    change Image.Complete _ (x.remove _ _ .destination)
    rw [x.remove_of_ne _ (by decide)]
    exact h

end Safe

section Calls

structure Calls (α : Type) where
  tree : Tree α
  running : Option (Source × Stage)

inductive Event (α : Type) where
  | begin (source : Source)
  | operate (outcome : Outcome α)
  | crash

variable {α : Type}

def Stage.ended : Stage → Bool
  | .returned _ => true
  | _ => false

def Calls.step (setup : Setup α) (c : Calls α) : Event α → Option (Calls α)
  | .begin source =>
    match c.running with
    | none => some ⟨c.tree, some (source, .checkSource)⟩
    | some _ => none
  | .operate outcome =>
    match c.running with
    | none => none
    | some (source, stage) =>
      (State.step setup source ⟨c.tree, stage⟩ outcome).map fun s =>
        ⟨s.tree, if s.stage.ended then none else some (source, s.stage)⟩
  | .crash =>
    match c.running with
    | none => none
    | some _ => some ⟨c.tree, none⟩

def Setup.survives (setup : Setup α) (t : Tree α) : Prop :=
  ∃ path ∈ [setup.destination, setup.previous, setup.importing],
    setup.imageExistsAt t path = true

instance (setup : Setup α) (t : Tree α) : Decidable (setup.survives t) :=
  inferInstanceAs (Decidable (∃ path ∈ _, _))

variable (setup : Setup α)

def Calls.Admits (c : Calls α) : Event α → Prop
  | .begin source =>
    (∃ site made, Ready setup source site setup.runtimeDirectories c.tree made) ∧
      (imageAt c.tree setup.dir setup.name).Complete setup.isDisk ∧
      (imageAt c.tree source.dir source.name).Complete setup.isDisk
  | .operate _ | .crash => True

/-- Between calls a complete image is found; during a call the places are known. -/
def Calls.Kept (c : Calls α) : Prop :=
  match c.running with
  | none => setup.survives c.tree
  | some (source, stage) =>
    Proper setup.name ∧
      ∃ site x, Sim setup source site stage c.tree x ∧ Safe setup.isDisk stage x

variable {setup} {source : Source} {site : Site} {t : Tree α} {stage : Stage} {x : Slots α}

theorem survives_of_safe (hproper : Proper setup.name) (hsim : Sim setup source site stage t x)
    (hsafe : Safe setup.isDisk stage x) : setup.survives t := by
  obtain ⟨hdestination, -, hprevious⟩ := setup.paths
  rcases hsafe.complete with hcomplete | hcomplete
  · refine ⟨_, List.mem_cons_self, ?_⟩
    rw [← hsim.imageAt .destination] at hcomplete
    rw [hdestination]
    exact imageExistsAt_of_imageAt hproper hcomplete
  · refine ⟨_, List.mem_cons_of_mem _ List.mem_cons_self, ?_⟩
    rw [← hsim.imageAt .previous] at hcomplete
    rw [hprevious]
    exact imageExistsAt_of_imageAt (proper_append (by decide)) hcomplete

theorem Calls.Kept.step {c c' : Calls α} {event : Event α} (h : c.Kept setup)
    (hadmits : c.Admits setup event) (hstep : c.step setup event = some c') : c'.Kept setup := by
  obtain ⟨t, running⟩ := c
  cases event with
  | begin source =>
    cases running with
    | some call => cases hstep
    | none =>
      cases hstep
      obtain ⟨⟨site, made, hready⟩, hdestination, hsource⟩ := hadmits
      refine ⟨hready.ways.proper, site, _, .begun hready, ?_, ?_⟩
      · rw [← hready.same .destination]
        exact hdestination
      · rw [← hready.same .source]
        exact hsource
  | operate outcome =>
    cases running with
    | none => cases hstep
    | some call =>
      obtain ⟨source, stage⟩ := call
      obtain ⟨hproper, site, x, hsim, hsafe⟩ := h
      obtain ⟨s, hs, rfl⟩ := Option.map_eq_some_iff.mp hstep
      obtain ⟨x', hmoves, hsim'⟩ := hsim.step hs
      have hsafe' := hsafe.step hmoves
      unfold Calls.Kept
      cases hended : s.stage.ended with
      | true => exact survives_of_safe hproper hsim' hsafe'
      | false => exact ⟨hproper, site, x', hsim', hsafe'⟩
  | crash =>
    cases running with
    | none => cases hstep
    | some call =>
      obtain ⟨source, stage⟩ := call
      obtain ⟨hproper, site, x, hsim, hsafe⟩ := h
      cases hstep
      exact survives_of_safe hproper hsim hsafe

end Calls

namespace Sample

/-- The call stops once the old image is out of the way. -/
def interrupted : List (Event Unit) := List.replicate 9 (.operate .ok) ++ [.crash]

end Sample

end ImageReplacement
end MacMu
