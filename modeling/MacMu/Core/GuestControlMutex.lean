import MacMu.Core.GuestControlWire

/-!
The write mutex of `GuestControlClient`: at most one call is in the part of its
code that the mutex guards, and a connection is published, and shut down by
`stop`, only while no call is there.
-/

namespace MacMu
namespace GuestControlWire

open GuestControlClient

variable {s s' : State} {i : Nat}

def holds : CallerPhase → Bool
  | .locked _ | .loading .. | .sending .. => true
  | _ => false

def hasWritten : CallerPhase → Bool
  | .sending .. | .settling .. | .failed .. | .completing .. | .returned => true
  | _ => false

inductive MutexMove (s s' : State) (i : Nat) : Prop where
  | kept (hmutex : s'.writeMutex = s.writeMutex)
      (hholds : holds (s'.callers i) = holds (s.callers i))
  | locked (hfree : s.writeMutex = none) (hmutex : s'.writeMutex = some i)
  | unlocked (hheld : holds (s.callers i) = true) (hdone : holds (s'.callers i) = false)

/-- What a step of call `i` can do to the phases and the mutex. -/
structure CallerMove (s s' : State) (i : Nat) : Prop where
  others : ∀ j, j ≠ i → s'.callers j = s.callers j
  mutex : MutexMove s s' i
  written : hasWritten (s.callers i) = true → hasWritten (s'.callers i) = true
  begins : ∀ operation requestId, s'.callers i = .sending operation requestId →
    s.callers i = .loading operation requestId

theorem CallerMove.of_setCaller {t : State} {old phase : CallerPhase} (hphase : s.callers i = old)
    (hcallers : t.callers = s.callers)
    (hmutex : (t.writeMutex = s.writeMutex ∧ holds phase = holds old) ∨
      (s.writeMutex = none ∧ t.writeMutex = some i) ∨ (holds old = true ∧ holds phase = false))
    (hwritten : hasWritten old = true → hasWritten phase = true)
    (hbegins : ∀ operation requestId, phase = .sending operation requestId →
      old = .loading operation requestId) : CallerMove s (t.setCaller i phase) i := by
  have hi : (t.setCaller i phase).callers i = phase := Function.update_self ..
  refine ⟨?_, ?_, ?_, ?_⟩
  · intro j hj
    rw [State.setCaller, hcallers]
    exact Function.update_of_ne hj ..
  · obtain ⟨hkept, hsame⟩ | ⟨hfree, hlocked⟩ | ⟨hheld, hdone⟩ := hmutex
    · exact .kept hkept (by rw [hi, hphase, hsame])
    · exact .locked hfree hlocked
    · exact .unlocked (by rw [hphase, hheld]) (by rw [hi, hdone])
  · rw [hi, hphase]
    exact hwritten
  · rw [hi, hphase]
    exact hbegins

theorem CallerMove.early {t : State} {old phase : CallerPhase} (hphase : s.callers i = old)
    (hcallers : t.callers = s.callers) (hmutex : t.writeMutex = s.writeMutex)
    (hold : holds old = false) (hnew : holds phase = false)
    (hwritten : hasWritten old = true → hasWritten phase = true) :
    CallerMove s (t.setCaller i phase) i := by
  apply CallerMove.of_setCaller hphase hcallers (.inl ⟨hmutex, hnew.trans hold.symm⟩) hwritten
  rintro operation requestId rfl
  cases hnew

theorem holds_giveUp (callback : Bool) (message : String) :
    holds (State.giveUp callback message) = false := by
  cases callback <;> rfl

theorem callerStep_move {input : CallerInput} (h : s.callerStep i input = some s') :
    CallerMove s s' i := by
  unfold State.callerStep at h
  split at h
  · cases h
  · cases h
  · rename_i hphase
    cases h
    refine .early hphase rfl rfl rfl ?_ nofun
    split
    · rfl
    · exact holds_giveUp _ _
  · rename_i hphase
    split at h
    · cases h
      exact .early hphase rfl rfl rfl (holds_giveUp _ _) nofun
    · cases h
      exact .early hphase rfl rfl rfl rfl nofun
  · rename_i hphase
    cases h
    refine .early hphase rfl rfl rfl ?_ nofun
    split <;> rfl
  · rename_i hphase
    cases h
    refine .early hphase rfl rfl rfl ?_ nofun
    split <;> rfl
  · rename_i hphase
    cases h
    exact .early hphase rfl rfl rfl (holds_giveUp _ _) nofun
  · rename_i hphase
    cases h
    exact .early hphase rfl rfl rfl rfl nofun
  · rename_i hphase
    cases h
    exact .early hphase rfl rfl rfl rfl nofun
  · rename_i operation callback timeoutMs requestId hphase
    cases h
    refine .early hphase ?_ ?_ rfl ?_ nofun
    · cases callback <;> rfl
    · cases callback <;> rfl
    · cases operation <;> rfl
  · rename_i hphase
    split at h
    · cases h
      exact .early hphase rfl rfl rfl rfl nofun
    · rename_i hfree
      cases h
      have hnone : s.writeMutex = none := Option.not_isSome_iff_eq_none.mp fun hsome => hfree (.inl hsome)
      exact .of_setCaller hphase rfl (.inr (.inl ⟨hnone, rfl⟩)) nofun nofun
  · rename_i hphase
    cases h
    refine .early hphase rfl rfl rfl ?_ nofun
    split <;> rfl
  · rename_i operation requestId hphase
    split at h <;> cases h
    rename_i hfree
    have hnone := Option.not_isSome_iff_eq_none.mp hfree
    refine .of_setCaller hphase rfl (.inr (.inl ⟨hnone, rfl⟩)) nofun ?_
    cases operation <;> nofun
  · rename_i hphase
    split at h
    · cases h
      exact .of_setCaller hphase rfl (.inr (.inr ⟨rfl, rfl⟩)) nofun nofun
    · cases h
      exact .of_setCaller hphase rfl (.inl ⟨rfl, rfl⟩) nofun nofun
  · rename_i operation requestId hphase
    split at h
    · cases h
      refine .of_setCaller hphase rfl (.inl ⟨rfl, rfl⟩) nofun ?_
      intro operation' requestId' heq
      cases heq
      rfl
    · cases h
      cases operation <;> exact .of_setCaller hphase rfl (.inr (.inr ⟨rfl, rfl⟩)) nofun nofun
  · rename_i operation requestId hphase
    cases h
    cases operation with
    | request =>
      dsimp only
      split <;> exact .of_setCaller hphase rfl (.inr (.inr ⟨rfl, rfl⟩)) (fun _ => rfl) nofun
    | installApk =>
      exact .of_setCaller hphase rfl (.inr (.inr ⟨rfl, rfl⟩)) (fun _ => rfl) nofun
  · rename_i requestId sent hphase
    cases h
    cases sent <;> exact .early hphase rfl rfl rfl rfl fun _ => rfl
  · rename_i hphase
    split at h
    · cases h
      exact .early hphase rfl rfl rfl rfl fun _ => rfl
    · cases h
      exact .early hphase rfl rfl rfl rfl fun _ => rfl
  · rename_i hphase
    cases h
    exact .early hphase rfl rfl rfl rfl fun _ => rfl

/-- A call that holds the write mutex is the one the mutex names. -/
def Exclusive (s : State) : Prop := ∀ i, holds (s.callers i) = true → s.writeMutex = some i

theorem Exclusive.eq (h : Exclusive s) {j : Nat} (hi : holds (s.callers i) = true)
    (hj : holds (s.callers j) = true) : i = j :=
  Option.some.inj ((h i hi).symm.trans (h j hj))

theorem Exclusive.callerMove (h : Exclusive s) (hmove : CallerMove s s' i) : Exclusive s' := by
  intro j hj
  by_cases hji : j = i
  · subst hji
    cases hmove.mutex with
    | kept hmutex hholds => rw [hmutex, h j (by rw [← hholds, hj])]
    | locked hfree hmutex => exact hmutex
    | unlocked hheld hdone => rw [hdone] at hj; cases hj
  · rw [hmove.others j hji] at hj
    cases hmove.mutex with
    | kept hmutex hholds => rw [hmutex, h j hj]
    | locked hfree hmutex => rw [h j hj] at hfree; cases hfree
    | unlocked hheld hdone => exact absurd (h.eq hj hheld) hji

theorem acceptStep_frame {nowMs : UInt64} {arrival : GuestControlClient.Arrival}
    (h : s.acceptStep nowMs arrival = some s') :
    s'.callers = s.callers ∧ s'.writeMutex = s.writeMutex := by
  unfold State.acceptStep at h
  repeat' split at h
  all_goals cases h <;> exact ⟨rfl, rfl⟩

theorem publish_free {nowMs : UInt64} {arrival : GuestControlClient.Arrival} {fd : Nat}
    (hphase : s.accept = .publishing fd) (h : s.acceptStep nowMs arrival = some s') :
    s.writeMutex = none := by
  unfold State.acceptStep at h
  rw [hphase] at h
  dsimp only at h
  split at h
  · cases h
  · rename_i hfree
    exact Option.not_isSome_iff_eq_none.mp hfree

theorem stopStep_frame (h : s.stopStep = some s') :
    s'.callers = s.callers ∧ s'.writeMutex = s.writeMutex ∧
      (s.stop = .waking → s.writeMutex = none) := by
  unfold State.stopStep at h
  split at h
  case h_3 hphase =>
    split at h <;> cases h
    rename_i hfree
    exact ⟨rfl, rfl, fun _ => Option.not_isSome_iff_eq_none.mp hfree⟩
  case h_4 hphase =>
    split at h <;> cases h
    exact ⟨rfl, rfl, fun hwaking => absurd (hphase.symm.trans hwaking) nofun⟩
  all_goals
    rename_i hphase
    cases h <;> exact ⟨rfl, rfl, fun hwaking => absurd (hphase.symm.trans hwaking) nofun⟩

end GuestControlWire
end MacMu
