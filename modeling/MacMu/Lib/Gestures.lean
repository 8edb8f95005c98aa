import Mathlib.Data.List.Induction

/-!
Streams of gestures. A gesture starts, goes on any number of times and stops, all
under one key. Signals of several places are interleaved in one log, and each
place has a stream of its own. A stream is checked by an automaton that holds the
key of the gesture that is open; `follow_eq_some` says what the automaton accepts.
-/

namespace MacMu
namespace Gestures

universe u v
variable {π : Type u} {κ : Type v}
variable {key : Option κ} {stream : List (Phase × κ)}

inductive Phase where
  | start
  | within
  | stop
  deriving DecidableEq, Repr

structure Signal (π : Type u) (κ : Type v) where
  place : π
  key : κ
  phase : Phase
  deriving DecidableEq, Repr

def begun (key : κ) (moves : Nat) : List (Phase × κ) :=
  (.start, key) :: List.replicate moves (.within, key)

def complete (gesture : κ × Nat) : List (Phase × κ) :=
  begun gesture.1 gesture.2 ++ [(.stop, gesture.1)]

/-- Complete gestures, and one that goes on under the given key, if there is one. -/
def Stream : Option κ → List (Phase × κ) → Prop
  | none, stream => ∃ gestures : List (κ × Nat), stream = gestures.flatMap complete
  | some key, stream =>
    ∃ (gestures : List (κ × Nat)) (moves : Nat),
      stream = gestures.flatMap complete ++ begun key moves

theorem begun_succ (key : κ) (moves : Nat) :
    begun key (moves + 1) = begun key moves ++ [(.within, key)] := by
  rw [begun, List.replicate_succ', begun, List.cons_append]

section Places

variable [DecidableEq π]

def streamAt (place : π) (log : List (Signal π κ)) : List (Phase × κ) :=
  (log.filter (·.place = place)).map fun signal => (signal.phase, signal.key)

theorem streamAt_concat (place : π) (log : List (Signal π κ)) (signal : Signal π κ) :
    streamAt place (log ++ [signal]) =
      if signal.place = place then streamAt place log ++ [(signal.phase, signal.key)]
      else streamAt place log := by
  rw [streamAt, List.filter_append, List.map_append]
  split
  · rename_i hplace
    rw [List.filter_cons_of_pos (by simpa using hplace)]
    rfl
  · rename_i hplace
    rw [List.filter_cons_of_neg (by simpa using hplace)]
    exact List.append_nil _

end Places

variable [DecidableEq κ]

/-- The gesture that is open after a signal; nothing if the signal is out of place. -/
def next : Option κ → Phase × κ → Option (Option κ)
  | none, (.start, key) => some (some key)
  | some held, (.within, key) => if key = held then some (some held) else none
  | some held, (.stop, key) => if key = held then some none else none
  | _, _ => none

def follow (stream : List (Phase × κ)) : Option (Option κ) := stream.foldlM next none

theorem follow_concat (stream : List (Phase × κ)) (signal : Phase × κ) :
    follow (stream ++ [signal]) = (follow stream).bind fun key => next key signal := by
  rw [follow, List.foldlM_append, follow]
  cases stream.foldlM next none with
  | none => rfl
  | some key =>
    change [signal].foldlM next key = next key signal
    rw [List.foldlM_cons]
    cases next key signal <;> rfl

theorem next_eq_some {key' : Option κ} {signal : Phase × κ} (h : next key signal = some key') :
    (∃ k, key = none ∧ signal = (.start, k) ∧ key' = some k) ∨
      (∃ k, key = some k ∧ signal = (.within, k) ∧ key' = some k) ∨
      ∃ k, key = some k ∧ signal = (.stop, k) ∧ key' = none := by
  obtain ⟨phase, k⟩ := signal
  cases key with
  | none =>
    cases phase with
    | start => exact .inl ⟨k, rfl, rfl, (Option.some.inj h).symm⟩
    | within | stop => cases h
  | some open' =>
    cases phase with
    | start => cases h
    | within =>
      rw [next] at h
      split at h
      · rename_i heq
        exact .inr (.inl ⟨k, heq ▸ rfl, rfl, heq ▸ (Option.some.inj h).symm⟩)
      · cases h
    | stop =>
      rw [next] at h
      split at h
      · rename_i heq
        exact .inr (.inr ⟨k, heq ▸ rfl, rfl, (Option.some.inj h).symm⟩)
      · cases h

theorem Stream.concat {key' : Option κ} {signal : Phase × κ} (h : Stream key stream)
    (hnext : next key signal = some key') : Stream key' (stream ++ [signal]) := by
  obtain ⟨k, rfl, rfl, rfl⟩ | ⟨k, rfl, rfl, rfl⟩ | ⟨k, rfl, rfl, rfl⟩ := next_eq_some hnext
  · obtain ⟨gestures, rfl⟩ := h
    exact ⟨gestures, 0, rfl⟩
  · obtain ⟨gestures, moves, rfl⟩ := h
    exact ⟨gestures, moves + 1, by rw [begun_succ, List.append_assoc]⟩
  · obtain ⟨gestures, moves, rfl⟩ := h
    refine ⟨gestures ++ [(k, moves)], ?_⟩
    rw [List.flatMap_append, List.flatMap_singleton, complete, List.append_assoc]

theorem follow_append (h : follow stream = some key) (more : List (Phase × κ)) :
    follow (stream ++ more) = more.foldlM next key := by
  rw [follow, List.foldlM_append]
  rw [follow] at h
  rw [h]
  rfl

theorem foldlM_begun (key : κ) (moves : Nat) :
    (begun key moves).foldlM next none = some (some key) := by
  induction moves with
  | zero => rfl
  | succ moves ih =>
    rw [begun_succ, List.foldlM_append, ih]
    change [(Phase.within, key)].foldlM next (some key) = some (some key)
    rw [List.foldlM_cons, next, if_pos rfl]
    rfl

theorem follow_complete (gestures : List (κ × Nat)) :
    follow (gestures.flatMap complete) = some none := by
  induction gestures using List.reverseRecOn with
  | nil => rfl
  | append_singleton gestures gesture ih =>
    rw [List.flatMap_append, List.flatMap_singleton, complete, ← List.append_assoc,
      follow_concat, follow_append ih, foldlM_begun]
    simp [next]

theorem follow_eq_some : follow stream = some key ↔ Stream key stream := by
  constructor
  · intro h
    induction stream using List.reverseRecOn generalizing key with
    | nil =>
      cases h
      exact ⟨[], rfl⟩
    | append_singleton stream signal ih =>
      rw [follow_concat] at h
      obtain ⟨before, hbefore, hnext⟩ := Option.bind_eq_some_iff.mp h
      exact (ih hbefore).concat hnext
  · intro h
    cases key with
    | none =>
      obtain ⟨gestures, rfl⟩ := h
      exact follow_complete ..
    | some key =>
      obtain ⟨gestures, moves, rfl⟩ := h
      rw [follow_append (follow_complete gestures), foldlM_begun]

section Held

variable [DecidableEq π]

def held (place : π) (log : List (Signal π κ)) : Option (Option κ) := follow (streamAt place log)

theorem held_concat_self (log : List (Signal π κ)) (signal : Signal π κ) :
    held signal.place (log ++ [signal]) =
      (held signal.place log).bind fun key => next key (signal.phase, signal.key) := by
  rw [held, streamAt_concat, if_pos rfl, follow_concat]
  rfl

theorem held_concat_other {place : π} {signal : Signal π κ} (h : signal.place ≠ place)
    (log : List (Signal π κ)) : held place (log ++ [signal]) = held place log := by
  rw [held, streamAt_concat, if_neg h]
  rfl

theorem held_of_concat_ne_none {place : π} {log : List (Signal π κ)} {signal : Signal π κ}
    (h : held place (log ++ [signal]) ≠ none) : held place log ≠ none := by
  intro hnone
  by_cases hplace : signal.place = place
  · subst hplace
    rw [held_concat_self, hnone] at h
    exact h rfl
  · rw [held_concat_other hplace] at h
    exact h hnone

theorem held_eq_some {place : π} {log : List (Signal π κ)} {key : Option κ} :
    held place log = some key ↔ Stream key (streamAt place log) :=
  follow_eq_some

def Single (log : List (Signal π κ)) (gesture : Option (π × κ)) : Prop :=
  ∀ place, held place log =
    some (gesture.bind fun g => if g.1 = place then some g.2 else none)

theorem single_nil : Single ([] : List (Signal π κ)) none := fun _ => rfl

variable {log : List (Signal π κ)} {gesture : Option (π × κ)} {place : π} {key : κ}

/-- A signal at the place of the open gesture, or of the next one. -/
theorem Single.concat {after : Option κ} (h : Single log gesture) (phase : Phase)
    (hplace : ∀ g, gesture = some g → g.1 = place)
    (hnext : next (gesture.map Prod.snd) (phase, key) = some after) :
    Single (log ++ [⟨place, key, phase⟩]) (after.map fun k => (place, k)) := by
  intro other
  by_cases hother : place = other
  · subst hother
    have hheld : held place log = some (gesture.map Prod.snd) := by
      rw [h place]
      cases gesture with
      | none => rfl
      | some g => rw [Option.bind_some, if_pos (hplace g rfl)]; rfl
    rw [held_concat_self log ⟨place, key, phase⟩, hheld, Option.bind_some, hnext]
    cases after with
    | none => rfl
    | some k => rw [Option.map_some, Option.bind_some, if_pos rfl]
  · rw [held_concat_other hother, h other]
    congr 1
    have hleft : (gesture.bind fun g => if g.1 = other then some g.2 else none) = none := by
      cases gesture with
      | none => rfl
      | some g => rw [Option.bind_some, if_neg (hplace g rfl ▸ hother)]
    rw [hleft]
    cases after with
    | none => rfl
    | some k => rw [Option.map_some, Option.bind_some, if_neg hother]

theorem Single.start (h : Single log none) (place : π) (key : κ) :
    Single (log ++ [⟨place, key, .start⟩]) (some (place, key)) :=
  h.concat .start nofun rfl

theorem Single.within (h : Single log (some (place, key))) :
    Single (log ++ [⟨place, key, .within⟩]) (some (place, key)) :=
  h.concat .within (fun _ hg => by cases hg; rfl) (if_pos rfl)

theorem Single.stop (h : Single log (some (place, key))) :
    Single (log ++ [⟨place, key, .stop⟩]) none :=
  h.concat .stop (fun _ hg => by cases hg; rfl) (if_pos rfl)

theorem Single.eq_of_held (h : Single log gesture) (hheld : held place log = some (some key)) :
    gesture = some (place, key) := by
  rw [h place] at hheld
  cases gesture with
  | none => cases hheld
  | some g =>
    rw [Option.bind_some] at hheld
    split at hheld <;> cases hheld
    rename_i hplace
    rw [← hplace]

theorem held_of_concat {phase : Phase} (hphase : phase ≠ .start)
    (h : held place (log ++ [⟨place, key, phase⟩]) ≠ none) :
    held place log = some (some key) := by
  rw [held_concat_self log ⟨place, key, phase⟩] at h
  obtain ⟨after, hafter⟩ := Option.ne_none_iff_exists'.mp h
  obtain ⟨before, hbefore, hnext⟩ := Option.bind_eq_some_iff.mp hafter
  obtain ⟨k, -, hsignal, -⟩ | ⟨k, rfl, hsignal, -⟩ | ⟨k, rfl, hsignal, -⟩ := next_eq_some hnext
  · exact absurd (congrArg Prod.fst hsignal) hphase
  · have hkey : key = k := congrArg Prod.snd hsignal
    exact hkey ▸ hbefore
  · have hkey : key = k := congrArg Prod.snd hsignal
    exact hkey ▸ hbefore

end Held

end Gestures
end MacMu
