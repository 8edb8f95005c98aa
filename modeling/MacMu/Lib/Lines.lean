import Mathlib.Data.List.Basic
import Mathlib.Tactic.Common

/-!
A buffer cut into lines at a separator, one line at a time from the front. The
lines that are complete and the remainder after them do not depend on how the
buffer was filled: appending to the buffer later only completes more lines.
-/

namespace MacMu
namespace Lines

variable {α : Type} [DecidableEq α] (separator : α)
variable {line buffer : List α}

/-- The first line and what follows its separator, when it is there. -/
def next (buffer : List α) : Option (List α × List α) :=
  if separator ∈ buffer then
    some (buffer.takeWhile (· ≠ separator), (buffer.dropWhile (· ≠ separator)).tail)
  else none

variable {separator}

theorem next_append_cons (h : separator ∉ line) (rest : List α) :
    next separator (line ++ separator :: rest) = some (line, rest) := by
  have hline : ∀ c ∈ line, decide (c ≠ separator) = true := by
    intro c hc
    exact decide_eq_true (fun heq => h (heq ▸ hc))
  rw [next, if_pos (List.mem_append_right _ List.mem_cons_self),
    List.takeWhile_append_of_pos hline, List.dropWhile_append_of_pos hline]
  simp

theorem next_of_not_mem (h : separator ∉ buffer) : next separator buffer = none := if_neg h

theorem next_some {rest : List α} (h : next separator buffer = some (line, rest)) :
    separator ∉ line ∧ buffer = line ++ separator :: rest := by
  unfold next at h
  split at h
  · rename_i hmem
    obtain ⟨front, back, rfl, hfront⟩ := List.eq_append_cons_of_mem hmem
    have hnext := next_append_cons hfront back
    rw [next, if_pos hmem] at hnext
    obtain ⟨rfl, rfl⟩ := Prod.mk.inj (Option.some.inj (h.symm.trans hnext))
    exact ⟨hfront, rfl⟩
  · cases h

theorem length_lt_of_next {rest : List α} (h : next separator buffer = some (line, rest)) :
    rest.length < buffer.length := by
  rw [(next_some h).2, List.length_append, List.length_cons]
  omega

variable (separator)

def cut (buffer : List α) : List (List α) × List α :=
  match _h : next separator buffer with
  | none => ([], buffer)
  | some (line, rest) => (line :: (cut rest).1, (cut rest).2)
termination_by buffer.length
decreasing_by all_goals exact length_lt_of_next _h

variable {separator}

theorem cut_append_cons (h : separator ∉ line) (rest : List α) :
    cut separator (line ++ separator :: rest) =
      (line :: (cut separator rest).1, (cut separator rest).2) := by
  rw [cut]
  split
  · rename_i hnone
    rw [next_append_cons h] at hnone
    cases hnone
  · rename_i line' rest' hsome
    rw [next_append_cons h] at hsome
    cases hsome
    rfl

theorem cut_of_not_mem (h : separator ∉ buffer) : cut separator buffer = ([], buffer) := by
  rw [cut]
  split
  · rfl
  · rename_i hsome
    rw [next_of_not_mem h] at hsome
    cases hsome

theorem cut_append (first second : List α) :
    cut separator (first ++ second) =
      ((cut separator first).1 ++ (cut separator ((cut separator first).2 ++ second)).1,
        (cut separator ((cut separator first).2 ++ second)).2) := by
  fun_induction cut separator first with
  | case1 first hnone => rfl
  | case2 first line rest hsome ih =>
    obtain ⟨hline, rfl⟩ := next_some hsome
    rw [List.append_assoc, List.cons_append, cut_append_cons hline, ih]
    rfl

theorem cut_remainder (separator : α) (buffer : List α) :
    separator ∉ (cut separator buffer).2 ∧
      buffer = (cut separator buffer).1.flatMap (· ++ [separator]) ++ (cut separator buffer).2 := by
  fun_induction cut separator buffer with
  | case1 buffer hnone =>
    refine ⟨?_, rfl⟩
    intro hmem
    rw [next, if_pos hmem] at hnone
    cases hnone
  | case2 buffer line rest hsome ih =>
    obtain ⟨-, heq⟩ := next_some hsome
    refine ⟨ih.1, ?_⟩
    rw [List.flatMap_cons, List.append_assoc, List.append_assoc, ← ih.2, heq]
    rfl

theorem cut_flatMap (lines : List (List α)) (h : ∀ line ∈ lines, separator ∉ line) :
    cut separator (lines.flatMap (· ++ [separator])) = (lines, []) := by
  induction lines with
  | nil => exact cut_of_not_mem List.not_mem_nil
  | cons line lines ih =>
    have hrest := ih (fun l hl => h l (List.mem_cons_of_mem _ hl))
    rw [List.flatMap_cons, List.append_assoc, List.singleton_append,
      cut_append_cons (h line List.mem_cons_self), hrest]

end Lines
end MacMu
