import Mathlib.Tactic.Common

/-!
A sequence lock over a family of words. A writer makes the sequence number odd,
stores every word of its transaction in some order, and makes the number even
again. A reader takes the number, loads the words one by one while the writer
goes on, and accepts what it has loaded if the number is still the same. The
reader sees the number modulo `m` only; nothing is said about a reader that
misses `m` increments, and nothing about memory that reorders accesses.
-/

namespace MacMu
namespace Seqlock

universe u v
variable {ι : Type u} {α : ι → Type v}

/-- `ticks` counts the increments, without wrap-around. `contents` is what the
last transaction stores, `left` what of it is still to be stored. -/
structure Cell (ι : Type u) (α : ι → Type v) where
  ticks : Nat
  words : (i : ι) → α i
  contents : (i : ι) → α i
  left : ι → Prop

namespace Cell

def Idle (c : Cell ι α) : Prop := c.ticks % 2 = 0

inductive Write [DecidableEq ι] : Cell ι α → Cell ι α → Prop where
  | start (c : Cell ι α) (contents : (i : ι) → α i) (idle : c.Idle) :
      Write c { c with ticks := c.ticks + 1, contents := contents, left := fun _ => True }
  | store (c : Cell ι α) (i : ι) (busy : ¬ c.Idle) :
      Write c { c with
        words := Function.update c.words i (c.contents i)
        left := fun j => j ≠ i ∧ c.left j }
  | finish (c : Cell ι α) (busy : ¬ c.Idle) (done : ∀ i, ¬ c.left i) :
      Write c { c with ticks := c.ticks + 1 }

/-- What has been stored is the transaction's, and an idle cell has all of it. -/
structure Sound (c : Cell ι α) : Prop where
  stored : ∀ i, ¬ c.left i → c.words i = c.contents i
  whole : c.Idle → ∀ i, ¬ c.left i

theorem Sound.words_eq {c : Cell ι α} (h : c.Sound) (hidle : c.Idle) : c.words = c.contents := by
  funext i
  exact h.stored i (h.whole hidle i)

/-- Since tick `since` the reader has loaded `seen`. -/
structure Observed (c : Cell ι α) (since : Nat) (seen : (i : ι) → Option (α i)) : Prop where
  le : since ≤ c.ticks
  idle : since % 2 = 0
  unchanged : c.ticks = since → ∀ i w, seen i = some w → c.words i = w

section Writer

variable [DecidableEq ι] {c c' : Cell ι α}

theorem Sound.write (h : c.Sound) (hw : Write c c') : c'.Sound := by
  cases hw with
  | start contents idle =>
    refine ⟨fun i hleft => absurd trivial hleft, ?_⟩
    intro hidle
    simp only [Idle] at idle hidle
    omega
  | store i busy =>
    refine ⟨?_, fun hidle => absurd hidle busy⟩
    intro j hleft
    by_cases heq : j = i
    · subst heq
      exact Function.update_self j _ _
    · change Function.update c.words i (c.contents i) j = c.contents j
      rw [Function.update_of_ne heq]
      exact h.stored j fun hj => hleft ⟨heq, hj⟩
  | finish busy done => exact ⟨h.stored, fun _ => done⟩

theorem Observed.write {since : Nat} {seen : (i : ι) → Option (α i)} (h : c.Observed since seen)
    (hw : Write c c') : c'.Observed since seen := by
  have hle := h.le
  cases hw with
  | start contents idle | finish busy done =>
    refine ⟨Nat.le_succ_of_le hle, h.idle, ?_⟩
    intro heq
    change c.ticks + 1 = since at heq
    omega
  | store i busy =>
    refine ⟨hle, h.idle, ?_⟩
    intro heq
    refine absurd ?_ busy
    rw [Idle, show c.ticks = since from heq]
    exact h.idle

end Writer

section Reader

variable {c : Cell ι α}

theorem Observed.start (h : c.Idle) : c.Observed c.ticks fun _ => none :=
  ⟨Nat.le_refl _, h, fun _ _ _ hnone => by cases hnone⟩

theorem Observed.load [DecidableEq ι] {since : Nat} {seen : (i : ι) → Option (α i)}
    (h : c.Observed since seen) (i : ι) :
    c.Observed since (Function.update seen i (some (c.words i))) := by
  refine ⟨h.le, h.idle, ?_⟩
  intro hticks j w hw
  by_cases heq : j = i
  · subst heq
    rw [Function.update_self] at hw
    exact Option.some.inj hw
  · rw [Function.update_of_ne heq] at hw
    exact h.unchanged hticks j w hw

theorem Observed.ticks_eq {since m : Nat} {seen : (i : ι) → Option (α i)}
    (h : c.Observed since seen) (hsame : c.ticks % m = since % m) (hfew : c.ticks - since < m) :
    c.ticks = since := by
  have hzero : (c.ticks - since) % m = 0 := Nat.sub_mod_eq_zero_of_mod_eq hsame
  rw [Nat.mod_eq_of_lt hfew] at hzero
  exact Nat.le_antisymm (Nat.le_of_sub_eq_zero hzero) h.le

theorem Observed.accept {since m : Nat} {seen : (i : ι) → Option (α i)} {ws : (i : ι) → α i}
    (h : c.Observed since seen) (hsame : c.ticks % m = since % m) (hfew : c.ticks - since < m)
    (hall : ∀ i, seen i = some (ws i)) : c.Idle ∧ c.words = ws := by
  have hticks := h.ticks_eq hsame hfew
  refine ⟨?_, funext fun i => h.unchanged hticks i (ws i) (hall i)⟩
  rw [Idle, hticks]
  exact h.idle

end Reader

end Cell
end Seqlock
end MacMu
