import Mathlib.Data.List.Perm.Basic
import Mathlib.Data.List.Nodup

/-!
Conservation of tokens in a concurrent program. Each token is given out once and
is from then on in the hands of its own thread (`held`) or in one of the shared
places, listed together; a step moves tokens and neither copies nor drops one.
Tickets are the numbers that threads draw from a shared counter.
-/

namespace MacMu
namespace Custody

variable {τ κ : Type}
variable {i : τ} {id : κ}

/-- `i` drew the ticket `id`; `number` is how the counter's values are written. -/
def Drew (number : Nat → κ) (drawn : List τ) (i : τ) (id : κ) : Prop :=
  ∃ n, drawn[n]? = some i ∧ id = number n

variable {number : Nat → κ} {drawn : List τ}

theorem Drew.append (h : Drew number drawn i id) (more : List τ) :
    Drew number (drawn ++ more) i id := by
  obtain ⟨n, hn, rfl⟩ := h
  refine ⟨n, ?_, rfl⟩
  rw [List.getElem?_append_left (List.getElem?_eq_some_iff.mp hn).1, hn]

theorem drew_last (number : Nat → κ) (drawn : List τ) (i : τ) :
    Drew number (drawn ++ [i]) i (number drawn.length) :=
  ⟨drawn.length, List.getElem?_concat_length, rfl⟩

theorem Drew.owner_unique
    (hnumber : ∀ n m, n < drawn.length → m < drawn.length → number n = number m → n = m) {j : τ}
    (hi : Drew number drawn i id) (hj : Drew number drawn j id) : i = j := by
  obtain ⟨n, hn, hid⟩ := hi
  obtain ⟨m, hm, rfl⟩ := hj
  have hnm := hnumber m n (List.getElem?_eq_some_iff.mp hm).1 (List.getElem?_eq_some_iff.mp hn).1
    hid
  subst hnm
  rw [hm] at hn
  exact (Option.some.inj hn).symm

theorem Drew.id_unique (hnodup : drawn.Nodup) {id' : κ} (h : Drew number drawn i id)
    (h' : Drew number drawn i id') : id = id' := by
  obtain ⟨n, hn, rfl⟩ := h
  obtain ⟨m, hm, rfl⟩ := h'
  obtain ⟨hlt, hget⟩ := List.getElem?_eq_some_iff.mp hn
  obtain ⟨hlt', hget'⟩ := List.getElem?_eq_some_iff.mp hm
  rw [(List.Nodup.getElem_inj_iff hnodup).mp (hget.trans hget'.symm)]

variable [DecidableEq τ]

/-- Every token that was given out is in one place, and no other token exists. -/
def Conserved (held : τ → Nat) (places given : List τ) : Prop :=
  ∀ i, held i + places.count i = if i ∈ given then 1 else 0

variable {held : τ → Nat} {places places' given : List τ}

section

variable (h : Conserved held places given)
include h

theorem Conserved.perm (hp : places'.Perm places) : Conserved held places' given := by
  intro i
  rw [hp.count_eq]
  exact h i

theorem Conserved.congr {held' : τ → Nat} (heq : ∀ i, held' i = held i) :
    Conserved held' places given := by
  intro i
  rw [heq i]
  exact h i

theorem Conserved.give (hi : i ∉ given) {held' : τ → Nat} (hself : held' i = 1)
    (hother : ∀ j, j ≠ i → held' j = held j) :
    Conserved held' places (given ++ [i]) := by
  intro j
  have hj := h j
  by_cases heq : j = i
  · subst heq
    rw [if_neg hi] at hj
    rw [if_pos (List.mem_append_right _ List.mem_cons_self), hself]
    omega
  · rw [hother j heq, hj]
    simp only [List.mem_append, List.mem_singleton, heq, or_false]

theorem Conserved.put (hi : held i = 1) {held' : τ → Nat} (hself : held' i = 0)
    (hother : ∀ j, j ≠ i → held' j = held j) :
    Conserved held' (i :: places) given := by
  intro j
  have hj := h j
  by_cases heq : j = i
  · subst heq
    rw [List.count_cons_self, hself, ← hj, hi]
    omega
  · rw [hother j heq, List.count_cons_of_ne (Ne.symm heq)]
    exact hj

theorem Conserved.pick {rest : List τ} (hp : places.Perm (i :: rest)) (hi : held i = 0)
    {held' : τ → Nat} (hself : held' i = 1)
    (hother : ∀ j, j ≠ i → held' j = held j) : Conserved held' rest given := by
  intro j
  have hj := h j
  rw [hp.count_eq] at hj
  by_cases heq : j = i
  · subst heq
    rw [List.count_cons_self] at hj
    omega
  · rw [List.count_cons_of_ne (Ne.symm heq)] at hj
    rw [hother j heq]
    exact hj

theorem Conserved.not_mem (hi : held i = 1) : i ∉ places := by
  intro hmem
  have hpos := List.count_pos_iff.mpr hmem
  have hconserved := h i
  split at hconserved <;> omega

theorem Conserved.count_eq_one (hi : held i = 0) (hgiven : i ∈ given) : places.count i = 1 := by
  have hconserved := h i
  rw [if_pos hgiven, hi] at hconserved
  omega

end

end Custody
end MacMu
