import Mathlib.Data.List.Perm.Lattice

/-!
`PendingRequestTable`: the callbacks of requests that wait for an answer, under
the key of their request. Each operation takes the table's mutex once, so each
is one step here; `fail_all` and `sweep_timeouts` hand back what they have
removed, and their callers run those callbacks afterwards without the mutex.
Both clients of the class add only callbacks that are there, so the tests for
an empty one are left out. The specifications say where callbacks go: no
operation but `add` on a key in use loses one.
-/

namespace MacMu

open Std

structure Pending (γ : Type) where
  callback : γ
  deadlineMs : UInt64
  deriving DecidableEq, Repr

structure PendingRequestTable (κ γ : Type) [Ord κ] where
  pending : ExtTreeMap κ (Pending γ)

namespace PendingRequestTable

variable {κ γ : Type} [Ord κ] [TransOrd κ] (t : PendingRequestTable κ γ)

/-- The callbacks in the table, in the order of their keys. -/
def callbacks : List γ := t.pending.toList.map fun entry => entry.2.callback

def empty : PendingRequestTable κ γ := ⟨∅⟩

/-- `nowMs` is the reading of the steady clock; the sum wraps as the code's does. -/
def add (key : κ) (callback : γ) (nowMs timeoutMs : UInt64) : PendingRequestTable κ γ :=
  ⟨t.pending.insert key ⟨callback, nowMs + timeoutMs⟩⟩

def take (key : κ) : Option γ × PendingRequestTable κ γ :=
  match t.pending[key]? with
  | none => (none, t)
  | some entry => (some entry.callback, ⟨t.pending.erase key⟩)

def failAll : List γ × PendingRequestTable κ γ := (t.callbacks, empty)

def sweepTimeouts (nowMs : UInt64) : List γ × PendingRequestTable κ γ :=
  (callbacks ⟨t.pending.filter fun _ entry => entry.deadlineMs ≤ nowMs⟩,
    ⟨t.pending.filter fun _ entry => !decide (entry.deadlineMs ≤ nowMs)⟩)

/-- Every callback in the table is under a key that `P` allows for it. -/
def Keyed (P : κ → γ → Prop) : Prop :=
  ∀ key entry, t.pending[key]? = some entry → P key entry.callback

variable {t} {P : κ → γ → Prop}

theorem callbacks_empty : (empty : PendingRequestTable κ γ).callbacks = [] := rfl

theorem callbacks_sweepTimeouts (t : PendingRequestTable κ γ) (nowMs : UInt64) :
    t.callbacks.Perm ((t.sweepTimeouts nowMs).1 ++ (t.sweepTimeouts nowMs).2.callbacks) := by
  simp only [sweepTimeouts, callbacks, ExtTreeMap.toList_filter, ← List.map_append]
  exact (List.filter_append_perm _ _).symm.map _

theorem keyed_empty (P : κ → γ → Prop) : (empty : PendingRequestTable κ γ).Keyed P := by
  intro k entry hentry
  rw [empty, ExtTreeMap.getElem?_empty] at hentry
  cases hentry

theorem Keyed.imp {Q : κ → γ → Prop} (h : t.Keyed P) (hPQ : ∀ k c, P k c → Q k c) : t.Keyed Q :=
  fun k entry hentry => hPQ k entry.callback (h k entry hentry)

theorem Keyed.take (h : t.Keyed P) (key : κ) : (t.take key).2.Keyed P := by
  unfold PendingRequestTable.take
  split
  · exact h
  · intro k entry hentry
    rw [ExtTreeMap.getElem?_erase] at hentry
    split at hentry
    · cases hentry
    · exact h k entry hentry

theorem Keyed.of_take (h : t.Keyed P) {key : κ} {c : γ} (htake : (t.take key).1 = some c) :
    P key c := by
  unfold PendingRequestTable.take at htake
  split at htake <;> cases htake
  rename_i entry hentry
  exact h key entry hentry

section LawfulKeys

variable [LawfulEqOrd κ]

theorem nodup_toList {β : Type} (m : ExtTreeMap κ β) : m.toList.Nodup := by
  apply List.Pairwise.imp _ m.distinct_keys_toList
  intro a b hab heq
  rw [heq] at hab
  exact hab ReflCmp.compare_self

theorem toList_perm_erase {β : Type} {m : ExtTreeMap κ β} {k : κ} {v : β} (h : m[k]? = some v) :
    m.toList.Perm ((k, v) :: (m.erase k).toList) := by
  have hfresh : (k, v) ∉ (m.erase k).toList := by
    rw [ExtTreeMap.mem_toList_iff_getElem?_eq_some, ExtTreeMap.getElem?_erase_self]
    exact fun h => nomatch h
  rw [List.perm_ext_iff_of_nodup (nodup_toList m) (List.nodup_cons.mpr ⟨hfresh, nodup_toList _⟩)]
  rintro ⟨k', v'⟩
  rw [List.mem_cons, ExtTreeMap.mem_toList_iff_getElem?_eq_some,
    ExtTreeMap.mem_toList_iff_getElem?_eq_some, ExtTreeMap.getElem?_erase]
  by_cases hk : k = k'
  · subst hk
    simp only [h, compare_self, if_true, Option.some.injEq, Prod.mk.injEq, true_and, reduceCtorEq,
      or_false]
    exact eq_comm
  · simp only [Std.compare_eq_iff_eq, hk, if_false, Prod.mk.injEq, Ne.symm hk, false_and, false_or]

theorem mem_callbacks {c : γ} : c ∈ t.callbacks ↔ ∃ (key : κ) (entry : Pending γ),
      t.pending[key]? = some entry ∧ entry.callback = c := by
  simp only [callbacks, List.mem_map, Prod.exists, ExtTreeMap.mem_toList_iff_getElem?_eq_some]

theorem callbacks_of_getElem? {key : κ} {entry : Pending γ} (h : t.pending[key]? = some entry) :
    t.callbacks.Perm (entry.callback :: callbacks ⟨t.pending.erase key⟩) :=
  (toList_perm_erase h).map _

theorem callbacks_add {key : κ} (h : key ∉ t.pending) (callback : γ) (nowMs timeoutMs : UInt64) :
    (t.add key callback nowMs timeoutMs).callbacks.Perm (callback :: t.callbacks) := by
  have hentry : (t.add key callback nowMs timeoutMs).pending[key]? =
      some ⟨callback, nowMs + timeoutMs⟩ := ExtTreeMap.getElem?_insert_self
  have herase : (t.pending.insert key ⟨callback, nowMs + timeoutMs⟩).erase key = t.pending := by
    apply ExtTreeMap.ext_getElem?
    intro k
    rw [ExtTreeMap.getElem?_erase, ExtTreeMap.getElem?_insert]
    split
    · rename_i hk
      rw [← LawfulEqOrd.eq_of_compare hk, ExtTreeMap.getElem?_eq_none h]
    · rfl
  refine (callbacks_of_getElem? hentry).trans ?_
  simp only [add, herase]
  exact List.Perm.refl _

theorem callbacks_take (t : PendingRequestTable κ γ) (key : κ) :
    t.callbacks.Perm ((t.take key).1.toList ++ (t.take key).2.callbacks) := by
  unfold take
  split
  · exact List.Perm.refl _
  · rename_i entry hentry
    exact callbacks_of_getElem? hentry

theorem callbacks_take_subset (t : PendingRequestTable κ γ) (key : κ) :
    (t.take key).2.callbacks ⊆ t.callbacks := by
  intro c hc
  exact (callbacks_take t key).mem_iff.mpr (List.mem_append_right _ hc)

theorem Keyed.take_other (h : t.Keyed P) {key : κ} {c : γ} (hc : c ∈ (t.take key).2.callbacks) :
    ∃ k, k ≠ key ∧ P k c := by
  obtain ⟨k, entry, hentry, rfl⟩ := mem_callbacks.mp hc
  refine ⟨k, ?_, h.take key k entry hentry⟩
  rintro rfl
  unfold PendingRequestTable.take at hentry
  split at hentry
  · rename_i hnone
    rw [hnone] at hentry
    cases hentry
  · rw [ExtTreeMap.getElem?_erase_self] at hentry
    cases hentry

theorem Keyed.add (h : t.Keyed P) {key : κ} {callback : γ} (hkey : P key callback)
    (nowMs timeoutMs : UInt64) : (t.add key callback nowMs timeoutMs).Keyed P := by
  intro k entry hentry
  rw [PendingRequestTable.add, ExtTreeMap.getElem?_insert] at hentry
  split at hentry
  · rename_i hk
    cases hentry
    rw [← LawfulEqOrd.eq_of_compare hk]
    exact hkey
  · exact h k entry hentry

theorem Keyed.sweepTimeouts (h : t.Keyed P) (nowMs : UInt64) :
    (t.sweepTimeouts nowMs).2.Keyed P := by
  intro k entry hentry
  rw [PendingRequestTable.sweepTimeouts, ExtTreeMap.getElem?_filter',
    Option.filter_eq_some_iff] at hentry
  exact h k entry hentry.1

end LawfulKeys
end PendingRequestTable
end MacMu
