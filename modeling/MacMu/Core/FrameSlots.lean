import MacMu.Core.FrameConsumer

/-!
Each slot of the frame channel is a sequence lock, and the steps of the producer
are the accesses of its writer. Between two transactions a slot holds the words
of one transaction, or the zeros of a fresh table.
-/

namespace MacMu
namespace FrameConsumer

open Function Seqlock

def cell (s : ShmDisplaySlot) (w : Option Writer) : Cell Field fun f => Word f.Value where
  ticks := s.ticks
  words := s.load
  contents := (w.map Writer.words).getD s.load
  left := fun f => ∃ x ∈ w, f ∈ x.left

def Stored (log : List Transaction) (ws : (f : Field) → Word f.Value) : Prop :=
  ws = ShmDisplaySlot.zero.load ∨ ∃ (n : Nat) (t : Transaction), log[n]? = some t ∧ ws = t.words n

structure SlotInv (s : ShmDisplaySlot) (w : Option Writer) (log : List Transaction) : Prop where
  seq : s.seq.toNat = s.ticks % 2 ^ 64
  idle : (cell s w).Idle ↔ w = none
  sound : (cell s w).Sound
  stored : Stored log (cell s w).contents

@[simp] theorem load_increment (s : ShmDisplaySlot) : s.increment.load = s.load := by
  funext f
  cases f <;> rfl

theorem seq_increment {s : ShmDisplaySlot} (h : s.seq.toNat = s.ticks % 2 ^ 64) :
    s.increment.seq.toNat = s.increment.ticks % 2 ^ 64 := by
  change (s.seq + 1).toNat = (s.ticks + 1) % 2 ^ 64
  rw [UInt64.toNat_add, h, UInt64.toNat_one, Nat.mod_add_mod]

theorem slotInv_zero (log : List Transaction) : SlotInv .zero none log where
  seq := rfl
  idle := ⟨fun _ => rfl, fun _ => rfl⟩
  sound := ⟨fun _ _ => rfl, fun _ _ hleft => by obtain ⟨x, hx, -⟩ := hleft; cases hx⟩
  stored := .inl rfl

theorem mem_fields (f : Field) : f ∈ [Field.frame, .iosurfaceId, .width, .height] := by
  cases f <;> decide

section Producer

variable {s : ShmDisplaySlot} {log : List Transaction}

theorem SlotInv.open (h : SlotInv s none log) (t : Transaction) :
    let w : Writer := ⟨t, log.length, [.frame, .iosurfaceId, .width, .height]⟩
    SlotInv s.increment (some w) (log ++ [t]) ∧
      Cell.Write (cell s none) (cell s.increment (some w)) := by
  intro w
  have hcell : cell s.increment (some w) =
      { cell s none with
        ticks := s.ticks + 1, contents := t.words log.length, left := fun _ => True } := by
    have hleft : (fun f => ∃ x ∈ some w, f ∈ x.left) = fun _ => True := by
      funext f
      exact eq_true ⟨w, rfl, mem_fields f⟩
    simp only [cell, load_increment, hleft]
    rfl
  have hwrite : Cell.Write (cell s none) (cell s.increment (some w)) := by
    rw [hcell]
    exact .start (cell s none) (t.words log.length) (h.idle.mpr rfl)
  refine ⟨⟨seq_increment h.seq, ?_, h.sound.write hwrite, ?_⟩, hwrite⟩
  · have hidle : s.ticks % 2 = 0 := h.idle.mpr rfl
    refine iff_of_false ?_ (by simp only [reduceCtorEq, not_false_eq_true])
    change ¬ (s.ticks + 1) % 2 = 0
    omega
  · refine .inr ⟨log.length, t, ?_, rfl⟩
    rw [List.getElem?_append_right (Nat.le_refl _), Nat.sub_self]
    rfl

theorem SlotInv.store {w : Writer} (h : SlotInv s (some w) log) (f : Field) :
    SlotInv (s.store f (w.words f)) (some { w with left := w.left.filter (· ≠ f) }) log ∧
      Cell.Write (cell s (some w))
        (cell (s.store f (w.words f)) (some { w with left := w.left.filter (· ≠ f) })) := by
  have hcell : cell (s.store f (w.words f)) (some { w with left := w.left.filter (· ≠ f) }) =
      { cell s (some w) with
        words := update s.load f (w.words f)
        left := fun g => g ≠ f ∧ (cell s (some w)).left g } := by
    have hleft : (fun g => ∃ x ∈ some { w with left := w.left.filter (· ≠ f) }, g ∈ x.left) =
        fun g => g ≠ f ∧ ∃ x ∈ some w, g ∈ x.left := by
      funext g
      simp only [Option.mem_some_iff, exists_eq_left', List.mem_filter, decide_eq_true_eq, ne_eq,
        eq_iff_iff]
      exact And.comm
    simp only [cell, ShmDisplaySlot.load_store, ShmDisplaySlot.ticks_store, hleft]
    rfl
  have hbusy : ¬ (cell s (some w)).Idle := fun hidle => by cases h.idle.mp hidle
  have hwrite : Cell.Write (cell s (some w))
      (cell (s.store f (w.words f)) (some { w with left := w.left.filter (· ≠ f) })) := by
    rw [hcell]
    exact .store (cell s (some w)) f hbusy
  refine ⟨⟨?_, ?_, h.sound.write hwrite, h.stored⟩, hwrite⟩
  · rw [ShmDisplaySlot.seq_store, ShmDisplaySlot.ticks_store]
    exact h.seq
  · refine iff_of_false ?_ (by simp only [reduceCtorEq, not_false_eq_true])
    rw [hcell]
    exact hbusy

theorem SlotInv.close {w : Writer} (h : SlotInv s (some w) log) (hleft : w.left = []) :
    SlotInv s.increment none log ∧
      Cell.Write (cell s (some w)) (cell s.increment none) := by
  have hdone : ∀ f, ¬ (cell s (some w)).left f := by
    rintro f ⟨x, hx, hf⟩
    cases hx
    rw [hleft] at hf
    exact List.not_mem_nil hf
  have hload : s.load = w.words := funext fun f => h.sound.stored f (hdone f)
  have hcell : cell s.increment none = { cell s (some w) with ticks := s.ticks + 1 } := by
    have hnone : (fun f => ∃ x ∈ (none : Option Writer), f ∈ x.left) = (cell s (some w)).left := by
      funext f
      refine propext (iff_of_false ?_ (hdone f))
      rintro ⟨x, hx, -⟩
      cases hx
    rw [cell, hnone, load_increment]
    simp only [cell, Option.map_none, Option.getD_none, Option.map_some, Option.getD_some, hload]
    rfl
  have hbusy : ¬ (cell s (some w)).Idle := fun hidle => by cases h.idle.mp hidle
  have hwrite : Cell.Write (cell s (some w)) (cell s.increment none) := by
    rw [hcell]
    exact .finish (cell s (some w)) hbusy hdone
  refine ⟨⟨seq_increment h.seq, ?_, h.sound.write hwrite, ?_⟩, hwrite⟩
  · refine iff_of_true ?_ rfl
    have hodd : ¬ s.ticks % 2 = 0 := hbusy
    change (s.ticks + 1) % 2 = 0
    omega
  · rw [hcell]
    exact h.stored

end Producer

end FrameConsumer
end MacMu
