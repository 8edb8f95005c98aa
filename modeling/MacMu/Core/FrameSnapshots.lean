import MacMu.Core.FrameSlots

/-!
A read of the frame channel that succeeds returns the words of one publish. The
reset of the table does not come into this because it holds the mutex, so no
read is under way. The result needs that fewer than 2^64 increments
of `seq` fall between the two loads of one attempt. The run at the end lets that
many through, and the read then returns words of two publishes.
-/

namespace MacMu
namespace FrameConsumer

open Function Seqlock TransitionSystem

variable {log : List Transaction}

/-- What `s0` was and when it was loaded. -/
def ReadPhase.begun : ReadPhase → Option (UInt64 × Nat)
  | .seq => none
  | .iosurfaceId s0 since | .width s0 since _ | .height s0 since _ _ | .frame s0 since _ _ _
  | .seqAgain s0 since _ _ _ _ => some (s0, since)

def ReadPhase.seen : ReadPhase → (f : Field) → Option (Word f.Value)
  | .seq | .iosurfaceId _ _ => fun _ => none
  | .width _ _ id => update (fun _ => none) .iosurfaceId (some id)
  | .height _ _ id x => update (update (fun _ => none) .iosurfaceId (some id)) .width (some x)
  | .frame _ _ id x y =>
    update (update (update (fun _ => none) .iosurfaceId (some id)) .width (some x)) .height
      (some y)
  | .seqAgain _ _ id x y k =>
    update (update (update (update (fun _ => none) .iosurfaceId (some id)) .width (some x))
      .height (some y)) .frame (some k)

/-- The attempt has seen the slot as it is, if no transaction has begun since. -/
def ReadPhase.Follows (c : Cell Field fun f => Word f.Value) (phase : ReadPhase) : Prop :=
  ∀ s0 since, phase.begun = some (s0, since) →
    s0.toNat = since % 2 ^ 64 ∧ c.Observed since phase.seen

def Untorn (log : List Transaction) (m : SurfaceMetadata) : Prop :=
  ∃ (n : Nat) (iosurfaceId width height : UInt32) (frame : UInt64),
    log[n]? = some (.publish iosurfaceId width height frame) ∧
      m.iosurfaceId = ⟨iosurfaceId, some n⟩ ∧ m.width = ⟨width, some n⟩ ∧
      m.height = ⟨height, some n⟩ ∧ m.frame = ⟨frame, some n⟩ ∧ frame ≠ 0

/-- A read that returned true returned one publish to its slot. -/
def Returned.Sound (log : Slot → List Transaction) (r : Returned) : Prop :=
  r.result = true → ∃ (slot : Slot) (m : SurfaceMetadata), slot.val = r.displayId.toNat ∧
    r.out = some m ∧ m.displayId = r.displayId ∧ Untorn (log slot) m

structure Inv (c : FrameChannel) : Prop where
  slots : ∀ d, SlotInv (c.slots d) (c.writers d) (c.log d)
  reading : ∀ displayId slot attempt phase,
    c.slotsMutex = .reading displayId slot attempt phase →
      slot.val = displayId.toNat ∧ phase.Follows (cell (c.slots slot) (c.writers slot))
  returned : ∀ r ∈ c.returned, r.Sound c.log

theorem inv_start (valid : Bool) : Inv (.start valid) where
  slots := fun _ => slotInv_zero []
  reading := fun _ _ _ _ hmutex => by cases hmutex
  returned := fun _ hr => absurd hr List.not_mem_nil

theorem Untorn.append {m : SurfaceMetadata} (h : Untorn log m) (t : Transaction) :
    Untorn (log ++ [t]) m := by
  obtain ⟨n, iosurfaceId, width, height, frame, hn, hwords⟩ := h
  refine ⟨n, iosurfaceId, width, height, frame, ?_, hwords⟩
  rw [List.getElem?_append_left (List.getElem?_eq_some_iff.mp hn).1]
  exact hn

section Steps

variable {c : FrameChannel} (h : Inv c)
variable {d : Slot}
include h

/-- The producer writes to slot `d`. -/
theorem Inv.written {s : ShmDisplaySlot} {w : Option Writer} {log : Slot → List Transaction}
    (hslot : SlotInv s w (log d)) (hwrite : Cell.Write (cell (c.slots d) (c.writers d)) (cell s w))
    (hother : ∀ e, e ≠ d → log e = c.log e) (huntorn : ∀ e m, Untorn (c.log e) m → Untorn (log e) m) :
    Inv { c with slots := update c.slots d s, writers := update c.writers d w, log := log } where
  slots := by
    intro e
    by_cases heq : e = d
    · subst heq
      simp only [update_self]
      exact hslot
    · simp only [update_of_ne heq, hother e heq]
      exact h.slots e
  reading := by
    intro displayId slot attempt phase hmutex
    obtain ⟨hval, hfollows⟩ := h.reading displayId slot attempt phase hmutex
    refine ⟨hval, ?_⟩
    by_cases heq : slot = d
    · subst heq
      simp only [update_self]
      intro s0 since hbegun
      obtain ⟨hs0, hobserved⟩ := hfollows s0 since hbegun
      exact ⟨hs0, hobserved.write hwrite⟩
    · simp only [update_of_ne heq]
      exact hfollows
  returned := by
    intro r hr hresult
    obtain ⟨slot, m, hval, hout, hid, hm⟩ := h.returned r hr hresult
    exact ⟨slot, m, hval, hout, hid, huntorn slot m hm⟩

theorem Inv.open (hidle : c.writers d = none) (t : Transaction) :
    Inv { c with
      slots := update c.slots d (c.slots d).increment
      writers := update c.writers d
        (some ⟨t, (c.log d).length, [.frame, .iosurfaceId, .width, .height]⟩)
      log := update c.log d (c.log d ++ [t]) } := by
  have hslot := h.slots d
  rw [hidle] at hslot
  obtain ⟨hopened, hwrite⟩ := hslot.open t
  refine h.written (d := d) ?_ ?_ ?_ ?_
  · rw [update_self]
    exact hopened
  · rw [hidle]
    exact hwrite
  · intro e he
    exact update_of_ne he _ _
  · intro e m hm
    by_cases heq : e = d
    · subst heq
      rw [update_self]
      exact hm.append t
    · rw [update_of_ne heq]
      exact hm

theorem Inv.store {w : Writer} (hw : c.writers d = some w) (f : Field) :
    Inv { c with
      slots := update c.slots d ((c.slots d).store f (w.words f))
      writers := update c.writers d (some { w with left := w.left.filter (· ≠ f) }) } := by
  have hslot := h.slots d
  rw [hw] at hslot
  obtain ⟨hstored, hwrite⟩ := hslot.store f
  refine h.written (d := d) hstored ?_ (fun _ _ => rfl) (fun _ _ hm => hm)
  rw [hw]
  exact hwrite

theorem Inv.close {w : Writer} (hw : c.writers d = some w) (hleft : w.left = []) :
    Inv { c with
      slots := update c.slots d (c.slots d).increment
      writers := update c.writers d none } := by
  have hslot := h.slots d
  rw [hw] at hslot
  obtain ⟨hclosed, hwrite⟩ := hslot.close hleft
  refine h.written (d := d) hclosed ?_ (fun _ _ => rfl) (fun _ _ hm => hm)
  rw [hw]
  exact hwrite

theorem Inv.turn {displayId : UInt32} {slot : Slot} {phase : ReadPhase}
    (hval : slot.val = displayId.toNat)
    (hfollows : phase.Follows (cell (c.slots slot) (c.writers slot))) (attempt : Nat) :
    Inv { c with slotsMutex := .reading displayId slot attempt phase } where
  slots := h.slots
  reading := by
    intro displayId' slot' attempt' phase' hmutex
    cases hmutex
    exact ⟨hval, hfollows⟩
  returned := h.returned

theorem Inv.answer (displayId : UInt32) (result : Bool) (out : Option SurfaceMetadata)
    (hsound : Returned.Sound c.log ⟨displayId, result, out⟩) :
    Inv (c.answer displayId result out) where
  slots := h.slots
  reading := fun _ _ _ _ hmutex => by cases hmutex
  returned := by
    intro r hr
    rcases List.mem_append.mp hr with hr | hr
    · exact h.returned r hr
    · rw [List.mem_singleton.mp hr]
      exact hsound

theorem Inv.refuse (displayId : UInt32) : Inv (c.answer displayId false none) :=
  h.answer displayId false none fun hfalse => by cases hfalse

theorem Inv.nextAttempt {displayId : UInt32} {slot : Slot} (hval : slot.val = displayId.toNat)
    (attempt : Nat) : Inv (c.nextAttempt displayId slot attempt) := by
  unfold FrameChannel.nextAttempt
  split
  · exact h.turn hval (fun _ _ hnone => by cases hnone) (attempt + 1)
  · exact h.refuse ..

end Steps

/-- Fewer than 2^64 increments of `seq`, that is 2^63 transactions, fall between
the two loads of an attempt. -/
def Unwrapped (c : FrameChannel) : Step → Prop
  | .load =>
    match c.slotsMutex with
    | .reading _ slot _ (.seqAgain _ since _ _ _ _) => (c.slots slot).ticks - since < 2 ^ 64
    | _ => True
  | _ => True

instance (c : FrameChannel) (step : Step) : Decidable (Unwrapped c step) := by
  unfold Unwrapped
  split
  · split <;> infer_instance
  · infer_instance

theorem idle_of_even {s : ShmDisplaySlot} {w : Option Writer} (h : SlotInv s w log)
    (heven : s.seq &&& 1 = 0) : (cell s w).Idle := by
  have hand : (s.seq &&& 1).toNat = 0 := by
    rw [heven]
    rfl
  rw [UInt64.toNat_and, UInt64.toNat_one, Nat.and_one_is_mod, h.seq] at hand
  change s.ticks % 2 = 0
  omega

/-- The accepted words, as `read` hands them out. -/
def SurfaceMetadata.words (m : SurfaceMetadata) : (f : Field) → Word f.Value
  | .frame => m.frame
  | .iosurfaceId => m.iosurfaceId
  | .width => m.width
  | .height => m.height

theorem Stored.untorn {m : SurfaceMetadata} (h : Stored log m.words) (hframe : m.frame.value ≠ 0) :
    Untorn log m := by
  rcases h with hzero | ⟨n, t, hn, hwords⟩
  · exact absurd (congrArg Word.value (congrFun hzero .frame)) hframe
  · cases t with
    | publish iosurfaceId width height frame =>
      have hk : m.frame = ⟨frame, some n⟩ := congrFun hwords .frame
      refine ⟨n, iosurfaceId, width, height, frame, hn, congrFun hwords .iosurfaceId,
        congrFun hwords .width, congrFun hwords .height, hk, ?_⟩
      rw [hk] at hframe
      exact hframe
    | clear iosurfaceId width height =>
      exact absurd (congrArg Word.value (congrFun hwords .frame)) hframe

section Read

variable {c : FrameChannel} (h : Inv c) {displayId : UInt32} {slot : Slot} {attempt : Nat}
include h

/-- The second load of `seq` gives `s0` again. -/
theorem Inv.accept {s0 : UInt64} {since : Nat} {iosurfaceId width height : Word UInt32}
    {frame : Word UInt64} (hmutex : c.slotsMutex = .reading displayId slot attempt
      (.seqAgain s0 since iosurfaceId width height frame))
    (hfew : (c.slots slot).ticks - since < 2 ^ 64) (hsame : s0 = (c.slots slot).seq) :
    Inv (c.answer displayId (frame.value != 0)
      (some ⟨displayId, iosurfaceId, width, height, frame⟩)) := by
  obtain ⟨hval, hfollows⟩ := h.reading _ _ _ _ hmutex
  obtain ⟨hs0, hobserved⟩ := hfollows s0 since rfl
  have hslot := h.slots slot
  let m : SurfaceMetadata := ⟨displayId, iosurfaceId, width, height, frame⟩
  have hticks : (c.slots slot).ticks % 2 ^ 64 = since % 2 ^ 64 := by
    rw [← hslot.seq, ← hsame, hs0]
  have hall : ∀ f, (ReadPhase.seqAgain s0 since iosurfaceId width height frame).seen f =
      some (m.words f) := by
    intro f
    cases f <;> rfl
  obtain ⟨hidle, hwords⟩ := hobserved.accept hticks hfew hall
  have hstored := hslot.stored
  rw [← hslot.sound.words_eq hidle, hwords] at hstored
  refine h.answer _ _ _ fun hresult => ⟨slot, m, hval, rfl, rfl, hstored.untorn ?_⟩
  exact bne_iff_ne.mp hresult

theorem Inv.load {phase : ReadPhase} (hmutex : c.slotsMutex = .reading displayId slot attempt phase)
    (hfew : Unwrapped c .load) : Inv (c.load displayId slot attempt phase) := by
  obtain ⟨hval, hfollows⟩ := h.reading _ _ _ _ hmutex
  have hslot := h.slots slot
  cases phase with
  | seq =>
    simp only [FrameChannel.load]
    split
    · exact h.nextAttempt hval attempt
    · rename_i heven
      refine h.turn hval ?_ attempt
      intro s0 since hbegun
      cases hbegun
      exact ⟨hslot.seq, .start (idle_of_even hslot (not_not.mp heven))⟩
  | iosurfaceId s0 since | width s0 since _ | height s0 since _ _ | frame s0 since _ _ _ =>
    refine h.turn hval ?_ attempt
    intro s0' since' hbegun
    cases hbegun
    obtain ⟨hs0, hobserved⟩ := hfollows s0 since rfl
    exact ⟨hs0, hobserved.load _⟩
  | seqAgain s0 since iosurfaceId width height frame =>
    simp only [FrameChannel.load]
    split
    · rename_i hsame
      simp only [Unwrapped, hmutex] at hfew
      exact h.accept hmutex hfew hsame
    · exact h.nextAttempt hval attempt

end Read

theorem inv_step {c c' : FrameChannel} (h : Inv c) {step : Step} (hfew : Unwrapped c step)
    (hstep : c.step step = some c') : Inv c' := by
  cases step <;> simp only [FrameChannel.step] at hstep
  case launch | kill =>
    split at hstep <;> cases hstep
    exact ⟨h.slots, h.reading, h.returned⟩
  case «open» d t =>
    split at hstep <;> cases hstep
    rename_i hguard
    exact h.open hguard.2 t
  case store d f =>
    split at hstep
    · cases hstep
    · rename_i w hw
      split at hstep <;> cases hstep
      exact h.store hw f
  case close d =>
    split at hstep
    · cases hstep
    · rename_i w hw
      split at hstep <;> cases hstep
      rename_i hguard
      exact h.close hw hguard.2
  case read displayId out =>
    split at hstep
    · cases hstep
    · split at hstep
      · cases hstep
        exact h.refuse ..
      · split at hstep
        · cases hstep
          exact h.turn rfl (fun _ _ hnone => by cases hnone) 0
        · cases hstep
          exact h.refuse ..
  case load =>
    split at hstep <;> cases hstep
    rename_i hmutex
    exact h.load hmutex hfew
  case resetSlots =>
    split at hstep
    · split at hstep
      · cases hstep
        exact ⟨h.slots, fun _ _ _ _ hmutex => (by cases hmutex), h.returned⟩
      · cases hstep
        exact h
    · cases hstep
  case zeroSlot =>
    split at hstep
    · cases hstep
      exact ⟨h.slots, fun _ _ _ _ hmutex => (by cases hmutex), h.returned⟩
    · rename_i d left hmutex
      cases hstep
      refine ⟨?_, fun _ _ _ _ hmutex => (by cases hmutex), h.returned⟩
      intro e
      by_cases heq : e = d
      · subst heq
        simp only [update_self]
        exact slotInv_zero _
      · simp only [update_of_ne heq]
        exact h.slots e
    · cases hstep

/-- In every run in which no attempt misses 2^63 transactions: a read that
returned true returned the surface, the size and the frame number of one publish
to its slot, and the frame number is not zero. -/
theorem frame_snapshots_untorn (valid : Bool) (steps : List Step) (c : FrameChannel)
    (hrun : exec FrameChannel.step (.start valid) steps = some c)
    (hfew : Meets FrameChannel.step Unwrapped (.start valid) steps) :
    ∀ r ∈ c.returned, r.result = true →
      ∃ (slot : Slot) (m : SurfaceMetadata), slot.val = r.displayId.toNat ∧ r.out = some m ∧
        m.displayId = r.displayId ∧ Untorn (c.log slot) m := by
  have h := exec_guarded_invariant (I := Inv) (fun _ _ _ hc hfew hstep => inv_step hc hfew hstep)
    steps (inv_start valid) hfew hrun
  exact h.returned

/-- A publish of slot 0, and a read that holds the mutex. -/
def publish (t : Transaction) : List Step :=
  [.open 0 t, .store 0 .iosurfaceId, .store 0 .width, .store 0 .height, .store 0 .frame, .close 0]

def publishedThenRead : List Step :=
  .launch :: publish (.publish 7 720 1600 1) ++ [.read 0 true] ++ List.replicate 6 .load

theorem frame_snapshots_untorn_first_frame :
    ∃ c, exec FrameChannel.step (.start true) publishedThenRead = some c ∧
      Meets FrameChannel.step Unwrapped (.start true) publishedThenRead ∧
      ∃ r ∈ c.returned, r.result = true ∧
        ∃ (slot : Slot) (m : SurfaceMetadata), slot.val = r.displayId.toNat ∧ r.out = some m ∧
          m.displayId = r.displayId ∧ Untorn (c.log slot) m := by
  have hreturned : (exec FrameChannel.step (.start true) publishedThenRead).map
      FrameChannel.returned = some [⟨0, true, some ⟨0, ⟨7, some 0⟩, ⟨720, some 0⟩,
        ⟨1600, some 0⟩, ⟨1, some 0⟩⟩⟩] := by
    decide +kernel
  have hfew : Meets FrameChannel.step Unwrapped (.start true) publishedThenRead := by
    decide +kernel
  obtain ⟨c, hrun, hc⟩ := Option.map_eq_some_iff.mp hreturned
  have hr : ⟨0, true, some ⟨0, ⟨7, some 0⟩, ⟨720, some 0⟩, ⟨1600, some 0⟩, ⟨1, some 0⟩⟩⟩ ∈
      c.returned := hc ▸ List.mem_cons_self
  exact ⟨c, hrun, hfew, _, hr, rfl,
    frame_snapshots_untorn true publishedThenRead c hrun hfew _ hr rfl⟩

section Wrap

variable {c : FrameChannel}

/-- `c'` is `c` after `n` publishes to slot 0, the last of them `t`. -/
structure Republished (t : Transaction) (c c' : FrameChannel) (n : Nat) : Prop where
  running : c'.running = true
  idle : c'.writers 0 = none
  mutex : c'.slotsMutex = c.slotsMutex
  returned : c'.returned = c.returned
  logged : (c'.log 0).length = (c.log 0).length + n
  seq : (c'.slots 0).seq = (c.slots 0).seq + UInt64.ofNat (2 * n)
  words : 0 < n → (c'.slots 0).load = t.words ((c.log 0).length + n - 1)

theorem exec_publish (hrunning : c.running = true) (hidle : c.writers 0 = none) (t : Transaction) :
    ∃ c', exec FrameChannel.step c (publish t) = some c' ∧ Republished t c c' 1 := by
  simp only [publish, exec_cons, exec_nil, FrameChannel.step, hrunning, hidle, and_self, if_true,
    Option.bind_some, update_self, update_idem, List.filter_cons, List.filter_nil, ne_eq,
    reduceCtorEq, not_true_eq_false, not_false_eq_true, decide_true, decide_false,
    Bool.false_eq_true, if_false]
  refine ⟨_, rfl, ⟨rfl, ?_, rfl, rfl, ?_, ?_, ?_⟩⟩
  · exact update_self (0 : Slot) none c.writers
  · simp only [update_self, List.length_append, List.length_singleton]
  · simp only [update_self]
    change (c.slots 0).seq + 1 + 1 = (c.slots 0).seq + UInt64.ofNat (2 * 1)
    rw [UInt64.add_assoc]
    rfl
  · intro _
    simp only [update_self, Nat.add_sub_cancel]
    funext f
    cases f <;> rfl

def publishes (ts : Nat → Transaction) (n : Nat) : List Step :=
  (List.range n).flatMap fun i => publish (ts i)

theorem publishes_succ (ts : Nat → Transaction) (n : Nat) :
    publishes ts (n + 1) = publishes ts n ++ publish (ts n) := by
  rw [publishes, List.range_succ, List.flatMap_append, List.flatMap_singleton]
  rfl

theorem exec_publishes (hrunning : c.running = true) (hidle : c.writers 0 = none)
    (ts : Nat → Transaction) (n : Nat) :
    ∃ c', exec FrameChannel.step c (publishes ts n) = some c' ∧
      Republished (ts (n - 1)) c c' n := by
  induction n with
  | zero =>
    refine ⟨c, rfl, hrunning, hidle, rfl, rfl, rfl, ?_, fun hpos => absurd hpos (Nat.lt_irrefl 0)⟩
    exact (UInt64.add_zero _).symm
  | succ n ih =>
    obtain ⟨c₁, hrun₁, h₁⟩ := ih
    obtain ⟨c₂, hrun₂, h₂⟩ := exec_publish h₁.running h₁.idle (ts n)
    refine ⟨c₂, ?_, h₂.running, h₂.idle, h₂.mutex.trans h₁.mutex,
      h₂.returned.trans h₁.returned, ?_, ?_, ?_⟩
    · rw [publishes_succ, exec_append_of_exec hrun₁]
      exact hrun₂
    · rw [h₂.logged, h₁.logged, Nat.add_assoc]
    · rw [h₂.seq, h₁.seq, UInt64.add_assoc, ← UInt64.ofNat_add, ← Nat.mul_add]
    · intro _
      rw [h₂.words Nat.one_pos, h₁.logged, ← Nat.add_assoc, Nat.add_sub_cancel n 1]

theorem exec_rest {displayId : UInt32} {slot : Slot} {attempt : Nat} {s0 : UInt64} {since : Nat}
    {iosurfaceId : Word UInt32}
    (hmutex : c.slotsMutex = .reading displayId slot attempt (.width s0 since iosurfaceId))
    (hsame : s0 = (c.slots slot).seq) :
    exec FrameChannel.step c (List.replicate 4 .load) =
      some (c.answer displayId ((c.slots slot).frame.value != 0) (some ⟨displayId, iosurfaceId,
        (c.slots slot).width, (c.slots slot).height, (c.slots slot).frame⟩)) := by
  simp only [List.replicate, exec_cons, exec_nil, FrameChannel.step, FrameChannel.load, hmutex,
    Option.bind_some, hsame, if_true]
  rfl

/-- One frame is published, and a read has loaded `seq` and the surface. -/
def beginRead : List Step :=
  .launch :: publish (.publish 7 720 1600 1) ++ [.read 0 true, .load, .load]

/-- The frames that follow show the display rotated, on another surface. -/
def rotated (i : Nat) : Transaction := .publish 8 1600 720 (UInt64.ofNat (i + 2))

/-- After 2^63 publishes `seq` is what it was, and the read takes the size and
the frame of the last one. -/
theorem frame_torn_when_seq_comes_round :
    ∃ c, Reachable FrameChannel.step (.start true) c ∧
      ∃ r ∈ c.returned, r.result = true ∧ ∃ m, r.out = some m ∧
        m.iosurfaceId = ⟨7, some 0⟩ ∧ m.width = ⟨1600, some (2 ^ 63)⟩ ∧
        m.height = ⟨720, some (2 ^ 63)⟩ ∧ m.frame = ⟨0x8000000000000001, some (2 ^ 63)⟩ := by
  have hbegin : (exec FrameChannel.step (.start true) beginRead).map (fun c =>
      (c.running, c.writers 0, c.slotsMutex, (c.slots 0).seq, (c.log 0).length)) =
        some (true, none, .reading 0 0 0 (.width 2 2 ⟨7, some 0⟩), 2, 1) := by
    decide +kernel
  obtain ⟨c₀, hrun₀, hc₀⟩ := Option.map_eq_some_iff.mp hbegin
  simp only [Prod.mk.injEq] at hc₀
  obtain ⟨hrunning, hidle, hmutex, hseq, hlog⟩ := hc₀
  obtain ⟨c₁, hrun₁, h₁⟩ := exec_publishes hrunning hidle rotated (2 ^ 63)
  have hwords := h₁.words (by decide)
  rw [hlog, Nat.add_sub_cancel_left] at hwords
  have hround : (2 : UInt64) = (c₁.slots 0).seq := by
    rw [h₁.seq, hseq]
    rfl
  have hrest := exec_rest (h₁.mutex.trans hmutex) hround
  have hframe : (c₁.slots 0).frame = ⟨0x8000000000000001, some (2 ^ 63)⟩ := congrFun hwords .frame
  rw [hframe] at hrest
  rw [← exec_append_of_exec hrun₁, ← exec_append_of_exec hrun₀] at hrest
  exact ⟨_, ⟨_, hrest⟩, _, List.mem_append_right _ List.mem_cons_self, rfl, _, rfl, rfl,
    congrFun hwords .width, congrFun hwords .height, rfl⟩

end Wrap

end FrameConsumer
end MacMu
