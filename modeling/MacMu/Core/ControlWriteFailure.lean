import MacMu.Core.ControlRoundTrip

/-!
What a failed write leaves on the control stream. Callers of `write_frame` and
`send_frame` are serialised by the write mutex, so the traffic of one end is a
list of attempts. Neither function records a failure: `alive_` and the
descriptor stay as they are, and the next caller writes on. Whether bytes
follow a broken frame is therefore decided by the calls alone, and the exact
condition on them is stated and proved here.
-/

namespace MacMu
namespace ControlWriteFailure

open ControlProtocol ByteStream ControlFraming ControlRoundTrip

variable {e : ChannelEnd} {attempts : List Attempt}

inductive ChannelEnd where
  | shell
  | qemu
  deriving DecidableEq, Repr

def ChannelEnd.write : ChannelEnd → Frame → List Transfer → Written
  | .shell => writeFrame
  | .qemu => sendFrame

/-- One caller, in the order the write mutex lets them in. `usable` is what the
guard under the mutex sees: an open descriptor, and on the shell also
`alive()`. -/
structure Attempt where
  frame : Frame
  usable : Bool
  outcomes : List Transfer

def Attempt.written (e : ChannelEnd) (a : Attempt) : Written :=
  if a.usable then e.write a.frame a.outcomes else ⟨[], some false, a.outcomes⟩

def Attempt.Broken (e : ChannelEnd) (a : Attempt) : Prop :=
  (a.written e).put ≠ [] ∧ (a.written e).put ≠ a.frame.bytes

/-- A caller that has not returned still holds the mutex, so only the last
attempt can be one. -/
def Serialized (e : ChannelEnd) : List Attempt → Prop
  | [] => True
  | a :: rest => (rest ≠ [] → (a.written e).returned ≠ none) ∧ Serialized e rest

/-- Once a frame was written only in part, nothing else is written. -/
def NoBytesAfterBroken (e : ChannelEnd) : List Attempt → Prop
  | [] => True
  | a :: rest =>
    (a.Broken e → ∀ b ∈ rest, (b.written e).put = []) ∧ NoBytesAfterBroken e rest

def traffic (e : ChannelEnd) (attempts : List Attempt) : List UInt8 :=
  attempts.flatMap (fun a => (a.written e).put)

/-- How much of a frame is out when one of its calls fails, from position
`p` on. A call asks for the rest of the header or the rest of the payload. -/
def failsFrom (header total : Nat) : Nat → List Transfer → Option Nat
  | _, [] => none
  | p, .interrupted :: ts => if total ≤ p then none else failsFrom header total p ts
  | p, .failed :: _ | p, .wrote 0 :: _ => if total ≤ p then none else some p
  | p, .wrote (n + 1) :: ts =>
    if total ≤ p then none
    else failsFrom header total (min (p + n + 1) (if p < header then header else total)) ts

def failsAt (f : Frame) (ts : List Transfer) : Option Nat :=
  failsFrom ControlFrameHeader.size (ControlFrameHeader.size + f.payload.length) 0 ts

/-- The first call that is not interrupted transfers something. -/
def takesByte : List Transfer → Bool
  | .interrupted :: ts => takesByte ts
  | .wrote (_ + 1) :: _ => true
  | _ => false

def Attempt.BreaksOff (a : Attempt) : Prop :=
  a.usable = true ∧ ∃ p, 0 < p ∧ failsAt a.frame a.outcomes = some p

/-- After a call has failed inside a frame, no later call of a usable attempt
accepts a byte. -/
def CallsHoldBack : List Attempt → Prop
  | [] => True
  | a :: rest =>
    (a.BreaksOff → ∀ b ∈ rest, ¬ (b.usable = true ∧ takesByte b.outcomes = true)) ∧
      CallsHoldBack rest

/-- The position a write loop fails at, for the chunk that ends at the current
limit. -/
theorem failsFrom_writeAll (header total p : Nat) (buffer : List UInt8)
    (hlimit : p + buffer.length = if p < header then header else total)
    (hle : header ≤ total) (ts : List Transfer) :
    failsFrom header total p ts =
      match (writeAll buffer ts).returned with
      | none => none
      | some false => some (p + (writeAll buffer ts).put.length)
      | some true => failsFrom header total (p + buffer.length) (writeAll buffer ts).rest := by
  fun_induction writeAll buffer ts generalizing p with
  | case1 ts => rfl
  | case2 b bs => rfl
  | case3 b bs ts ih =>
    have hp : ¬ total ≤ p := by
      simp only [List.length_cons] at hlimit
      split at hlimit <;> omega
    rw [failsFrom, if_neg hp]
    exact ih p hlimit
  | case4 b bs ts | case5 b bs ts =>
    have hp : ¬ total ≤ p := by
      simp only [List.length_cons] at hlimit
      split at hlimit <;> omega
    rw [failsFrom, if_neg hp]
    rfl
  | case6 b bs n ts w =>
    rename_i ih
    simp only [List.length_cons] at hlimit
    have hp : ¬ total ≤ p := by split at hlimit <;> omega
    have hstep : min (p + n + 1) (if p < header then header else total) =
        p + (bs.take n).length + 1 := by
      rw [List.length_take]
      split at hlimit <;> rename_i h <;> simp only [h, if_true, if_false] <;> omega
    have hrest : (bs.take n).length + (bs.drop n).length = bs.length := by
      rw [List.length_take, List.length_drop]; omega
    rw [failsFrom, if_neg hp, hstep]
    by_cases hend : bs.drop n = []
    · -- the call reached the limit: the loop is done with this chunk
      have hw : w = ⟨[], some true, ts⟩ := by
        change writeAll (bs.drop n) ts = _
        rw [hend, writeAll]
      simp only [hend, List.length_nil] at hrest
      simp only [hw, List.length_cons]
      congr 1
      omega
    · have hpos := List.length_pos_iff.mpr hend
      have hlim : p + (bs.take n).length + 1 + (bs.drop n).length =
          if p + (bs.take n).length + 1 < header then header else total := by
        split at hlimit <;> split <;> omega
      rw [ih _ hlim]
      simp only [w, List.length_cons, List.length_append]
      cases (writeAll (bs.drop n) ts).returned with
      | none => rfl
      | some r =>
        cases r with
        | false => simp only [Option.some.injEq]; omega
        | true =>
          simp only
          congr 1
          omega

theorem failsFrom_of_done {header total p : Nat} (h : total ≤ p) (ts : List Transfer) :
    failsFrom header total p ts = none := by
  cases ts with
  | nil => rfl
  | cons t ts =>
    cases t with
    | interrupted | failed => exact if_pos h
    | wrote n => cases n <;> exact if_pos h

/-- `failsAt` is the number of bytes out when the frame's write fails. -/
theorem failsAt_eq (f : Frame) (ts : List Transfer) :
    failsAt f ts =
      match (writeFrame f ts).returned with
      | some false => some (writeFrame f ts).put.length
      | _ => none := by
  have hsize : 0 < ControlFrameHeader.size := by decide
  have hhead := failsFrom_writeAll ControlFrameHeader.size
    (ControlFrameHeader.size + f.payload.length) 0 f.header.bytes (by simp [hsize])
    (by omega) ts
  have hbody := failsFrom_writeAll ControlFrameHeader.size
    (ControlFrameHeader.size + f.payload.length) ControlFrameHeader.size f.payload
    (by simp) (by omega) (writeAll f.header.bytes ts).rest
  rw [failsAt, hhead]
  cases hr : (writeAll f.header.bytes ts).returned with
  | none =>
    have hw : writeFrame f ts = writeAll f.header.bytes ts :=
      andThen_of_not_true (by rw [hr]; decide) _
    rw [hw, hr]
  | some r =>
    cases r with
    | false =>
      have hw : writeFrame f ts = writeAll f.header.bytes ts :=
        andThen_of_not_true (by rw [hr]; decide) _
      simp only [hw, hr, Nat.zero_add]
    | true =>
      have hput := writeAll_put_of_true hr
      simp only [ControlFrameHeader.length_bytes, Nat.zero_add, hbody, writeFrame, andThen_of_true hr, hput, List.length_append]
      cases (writeAll f.payload (writeAll f.header.bytes ts).rest).returned with
      | none => rfl
      | some r =>
        cases r with
        | false => rfl
        | true => exact failsFrom_of_done (Nat.le_refl _) _

theorem writeAll_put_ne_nil_iff {buffer : List UInt8} (hb : buffer ≠ [])
    (ts : List Transfer) : (writeAll buffer ts).put ≠ [] ↔ takesByte ts = true := by
  fun_induction writeAll buffer ts with
  | case1 ts => exact absurd rfl hb
  | case2 b bs => simp [takesByte]
  | case3 b bs ts ih => exact ih hb
  | case4 b bs ts | case5 b bs ts => simp [takesByte]
  | case6 b bs n ts w => simp [takesByte]

theorem writeFrame_put_ne_nil_iff (f : Frame) (ts : List Transfer) :
    (writeFrame f ts).put ≠ [] ↔ takesByte ts = true := by
  have hb : f.header.bytes ≠ [] := by
    apply List.ne_nil_of_length_pos
    rw [ControlFrameHeader.length_bytes]
    decide
  have hhead := writeAll_put_ne_nil_iff hb ts
  by_cases hr : (writeAll f.header.bytes ts).returned = some true
  · have hput := writeAll_put_of_true hr
    rw [writeFrame, andThen_of_true hr, ← hhead]
    simp [hput, hb]
  · rw [writeFrame, andThen_of_not_true hr]
    exact hhead

theorem ChannelEnd.write_eq (e : ChannelEnd) : e.write = writeFrame := by
  cases e with
  | shell => rfl
  | qemu => exact funext sendFrame_eq_writeFrame

theorem put_ne_nil_iff (e : ChannelEnd) (a : Attempt) :
    (a.written e).put ≠ [] ↔ a.usable = true ∧ takesByte a.outcomes = true := by
  rw [Attempt.written, e.write_eq]
  cases a.usable with
  | false => simp
  | true => simpa using writeFrame_put_ne_nil_iff a.frame a.outcomes

/-- For an attempt that has come back, a broken frame is a call that failed
inside it. -/
theorem broken_iff_breaksOff (e : ChannelEnd) (a : Attempt)
    (h : (a.written e).returned ≠ none) : a.Broken e ↔ a.BreaksOff := by
  rw [Attempt.Broken, Attempt.BreaksOff]
  rw [Attempt.written, e.write_eq] at h ⊢
  cases hu : a.usable with
  | false => simp
  | true =>
    simp only [hu, if_true] at h ⊢
    rw [failsAt_eq]
    have hp := puts_writeFrame a.frame
    cases hr : (writeFrame a.frame a.outcomes).returned with
    | none => exact absurd hr h
    | some r =>
      cases r with
      | true => simp [hp.put_of_true a.outcomes hr]
      | false =>
        constructor
        · intro hbroken
          exact ⟨trivial, _, List.length_pos_iff.mpr hbroken.1, rfl⟩
        · rintro ⟨-, p, hpos, hp'⟩
          cases hp'
          refine ⟨List.length_pos_iff.mp hpos, ?_⟩
          intro hall
          rw [hp.true_of_put a.outcomes hall] at hr
          cases hr

theorem noBytesAfterBroken_iff (h : Serialized e attempts) :
    NoBytesAfterBroken e attempts ↔ CallsHoldBack attempts := by
  induction attempts with
  | nil => exact Iff.rfl
  | cons a rest ih =>
    have hsilent : (∀ b ∈ rest, (b.written e).put = []) ↔
        ∀ b ∈ rest, ¬ (b.usable = true ∧ takesByte b.outcomes = true) := by
      simp only [← put_ne_nil_iff e, ne_eq, not_not]
    apply and_congr _ (ih h.2)
    rw [hsilent]
    by_cases hrest : rest = []
    · simp [hrest]
    · rw [broken_iff_breaksOff e a (h.1 hrest)]

theorem written_put_initial (e : ChannelEnd) (a : Attempt) :
    (a.written e).put <+: a.frame.bytes := by
  rw [Attempt.written, e.write_eq]
  cases a.usable with
  | false => exact List.nil_prefix
  | true => exact (puts_writeFrame a.frame).put_initial a.outcomes

theorem traffic_eq_nil (h : ∀ b ∈ attempts, (b.written e).put = []) : traffic e attempts = [] :=
  List.flatMap_eq_nil_iff.mpr h

/-- The bytes of one end are whole frames that were sent, in order, and at most
one frame that was cut short. -/
def WholeFramesThenOneCut (attempts : List Attempt) (bytes : List UInt8) : Prop :=
  ∃ whole tail, bytes = stream whole ++ tail ∧
    whole.Sublist (attempts.map Attempt.frame) ∧
    (tail = [] ∨ ∃ a ∈ attempts, tail <+: a.frame.bytes ∧ tail ≠ a.frame.bytes)

theorem traffic_whole_frames (h : NoBytesAfterBroken e attempts) :
    WholeFramesThenOneCut attempts (traffic e attempts) := by
  induction attempts with
  | nil => exact ⟨[], [], rfl, List.Sublist.refl _, .inl rfl⟩
  | cons a rest ih =>
    change WholeFramesThenOneCut _ ((a.written e).put ++ traffic e rest)
    by_cases hb : a.Broken e
    · rw [traffic_eq_nil (h.1 hb), List.append_nil]
      exact ⟨[], _, rfl, List.nil_sublist _,
        .inr ⟨a, List.mem_cons_self, written_put_initial e a, hb.2⟩⟩
    · obtain ⟨whole, tail, hbytes, hsub, htail⟩ := ih h.2
      have htail' : tail = [] ∨
          ∃ b ∈ a :: rest, tail <+: b.frame.bytes ∧ tail ≠ b.frame.bytes :=
        htail.imp_right fun ⟨b, hb, hcut⟩ => ⟨b, List.mem_cons_of_mem _ hb, hcut⟩
      by_cases hput : (a.written e).put = []
      · rw [hput, List.nil_append]
        exact ⟨whole, tail, hbytes, hsub.trans (List.sublist_cons_self _ _), htail'⟩
      · have hall : (a.written e).put = a.frame.bytes := by
          by_contra hne
          exact hb ⟨hput, hne⟩
        refine ⟨a.frame :: whole, tail, ?_, hsub.cons_cons _, htail'⟩
        rw [hall, hbytes, stream_cons, List.append_assoc]

/-- For every sequence of callers and every outcome of their calls, nothing
follows a broken frame exactly when the calls after the failure give out no
byte; the stream is then whole frames and at most one cut frame. -/
theorem no_bytes_after_broken_frame_iff (e : ChannelEnd) (attempts : List Attempt)
    (h : Serialized e attempts) :
    (NoBytesAfterBroken e attempts ↔ CallsHoldBack attempts) ∧
      (CallsHoldBack attempts → WholeFramesThenOneCut attempts (traffic e attempts)) := by
  have hiff := noBytesAfterBroken_iff h
  exact ⟨hiff, fun hhold => traffic_whole_frames (hiff.mpr hhold)⟩

/-- A PING whose second `send` fails after five bytes, and a later PONG. -/
def brokenPing (later : List Transfer) : List Attempt :=
  [⟨⟨ControlMessageType.kPing.code, 1, [], Frame.nil_le⟩, true, [.wrote 5, .failed]⟩,
    ⟨⟨ControlMessageType.kPong.code, 2, [], Frame.nil_le⟩, true, later⟩]

theorem no_bytes_after_broken_frame_ping_held_back :
    Serialized .qemu (brokenPing [.failed]) ∧ CallsHoldBack (brokenPing [.failed]) ∧
      NoBytesAfterBroken .qemu (brokenPing [.failed]) ∧
      WholeFramesThenOneCut (brokenPing [.failed]) (traffic .qemu (brokenPing [.failed])) :=
  have h : Serialized .qemu (brokenPing [.failed]) :=
    ⟨fun _ => by decide, fun h => absurd rfl h, trivial⟩
  have hhold : CallsHoldBack (brokenPing [.failed]) :=
    ⟨fun _ b hb => by rw [List.mem_singleton.mp hb]; decide,
      fun _ b hb => absurd hb List.not_mem_nil, trivial⟩
  have hiff := no_bytes_after_broken_frame_iff .qemu (brokenPing [.failed]) h
  ⟨h, hhold, hiff.1.mpr hhold, hiff.2 hhold⟩

/-- Both ends write the second frame right after the first five bytes. -/
theorem bytes_follow_broken_ping :
    (Serialized .shell (brokenPing [.wrote 16]) ∧
      ¬ NoBytesAfterBroken .shell (brokenPing [.wrote 16])) ∧
    (Serialized .qemu (brokenPing [.wrote 16]) ∧
      ¬ NoBytesAfterBroken .qemu (brokenPing [.wrote 16])) := by
  refine ⟨⟨⟨fun _ => by decide, fun h => absurd rfl h, trivial⟩, ?_⟩,
    ⟨fun _ => by decide, fun h => absurd rfl h, trivial⟩, ?_⟩
  · intro h
    exact absurd (h.1 ⟨by decide, by decide⟩ _ (List.mem_singleton.mpr rfl)) (by decide)
  · intro h
    exact absurd (h.1 ⟨by decide, by decide⟩ _ (List.mem_singleton.mpr rfl)) (by decide)

end ControlWriteFailure
end MacMu
