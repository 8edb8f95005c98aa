import MacMu.Core.ControlProtocol
import MacMu.Lib.ByteStream

/-!
MMCP framing on one direction of the control stream: the frame encoding, and
the two read loops that take frames back out of it. `ControlChannel::reader_thread`
polls before each frame and `MacMuControlReceiver::thread_loop` does not; both
stop at the first header they cannot accept and never look further. A frame
here carries the payload bound, so every frame a reader hands on satisfies it.
-/

namespace MacMu
namespace ControlFraming

open ControlProtocol ByteStream

variable {as as' : List Arrival} {f : Frame}

structure Frame where
  type : UInt16
  requestId : UInt32
  payload : List UInt8
  payload_le : payload.length ≤ kControlMaxPayload
  deriving DecidableEq, Repr

namespace Frame

theorem nil_le : ([] : List UInt8).length ≤ kControlMaxPayload := Nat.zero_le _

def header (f : Frame) : ControlFrameHeader where
  magic := kControlProtocolMagic
  version := kControlProtocolVersion
  type := f.type
  requestId := f.requestId
  length := UInt32.ofNat f.payload.length

def bytes (f : Frame) : List UInt8 := f.header.bytes ++ f.payload

theorem toNat_header_length (f : Frame) : f.header.length.toNat = f.payload.length := by
  have hle := f.payload_le
  simp only [kControlMaxPayload] at hle
  rw [header, UInt32.toNat_ofNat_of_lt' (by rw [UInt32.size]; omega)]

theorem length_bytes (f : Frame) : f.bytes.length = ControlFrameHeader.size + f.payload.length := by
  simp [bytes]

end Frame

/-- The bytes of a list of frames sent one after the other. -/
def stream (frames : List Frame) : List UInt8 := frames.flatMap Frame.bytes

@[simp] theorem stream_nil : stream [] = [] := rfl

@[simp] theorem stream_cons (f : Frame) (frames : List Frame) :
    stream (f :: frames) = f.bytes ++ stream frames := rfl

def BadHeader (h : ControlFrameHeader) : Prop :=
  h.magic ≠ kControlProtocolMagic ∨ h.version ≠ kControlProtocolVersion ∨
    kControlMaxPayload < h.length.toNat

instance (h : ControlFrameHeader) : Decidable (BadHeader h) :=
  inferInstanceAs (Decidable (_ ∨ _ ∨ _))

theorem Frame.not_badHeader (f : Frame) : ¬ BadHeader f.header := by
  rintro (h | h | h)
  · exact h rfl
  · exact h rfl
  · rw [f.toNat_header_length] at h
    exact absurd f.payload_le (Nat.not_le.mpr h)

theorem payload_le_of_read {h : ControlFrameHeader} (hbad : ¬ BadHeader h) {payload : List UInt8}
    (hr : readExact h.length.toNat as = some (payload, as')) :
    payload.length ≤ kControlMaxPayload := by
  rw [(readExact_some hr).1]
  exact Nat.not_lt.mp (fun hlt => hbad (.inr (.inr hlt)))

/-- One pass of either read loop: header, header check, payload. `none` makes
the loop end. -/
def nextFrame (as : List Arrival) : Option (Frame × List Arrival) :=
  match readExact ControlFrameHeader.size as with
  | none => none
  | some (buffer, as) =>
    let header := ControlFrameHeader.ofBytes buffer
    if hbad : BadHeader header then none
    else
      match hr : readExact header.length.toNat as with
      | none => none
      | some (payload, as) =>
        some (⟨header.type, header.requestId, payload, payload_le_of_read hbad hr⟩, as)

theorem nextFrame_some (h : nextFrame as = some (f, as')) :
    ∃ buffer, buffer.length = ControlFrameHeader.size ∧
      received as = buffer ++ f.payload ++ received as' := by
  unfold nextFrame at h
  split at h
  · cases h
  · rename_i buffer as₁ hbuf
    simp only at h
    split at h
    · cases h
    · split at h
      · cases h
      · rename_i payload as₂ hpay
        obtain ⟨rfl, rfl⟩ := Prod.mk.inj (Option.some.inj h)
        obtain ⟨hlen, hrec⟩ := readExact_some hbuf
        refine ⟨buffer, hlen, ?_⟩
        rw [hrec, (readExact_some hpay).2, List.append_assoc]

theorem nextFrame_consumes (h : nextFrame as = some (f, as')) :
    (received as').length < (received as).length := by
  obtain ⟨buffer, hlen, hrec⟩ := nextFrame_some h
  simp only [hrec, List.length_append, hlen, ControlFrameHeader.size]
  omega

theorem nextFrame_of_frame {rest : List UInt8} (h : received as = f.bytes ++ rest) :
    ∃ as', nextFrame as = some (f, as') ∧ received as' = rest := by
  rw [Frame.bytes, List.append_assoc] at h
  obtain ⟨as₁, hbuf, hrec₁⟩ := readExact_of_received h
  obtain ⟨as₂, hpay, hrec₂⟩ := readExact_of_received hrec₁
  rw [ControlFrameHeader.length_bytes] at hbuf
  rw [← f.toNat_header_length] at hpay
  refine ⟨as₂, ?_, hrec₂⟩
  have hhead := ControlFrameHeader.ofBytes_bytes f.header
  unfold nextFrame
  simp only [hbuf]
  rw [dif_neg (by rw [hhead]; exact f.not_badHeader)]
  split
  · rename_i hnone
    rw [hhead, hpay] at hnone
    cases hnone
  · rename_i payload as₃ hsome
    rw [hhead, hpay] at hsome
    obtain ⟨rfl, rfl⟩ := Prod.mk.inj (Option.some.inj hsome)
    simp only [hhead]
    rfl

theorem nextFrame_of_badHeader {buffer rest : List UInt8} (h : received as = buffer ++ rest)
    (hlen : buffer.length = ControlFrameHeader.size)
    (hbad : BadHeader (ControlFrameHeader.ofBytes buffer)) : nextFrame as = none := by
  obtain ⟨as₁, hbuf, _⟩ := readExact_of_received h
  rw [hlen] at hbuf
  unfold nextFrame
  simp only [hbuf]
  rw [dif_pos hbad]

/-- A stream that stops inside a frame yields nothing of that frame. -/
theorem nextFrame_of_truncated {missing : List UInt8} (h : f.bytes = received as ++ missing)
    (hm : missing ≠ []) : nextFrame as = none := by
  cases hn : nextFrame as with
  | none => rfl
  | some r =>
    obtain ⟨g, as'⟩ := r
    exfalso
    have hshort : (received as).length < f.bytes.length := by
      rw [h, List.length_append]
      have := List.length_pos_iff.mpr hm
      omega
    unfold nextFrame at hn
    split at hn
    · cases hn
    · rename_i buffer as₁ hbuf
      obtain ⟨hlen, hrec⟩ := readExact_some hbuf
      have hhead : buffer = f.header.bytes := by
        rw [Frame.bytes, hrec, List.append_assoc] at h
        exact (List.append_inj h (by simp [hlen])).1.symm
      subst hhead
      rw [ControlFrameHeader.ofBytes_bytes] at hn
      simp only at hn
      rw [dif_neg f.not_badHeader] at hn
      split at hn
      · cases hn
      · rename_i payload as₂ hpay
        obtain ⟨hplen, hprec⟩ := readExact_some hpay
        rw [f.toNat_header_length] at hplen
        rw [f.length_bytes, hrec, hprec] at hshort
        simp only [List.length_append, ControlFrameHeader.length_bytes] at hshort
        omega

/-- `MacMuControlReceiver::thread_loop`: the frames handed to `handle_frame`. -/
def threadLoop (as : List Arrival) : List Frame :=
  match _h : nextFrame as with
  | none => []
  | some (f, as') => f :: threadLoop as'
termination_by (received as).length
decreasing_by exact nextFrame_consumes _h

/-- `ControlChannel::reader_thread`: the frames handed to the event callback or
matched with a pending request. A poll that times out or is interrupted goes
round the loop again; a poll error ends it. -/
def readerThread (as : List Arrival) : List Frame :=
  match as with
  | .idle :: as | .interrupted :: as => readerThread as
  | .failed :: _ => []
  | as =>
    match _h : nextFrame as with
    | none => []
    | some (f, as') => f :: readerThread as'
termination_by ((received as).length, as.length)
decreasing_by
  · exact Prod.Lex.right _ (Nat.lt_succ_self _)
  · exact Prod.Lex.right _ (Nat.lt_succ_self _)
  · exact Prod.Lex.left _ _ (nextFrame_consumes _h)

/-- Bytes from which neither loop takes a frame, however they arrive. -/
def Stuck (tail : List UInt8) : Prop :=
  ∀ as, received as = tail → nextFrame as = none

theorem stuck_of_badHeader {buffer : List UInt8} (rest : List UInt8)
    (hlen : buffer.length = ControlFrameHeader.size)
    (hbad : BadHeader (ControlFrameHeader.ofBytes buffer)) : Stuck (buffer ++ rest) :=
  fun _ h => nextFrame_of_badHeader h hlen hbad

theorem stuck_of_truncated {tail missing : List UInt8} (h : f.bytes = tail ++ missing)
    (hm : missing ≠ []) : Stuck tail := by
  intro as has
  exact nextFrame_of_truncated (by rw [has]; exact h) hm

theorem stuck_nil : Stuck [] := by
  intro as has
  cases hn : nextFrame as with
  | none => rfl
  | some r =>
    have hlt := nextFrame_consumes hn
    simp [has] at hlt

theorem threadLoop_of_stream {frames : List Frame} {tail : List UInt8} (hst : Stuck tail)
    (h : received as = stream frames ++ tail) : threadLoop as = frames := by
  induction frames generalizing as with
  | nil =>
    rw [threadLoop]
    split
    · rfl
    · rename_i f as' hn
      rw [hst as h] at hn
      cases hn
  | cons f frames ih =>
    rw [stream_cons, List.append_assoc] at h
    obtain ⟨as', hn, hrec⟩ := nextFrame_of_frame h
    rw [threadLoop]
    split
    · rename_i hnone
      rw [hn] at hnone
      cases hnone
    · rename_i g as'' hsome
      rw [hn] at hsome
      obtain ⟨rfl, rfl⟩ := Prod.mk.inj (Option.some.inj hsome)
      rw [ih hrec]

theorem readerThread_eq_threadLoop (as : List Arrival) : readerThread as = threadLoop as := by
  fun_induction readerThread as with
  | case1 as ih | case2 as ih =>
    rw [ih, threadLoop, threadLoop]
    rfl
  | case3 as =>
    rw [threadLoop]
    rfl
  | case4 as _ _ _ hn =>
    rw [threadLoop]
    split
    · rfl
    · rename_i f as' hsome
      rw [hn] at hsome
      cases hsome
  | case5 as _ _ _ f as' hn ih =>
    rw [threadLoop]
    split
    · rename_i hnone
      rw [hn] at hnone
      cases hnone
    · rename_i g as'' hsome
      rw [hn] at hsome
      obtain ⟨rfl, rfl⟩ := Prod.mk.inj (Option.some.inj hsome)
      rw [ih]

end ControlFraming
end MacMu
