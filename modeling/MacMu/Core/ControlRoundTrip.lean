import MacMu.Core.ControlFraming

/-!
Both writers of the control stream against both readers. The shell's
`write_frame` and the receiver's `send_frame` put the same bytes for the same
frame under the same call outcomes, so one encoding serves both directions.
The results cover every chunking: the writer's calls and the reader's arrivals
are arbitrary, and a stream cut short or corrupted yields exactly the frames
before the damage.
-/

namespace MacMu
namespace ControlRoundTrip

open ControlProtocol ByteStream ControlFraming

variable {frames : List Frame} {as : List Arrival}

/-- `ControlChannel::write_frame` on a usable descriptor: two chunks, each
written by its own loop. -/
def writeFrame (f : Frame) (ts : List Transfer) : Written :=
  (writeAll f.header.bytes ts).andThen (writeAll f.payload)

/-- `MacMuControlReceiver::send_frame` on a usable descriptor. -/
def sendFrame (f : Frame) (ts : List Transfer) : Written :=
  (writeAll f.header.bytes ts).andThen (fun ts =>
    if 0 < f.payload.length then writeAll f.payload ts else ⟨[], some true, ts⟩)

/-- The frame `MacMuControlReceiver::send_error` builds. -/
def errorFrame (requestId : UInt32) (code : Int32) (message : List UInt8)
    (h : ControlError.size + message.length ≤ kControlMaxPayload) : Frame where
  type := ControlMessageType.kError.code
  requestId := requestId
  payload := (ControlError.mk code (UInt32.ofNat message.length)).bytes ++ message
  payload_le := by simpa using h

theorem sendFrame_eq_writeFrame (f : Frame) : sendFrame f = writeFrame f := by
  funext ts
  unfold sendFrame writeFrame
  congr 1
  funext ts
  split
  · rfl
  · rename_i h
    rw [List.length_eq_zero_iff.mp (Nat.eq_zero_of_not_pos h), writeAll]

theorem puts_writeFrame (f : Frame) : Puts f.bytes (writeFrame f) :=
  (puts_writeAll f.header.bytes).andThen (puts_writeAll f.payload)

/-- A sequence of calls on one end, each taking the write mutex in turn. -/
def writeFrames (write : Frame → List Transfer → Written) : List Frame → List Transfer → Written
  | [], ts => ⟨[], some true, ts⟩
  | f :: frames, ts => (write f ts).andThen (writeFrames write frames)

theorem puts_writeFrames (frames : List Frame) :
    Puts (stream frames) (writeFrames writeFrame frames) := by
  induction frames with
  | nil =>
    have hnil : writeFrames writeFrame [] = writeAll [] := by
      funext ts
      rw [writeFrames, writeAll]
    rw [hnil]
    exact puts_writeAll []
  | cons f frames ih => exact (puts_writeFrame f).andThen ih

/-- `ControlChannel::Response`, with the message as the bytes of its string. -/
structure Response where
  ok : Bool
  type : UInt16
  errorCode : Int32
  errorMessage : List UInt8
  payload : List UInt8
  deriving DecidableEq, Repr

/-- The response `reader_thread` builds from the type and the payload of a frame
that answers a request. -/
def responseOf (type : UInt16) (payload : List UInt8) : Response :=
  if type = ControlMessageType.kError.code then
    if ControlError.size ≤ payload.length then
      let error := ControlError.ofBytes payload
      let msgLen := min error.msgLen.toNat (payload.length - ControlError.size)
      { ok := false, type := type, errorCode := error.code
        errorMessage := (payload.drop ControlError.size).take msgLen, payload := [] }
    else
      { ok := false, type := type, errorCode := kControlErrInternal
        errorMessage := "malformed error frame".toUTF8.toList, payload := [] }
  else
    { ok := true, type := type, errorCode := 0, errorMessage := [], payload := payload }

def responseOfFrame (f : Frame) : Response := responseOf f.type f.payload

theorem responseOfFrame_errorFrame (requestId : UInt32) (code : Int32)
    (message : List UInt8) (h : ControlError.size + message.length ≤ kControlMaxPayload) :
    responseOfFrame (errorFrame requestId code message h) =
      { ok := false, type := ControlMessageType.kError.code, errorCode := code
        errorMessage := message, payload := [] } := by
  have hlen : (UInt32.ofNat message.length).toNat = message.length := by
    simp only [kControlMaxPayload, ControlError.size] at h
    exact UInt32.toNat_ofNat_of_lt' (by rw [UInt32.size]; omega)
  have hdrop : ((ControlError.mk code (UInt32.ofNat message.length)).bytes ++
      message).drop ControlError.size = message :=
    List.drop_left' (by simp)
  simp [responseOfFrame, responseOf, errorFrame, ControlError.ofBytes_append, hdrop, hlen]

theorem whole_frames_of_prefix (frames : List Frame) (got missing : List UInt8)
    (h : stream frames = got ++ missing) :
    ∃ k tail, got = stream (frames.take k) ++ tail ∧ Stuck tail ∧
      (k < frames.length → got.length < (stream (frames.take (k + 1))).length) := by
  induction frames generalizing got with
  | nil =>
    obtain ⟨rfl, rfl⟩ := List.append_eq_nil_iff.mp h.symm
    exact ⟨0, [], rfl, stuck_nil, fun hk => absurd hk (Nat.lt_irrefl 0)⟩
  | cons f frames ih =>
    rw [stream_cons] at h
    rcases List.append_eq_append_iff.mp h with ⟨rest, hgot, hrest⟩ | ⟨part, hf, hmiss⟩
    · obtain ⟨k, tail, hk, hst, hmax⟩ := ih rest hrest
      refine ⟨k + 1, tail, ?_, hst, ?_⟩
      · rw [hgot, hk, List.take_succ_cons, stream_cons, List.append_assoc]
      · intro hlt
        have := hmax (Nat.lt_of_succ_lt_succ hlt)
        rw [hgot, List.take_succ_cons, stream_cons, List.length_append, List.length_append]
        omega
    · cases part with
      | nil =>
        obtain ⟨k, tail, hk, hst, hmax⟩ := ih [] (by simpa using hmiss.symm)
        rw [List.append_nil] at hf
        refine ⟨k + 1, tail, ?_, hst, ?_⟩
        · rw [List.take_succ_cons, stream_cons, List.append_assoc, ← hk, List.append_nil, hf]
        · intro hlt
          have := hmax (Nat.lt_of_succ_lt_succ hlt)
          rw [← hf, List.take_succ_cons, stream_cons, List.length_append]
          simp only [List.length_nil] at this
          omega
      | cons b part =>
        refine ⟨0, got, rfl, stuck_of_truncated hf (List.cons_ne_nil b part), ?_⟩
        intro _
        rw [List.take_succ_cons, List.take_zero, stream_cons, stream_nil, List.append_nil, hf]
        simp

/-- Both read loops hand on exactly these frames, in this order. -/
def Delivers (as : List Arrival) (frames : List Frame) : Prop :=
  threadLoop as = frames ∧ readerThread as = frames

theorem delivers_of_stream {tail : List UInt8} (hst : Stuck tail)
    (h : received as = stream frames ++ tail) : Delivers as frames :=
  ⟨threadLoop_of_stream hst h, (readerThread_eq_threadLoop as).trans (threadLoop_of_stream hst h)⟩

theorem delivers_written {ts : List Transfer} (hts : ∀ t ∈ ts, t.Proceeds)
    (hdone : (writeFrames writeFrame frames ts).returned ≠ none)
    (h : received as = (writeFrames writeFrame frames ts).put) : Delivers as frames := by
  have hp := puts_writeFrames frames
  have htrue := (hp.proceeds ts hts).1.resolve_right hdone
  apply delivers_of_stream stuck_nil
  rw [h, hp.put_of_true ts htrue, List.append_nil]

theorem delivers_of_prefix {missing : List UInt8} (h : stream frames = received as ++ missing) :
    ∃ k, Delivers as (frames.take k) ∧ stream (frames.take k) <+: received as ∧
      (k < frames.length → (received as).length < (stream (frames.take (k + 1))).length) := by
  obtain ⟨k, tail, hgot, hst, hmax⟩ := whole_frames_of_prefix frames (received as) missing h
  refine ⟨k, delivers_of_stream hst hgot, ?_, hmax⟩
  rw [hgot]
  exact List.prefix_append _ _

/-- The framing law in both directions. With calls that proceed, a list of
frames is written completely after at most one call for each byte; once the
calls are back, every way the bytes arrive gives the same frames to the other
end. A stream that stops early gives the frames that are whole in it; a stream
with an unacceptable header gives the frames before it. An ERROR frame decodes
to the code and message it was built from. -/
theorem mmcp_framing_round_trip (frames : List Frame) (as : List Arrival) :
    (∀ ts, (∀ t ∈ ts, t.Proceeds) →
      ((stream frames).length ≤ calls ts →
        (writeFrames writeFrame frames ts).returned ≠ none ∧
        (writeFrames sendFrame frames ts).returned ≠ none) ∧
      ((writeFrames writeFrame frames ts).returned ≠ none →
        received as = (writeFrames writeFrame frames ts).put → threadLoop as = frames) ∧
      ((writeFrames sendFrame frames ts).returned ≠ none →
        received as = (writeFrames sendFrame frames ts).put → readerThread as = frames)) ∧
    (∀ missing, stream frames = received as ++ missing →
      ∃ k, Delivers as (frames.take k) ∧ stream (frames.take k) <+: received as ∧
        (k < frames.length →
          (received as).length < (stream (frames.take (k + 1))).length)) ∧
    (∀ header rest, header.length = ControlFrameHeader.size →
      BadHeader (ControlFrameHeader.ofBytes header) →
      received as = stream frames ++ (header ++ rest) → Delivers as frames) ∧
    ∀ requestId code message h,
      responseOfFrame (errorFrame requestId code message h) =
        { ok := false, type := ControlMessageType.kError.code, errorCode := code
          errorMessage := message, payload := [] } := by
  have hsend : sendFrame = writeFrame := funext sendFrame_eq_writeFrame
  refine ⟨?_, fun missing h => delivers_of_prefix h, ?_, responseOfFrame_errorFrame⟩
  · intro ts hts
    rw [hsend]
    refine ⟨?_, fun hdone h => (delivers_written hts hdone h).1,
      fun hdone h => (delivers_written hts hdone h).2⟩
    intro hcalls
    have htrue := ((puts_writeFrames frames).enough ts hts hcalls).1
    rw [htrue]
    exact ⟨Option.some_ne_none _, Option.some_ne_none _⟩
  · intro header rest hlen hbad h
    exact delivers_of_stream (stuck_of_badHeader rest hlen hbad) h

/-- A DISPLAY_REMOVE for display 3, written in three calls and read in two
pieces with an interruption between them. -/
theorem mmcp_framing_round_trip_display_remove :
    threadLoop
      [.bytes 0x50 [0x43, 0x4d, 0x4d, 1, 0, 0x11, 0, 7, 0], .interrupted,
        .bytes 0 [0, 4, 0, 0, 0, 3, 0, 0, 0]] =
      [⟨ControlMessageType.kDisplayRemove.code, 7, displayIdBytes 3, by decide⟩] :=
  ((mmcp_framing_round_trip
      [⟨ControlMessageType.kDisplayRemove.code, 7, displayIdBytes 3, by decide⟩] _).1
    [.wrote 5, .interrupted, .wrote 40, .wrote 4] (by decide)).2.1 (by decide) (by decide)

end ControlRoundTrip
end MacMu
