import MacMu.Core.GuestControlWire

/-!
How far one writer of `GuestControlClient` has come with its message: what it
has put, together with what it still means to put, is the whole message. For an
installation that includes the part of the file that is still to be read.
-/

namespace MacMu
namespace GuestControlWire

open GuestControlClient

namespace Message

variable {m : Message} {put more : List UInt8} {requestId : UInt64} {apkSize : Nat}
  {phase next : WritePhase} {stopRequested shut : Bool} {input : WriteInput}

def operation : Message → Operation
  | request .. => .request
  | install .. => .installApk

theorem operation_message (w : World) (i : Nat) (requestId : UInt64) (operation : Operation) :
    (w.message i requestId operation).operation = operation := by
  cases operation <;> rfl

theorem Whole.ne_nil (h : m.Whole put) : put ≠ [] := by
  cases m with
  | request requestId command =>
    rw [show put = _ from h, requestLine]
    exact List.append_ne_nil_of_right_ne_nil _ (by decide)
  | install requestId apkSize =>
    obtain ⟨data, -, rfl⟩ := h
    rw [installHeader]
    exact List.append_ne_nil_of_left_ne_nil (List.append_ne_nil_of_right_ne_nil _ (by decide)) _

/-- What a writer that has put these bytes has still to do. A request that
fails has put nothing. -/
def Reached : Message → List UInt8 → WritePhase → Prop
  | request requestId command, put, .sending left none => put ++ left = requestLine requestId command
  | install requestId apkSize, put, .sending left (some remaining) =>
    ∃ data, put ++ left = installHeader requestId apkSize ++ data ∧
      data.length + remaining = apkSize
  | install requestId apkSize, put, .transferring remaining =>
    ∃ data, put = installHeader requestId apkSize ++ data ∧ data.length + remaining = apkSize
  | install requestId apkSize, put, .reading remaining =>
    remaining ≠ 0 ∧
      ∃ data, put = installHeader requestId apkSize ++ data ∧ data.length + remaining = apkSize
  | m, put, .finished true => m.Whole put
  | request .., put, .finished false => put = []
  | m@(install ..), put, .finished false => m.Incomplete put
  | _, _, _ => False

theorem reached_start (m : Message) : m.Reached [] m.start := by
  cases m with
  | request requestId command => exact List.nil_append _
  | install requestId apkSize => exact ⟨[], by simp, Nat.zero_add _⟩

theorem incomplete_install {left data : List UInt8} {remaining : Nat}
    (hput : put ++ left = installHeader requestId apkSize ++ data)
    (hsize : data.length + remaining = apkSize) (hmore : left ≠ [] ∨ remaining ≠ 0) :
    (install requestId apkSize).Incomplete put := by
  refine ⟨left ++ List.replicate remaining 0, ?_, data ++ List.replicate remaining 0, ?_, ?_⟩
  · intro hnil
    obtain ⟨hleft, hreplicate⟩ := List.append_eq_nil_iff.mp hnil
    exact hmore.elim (fun h => h hleft) fun h => h (by simpa using hreplicate)
  · rw [List.length_append, List.length_replicate, hsize]
  · rw [← List.append_assoc, hput, List.append_assoc]

theorem incomplete_of_remaining {data : List UInt8} {remaining : Nat}
    (hput : put = installHeader requestId apkSize ++ data)
    (hsize : data.length + remaining = apkSize) (hmore : remaining ≠ 0) :
    (install requestId apkSize).Incomplete put :=
  incomplete_install ((List.append_nil put).trans hput) hsize (.inr hmore)

theorem Reached.whole_or_incomplete (h : m.Reached put phase) (hput : put ≠ []) :
    m.Whole put ∨ m.Incomplete put := by
  cases m with
  | request requestId command =>
    match phase, h with
    | .sending [] none, h => exact .inl (by rwa [Reached, List.append_nil] at h)
    | .sending (b :: bs) none, h => exact .inr ⟨b :: bs, List.cons_ne_nil b bs, h⟩
    | .finished true, h => exact .inl h
    | .finished false, h => exact absurd h hput
  | install requestId apkSize =>
    match phase, h with
    | .sending left (some remaining), ⟨data, hdata, hsize⟩ =>
      by_cases hmore : left ≠ [] ∨ remaining ≠ 0
      · exact .inr (incomplete_install hdata hsize hmore)
      · obtain ⟨rfl, rfl⟩ := not_or.mp hmore |>.imp not_not.mp not_not.mp
        rw [List.append_nil] at hdata
        exact .inl ⟨data, hsize, hdata⟩
    | .transferring remaining, ⟨data, hdata, hsize⟩ =>
      by_cases hmore : remaining = 0
      · subst hmore
        exact .inl ⟨data, hsize, hdata⟩
      · exact .inr (incomplete_of_remaining hdata hsize hmore)
    | .reading remaining, ⟨hmore, data, hdata, hsize⟩ =>
      exact .inr (incomplete_of_remaining hdata hsize hmore)
    | .finished true, h => exact .inl h
    | .finished false, h => exact .inr h

/-- A failing send of a request line has to be the first one for that line. -/
def SendsClean : Message → WritePhase → WriteInput → Prop
  | request requestId command, .sending left _, .send outcome =>
    outcome.Proceeds ∨ left = requestLine requestId command
  | _, _, _ => True

instance (m : Message) (phase : WritePhase) (input : WriteInput) :
    Decidable (m.SendsClean phase input) :=
  match m, phase, input with
  | .request .., .sending .., .send _ => inferInstanceAs (Decidable (_ ∨ _))
  | .request .., .sending .., .read _ | .request .., .sending .., .readInterrupted
  | .request .., .sending .., .readFailed | .request .., .sending .., .go
  | .request .., .transferring _, _ | .request .., .reading _, _ | .request .., .finished _, _
  | .install .., _, _ => .isTrue trivial

theorem append_take_drop (put bs : List UInt8) (b : UInt8) (n : Nat) :
    put ++ b :: bs.take n ++ bs.drop n = put ++ b :: bs := by
  rw [List.append_assoc, List.cons_append, List.take_append_drop]

theorem reached_step_request {command : List UInt8}
    (h : (request requestId command).Reached put phase)
    (hclean : (request requestId command).SendsClean phase input)
    (hstep : phase.step stopRequested shut input = some (more, next)) :
    (request requestId command).Reached (put ++ more) next := by
  have hfail : ∀ left, put ++ left = requestLine requestId command →
      left = requestLine requestId command → put = [] := by
    intro left hput hleft
    rw [hleft] at hput
    exact List.append_left_eq_self.mp hput
  match phase, h with
  | .finished sent, h => cases input <;> cases hstep
  | .sending [] none, h =>
    cases input with
    | go =>
      cases hstep
      exact h
    | _ => cases hstep
  | .sending (b :: bs) none, h =>
    match input with
    | .send (.wrote (n + 1)) =>
      rw [WritePhase.step] at hstep
      split at hstep <;> cases hstep
      exact (append_take_drop put bs b n).trans h
    | .send .interrupted =>
      cases hstep
      rw [List.append_nil]
      exact h
    | .send (.wrote 0) | .send .failed =>
      cases hstep
      rw [List.append_nil]
      exact hfail _ h (hclean.resolve_left (by decide))
    | .read _ | .readInterrupted | .readFailed | .go => cases hstep

theorem reached_step_install (h : (install requestId apkSize).Reached put phase)
    (hstep : phase.step stopRequested shut input = some (more, next)) :
    (install requestId apkSize).Reached (put ++ more) next := by
  match phase, h with
  | .finished sent, h => cases input <;> cases hstep
  | .sending [] (some remaining), h =>
    cases input with
    | go =>
      cases hstep
      exact h
    | _ => cases hstep
  | .sending (b :: bs) (some remaining), ⟨data, hdata, hsize⟩ =>
    match input with
    | .send (.wrote (n + 1)) =>
      rw [WritePhase.step] at hstep
      split at hstep <;> cases hstep
      exact ⟨data, (append_take_drop put bs b n).trans hdata, hsize⟩
    | .send .interrupted =>
      cases hstep
      rw [List.append_nil]
      exact ⟨data, hdata, hsize⟩
    | .send (.wrote 0) | .send .failed =>
      cases hstep
      rw [List.append_nil]
      exact incomplete_install hdata hsize (.inl (List.cons_ne_nil b bs))
    | .read _ | .readInterrupted | .readFailed | .go => cases hstep
  | .transferring remaining, ⟨data, hdata, hsize⟩ =>
    cases input with
    | go =>
      rw [WritePhase.step] at hstep
      split at hstep
      · rename_i hzero
        cases hstep
        rw [List.append_nil]
        exact ⟨data, by omega, hdata⟩
      · rename_i hmore
        split at hstep
        · cases hstep
          rw [List.append_nil]
          exact incomplete_of_remaining hdata hsize hmore
        · cases hstep
          rw [List.append_nil]
          exact ⟨hmore, data, hdata, hsize⟩
    | _ => cases hstep
  | .reading remaining, ⟨hmore, data, hdata, hsize⟩ =>
    match input with
    | .read (b :: bs) =>
      rw [WritePhase.step] at hstep
      split at hstep <;> cases hstep
      rename_i hfits
      refine ⟨data ++ b :: bs, ?_, ?_⟩
      · rw [List.append_nil, hdata, List.append_assoc]
      · rw [List.length_append]
        omega
    | .read [] | .readFailed =>
      cases hstep
      rw [List.append_nil]
      exact incomplete_of_remaining hdata hsize hmore
    | .readInterrupted =>
      cases hstep
      rw [List.append_nil]
      exact ⟨data, hdata, hsize⟩
    | .send _ | .go => cases hstep

theorem Reached.step (h : m.Reached put phase) (hclean : m.SendsClean phase input)
    (hstep : phase.step stopRequested shut input = some (more, next)) :
    m.Reached (put ++ more) next := by
  cases m with
  | request => exact reached_step_request h hclean hstep
  | install => exact reached_step_install h hstep

theorem put_of_step (hstep : phase.step stopRequested shut input = some (more, next))
    (hmore : more ≠ []) : shut = false := by
  unfold WritePhase.step at hstep
  split at hstep
  case h_3 =>
    split at hstep
    · cases hstep
    · rename_i hshut
      exact Bool.eq_false_of_not_eq_true hshut
  all_goals
    repeat' split at hstep
    all_goals cases hstep <;> exact absurd rfl hmore

end Message

end GuestControlWire
end MacMu
