import Mathlib.Data.List.Basic
import Mathlib.Tactic.Common

/-!
Blocking reads and writes on a byte stream, one system call at a time.

A reader is given the future of its descriptor as a list of arrivals; the end
of the list is end of file. A writer is given the outcomes of its calls. Both
loops retry an interrupted call and go on after a partial transfer, so their
results depend on the arrivals only through the bytes received, and on the
outcomes only through how far they let the buffer go.
-/

namespace MacMu
namespace ByteStream

variable {as : List Arrival} {buffer : List UInt8} {ts : List Transfer}

/-- One thing a descriptor does for its reader. Data arrives in non-empty
pieces; a call returns at most the piece at the front. -/
inductive Arrival where
  | bytes (first : UInt8) (rest : List UInt8)
  | interrupted
  | idle
  | failed
  deriving DecidableEq, Repr

/-- The bytes a reader can obtain, up to end of file or the first hard error. -/
def received : List Arrival → List UInt8
  | [] => []
  | .bytes b bs :: as => b :: bs ++ received as
  | .interrupted :: as | .idle :: as => received as
  | .failed :: _ => []

/-- Give the unread part of a piece back to the front of the stream. -/
def unread : List UInt8 → List Arrival → List Arrival
  | [], as => as
  | b :: bs, as => .bytes b bs :: as

@[simp] theorem received_unread (bs : List UInt8) (as : List Arrival) :
    received (unread bs as) = bs ++ received as := by
  cases bs <;> rfl

/-- Read until `size` bytes have been collected. `none` is end of file or a
hard error before that. -/
def readExact : Nat → List Arrival → Option (List UInt8 × List Arrival)
  | 0, as => some ([], as)
  | _ + 1, [] => none
  | _ + 1, .failed :: _ => none
  | n + 1, .interrupted :: as | n + 1, .idle :: as => readExact (n + 1) as
  | n + 1, .bytes b bs :: as =>
    if n + 1 ≤ bs.length + 1 then
      some ((b :: bs).take (n + 1), unread ((b :: bs).drop (n + 1)) as)
    else
      (readExact (n - bs.length) as).map (fun r => (b :: bs ++ r.1, r.2))

theorem readExact_some {size : Nat} {data : List UInt8} {as' : List Arrival}
    (h : readExact size as = some (data, as')) :
    data.length = size ∧ received as = data ++ received as' := by
  fun_induction readExact size as generalizing data as' with
  | case1 as => cases h; exact ⟨rfl, rfl⟩
  | case2 | case3 => cases h
  | case4 n as ih | case5 n as ih => exact ih h
  | case6 n b bs as hle =>
    obtain ⟨rfl, rfl⟩ := Prod.mk.inj (Option.some.inj h)
    refine ⟨by simp only [List.length_take, List.length_cons]; omega, ?_⟩
    rw [received_unread, ← List.append_assoc, List.take_append_drop]
    rfl
  | case7 n b bs as hlt ih =>
    obtain ⟨⟨rest, as''⟩, hrest, heq⟩ := Option.map_eq_some_iff.mp h
    obtain ⟨rfl, rfl⟩ := Prod.mk.inj heq
    obtain ⟨hlen, hrec⟩ := ih hrest
    refine ⟨by simp only [List.length_append, List.length_cons]; omega, ?_⟩
    simp only [received, hrec, List.append_assoc]

theorem readExact_none {size : Nat} (h : readExact size as = none) :
    (received as).length < size := by
  fun_induction readExact size as with
  | case1 as => cases h
  | case2 n => simp [received]
  | case3 n as => simp [received]
  | case4 n as ih | case5 n as ih => exact ih h
  | case6 n b bs as hle => cases h
  | case7 n b bs as hlt ih =>
    have hrest := ih (Option.map_eq_none_iff.mp h)
    simp only [received, List.length_append, List.length_cons]
    omega

theorem readExact_of_received {data rest : List UInt8} (h : received as = data ++ rest) :
    ∃ as', readExact data.length as = some (data, as') ∧ received as' = rest := by
  cases hr : readExact data.length as with
  | none =>
    have hlt := readExact_none hr
    simp only [h, List.length_append] at hlt
    omega
  | some r =>
    obtain ⟨got, as'⟩ := r
    obtain ⟨hlen, hrec⟩ := readExact_some hr
    obtain ⟨rfl, rfl⟩ := List.append_inj (h.symm.trans hrec) hlen.symm
    exact ⟨as', rfl, rfl⟩

/-- How one blocking `read` ends, interruptions retried. -/
inductive Read where
  | data (first : UInt8) (rest : List UInt8) (later : List Arrival)
  | endOfFile
  | failed
  deriving DecidableEq, Repr

/-- One read of at most `wanted` bytes. -/
def readSome (wanted : Nat) : List Arrival → Read
  | [] => .endOfFile
  | .failed :: _ => .failed
  | .interrupted :: as | .idle :: as => readSome wanted as
  | .bytes b bs :: as => .data b (bs.take (wanted - 1)) (unread (bs.drop (wanted - 1)) as)

theorem readSome_data {wanted : Nat} {later : List Arrival} {b : UInt8} {bs : List UInt8}
    (h : readSome wanted as = .data b bs later) :
    bs.length ≤ wanted - 1 ∧ received as = b :: bs ++ received later := by
  fun_induction readSome wanted as with
  | case1 | case2 => cases h
  | case3 as ih | case4 as ih => exact ih h
  | case5 b' bs' as =>
    cases h
    refine ⟨List.length_take_le _ _, ?_⟩
    rw [received_unread, List.cons_append, ← List.append_assoc, List.take_append_drop]
    rfl

theorem readSome_of_received (wanted : Nat) (h : received as ≠ []) :
    ∃ b bs later, readSome wanted as = .data b bs later := by
  fun_induction readSome wanted as with
  | case1 | case2 => exact absurd rfl h
  | case3 as ih | case4 as ih => exact ih h
  | case5 b bs as => exact ⟨_, _, _, rfl⟩

theorem readSome_one {b : UInt8} {rest : List UInt8} (h : received as = b :: rest) :
    ∃ later, readSome 1 as = .data b [] later ∧ received later = rest := by
  obtain ⟨b', bs, later, hread⟩ := readSome_of_received 1 (h ▸ List.cons_ne_nil b rest)
  obtain ⟨hlen, hrec⟩ := readSome_data hread
  rw [List.length_eq_zero_iff.mp (Nat.le_zero.mp hlen)] at hread hrec
  obtain ⟨rfl, rfl⟩ := List.cons.inj (h.symm.trans hrec)
  exact ⟨later, hread, rfl⟩

/-- How one `send` or `write` call on a non-empty buffer ends. -/
inductive Transfer where
  | wrote (count : Nat)
  | interrupted
  | failed
  deriving DecidableEq, Repr

/-- The state of a write loop when its outcomes run out or it returns. `none`
in `returned` means the next call has not come back yet. -/
structure Written where
  put : List UInt8
  returned : Option Bool
  rest : List Transfer
  deriving DecidableEq, Repr

/-- Write the whole buffer, retrying interrupted calls. A call that writes
nothing ends the loop like an error. -/
def writeAll : List UInt8 → List Transfer → Written
  | [], ts => ⟨[], some true, ts⟩
  | _ :: _, [] => ⟨[], none, []⟩
  | b :: bs, .interrupted :: ts => writeAll (b :: bs) ts
  | _ :: _, .failed :: ts | _ :: _, .wrote 0 :: ts => ⟨[], some false, ts⟩
  | b :: bs, .wrote (n + 1) :: ts =>
    let w := writeAll (bs.drop n) ts
    { w with put := b :: bs.take n ++ w.put }

def Written.andThen (w : Written) (next : List Transfer → Written) : Written :=
  match w.returned with
  | some true => { next w.rest with put := w.put ++ (next w.rest).put }
  | _ => w

def Transfer.Proceeds : Transfer → Prop
  | .wrote n => 0 < n
  | .interrupted => True
  | .failed => False

instance (t : Transfer) : Decidable t.Proceeds :=
  match t with
  | .wrote n => inferInstanceAs (Decidable (0 < n))
  | .interrupted => .isTrue trivial
  | .failed => .isFalse id

theorem writeAll_put_initial (buffer : List UInt8) (ts : List Transfer) :
    (writeAll buffer ts).put <+: buffer := by
  fun_induction writeAll buffer ts with
  | case1 ts => exact List.prefix_refl _
  | case2 b bs => exact List.nil_prefix
  | case3 b bs ts ih => exact ih
  | case4 b bs ts | case5 b bs ts => exact List.nil_prefix
  | case6 b bs n ts w ih =>
    have hsplit : b :: bs = b :: bs.take n ++ bs.drop n := by
      rw [List.cons_append, List.take_append_drop]
    change b :: bs.take n ++ w.put <+: b :: bs
    rw [hsplit]
    exact (List.prefix_append_right_inj _).mpr ih

theorem writeAll_put_of_true (h : (writeAll buffer ts).returned = some true) :
    (writeAll buffer ts).put = buffer := by
  fun_induction writeAll buffer ts with
  | case1 ts => rfl
  | case2 b bs => cases h
  | case3 b bs ts ih => exact ih h
  | case4 b bs ts | case5 b bs ts => cases h
  | case6 b bs n ts w ih =>
    change b :: bs.take n ++ w.put = b :: bs
    rw [ih h, List.cons_append, List.take_append_drop]

theorem writeAll_true_of_put (h : (writeAll buffer ts).put = buffer) :
    (writeAll buffer ts).returned = some true := by
  fun_induction writeAll buffer ts with
  | case1 ts => rfl
  | case2 b bs => cases h
  | case3 b bs ts ih => exact ih h
  | case4 b bs ts | case5 b bs ts => cases h
  | case6 b bs n ts w ih =>
    apply ih
    have hsplit : b :: bs.take n ++ bs.drop n = b :: bs := by
      rw [List.cons_append, List.take_append_drop]
    exact List.append_cancel_left (h.trans hsplit.symm)

theorem writeAll_of_proceeds (h : ∀ t ∈ ts, t.Proceeds) :
    ((writeAll buffer ts).returned = some true ∨
      (writeAll buffer ts).returned = none ∧ (writeAll buffer ts).rest = []) ∧
    ∀ t ∈ (writeAll buffer ts).rest, t.Proceeds := by
  fun_induction writeAll buffer ts with
  | case1 ts => exact ⟨.inl rfl, h⟩
  | case2 b bs => exact ⟨.inr ⟨rfl, rfl⟩, h⟩
  | case3 b bs ts ih => exact ih (fun t ht => h t (List.mem_cons_of_mem _ ht))
  | case4 b bs ts => exact absurd (h .failed List.mem_cons_self) id
  | case5 b bs ts => exact absurd (h (.wrote 0) List.mem_cons_self) (Nat.lt_irrefl 0)
  | case6 b bs n ts w ih => exact ih (fun t ht => h t (List.mem_cons_of_mem _ ht))

def calls : List Transfer → Nat
  | [] => 0
  | .wrote _ :: ts => calls ts + 1
  | _ :: ts => calls ts

theorem writeAll_of_calls (h : ∀ t ∈ ts, t.Proceeds) (hc : buffer.length ≤ calls ts) :
    (writeAll buffer ts).returned = some true ∧
      calls ts ≤ calls (writeAll buffer ts).rest + buffer.length := by
  fun_induction writeAll buffer ts with
  | case1 ts => exact ⟨rfl, Nat.le_refl _⟩
  | case2 b bs => simp [calls] at hc
  | case3 b bs ts ih => exact ih (fun t ht => h t (List.mem_cons_of_mem _ ht)) hc
  | case4 b bs ts => exact absurd (h .failed List.mem_cons_self) id
  | case5 b bs ts => exact absurd (h (.wrote 0) List.mem_cons_self) (Nat.lt_irrefl 0)
  | case6 b bs n ts w ih =>
    simp only [calls, List.length_cons] at hc ⊢
    have hd : (bs.drop n).length ≤ bs.length := by
      rw [List.length_drop]; omega
    obtain ⟨hret, hle⟩ := ih (fun t ht => h t (List.mem_cons_of_mem _ ht)) (by omega)
    refine ⟨hret, ?_⟩
    change calls ts + 1 ≤ calls (writeAll (bs.drop n) ts).rest + (bs.length + 1)
    omega

@[simp] theorem andThen_of_true {w : Written} (h : w.returned = some true)
    (next : List Transfer → Written) :
    w.andThen next = { next w.rest with put := w.put ++ (next w.rest).put } := by
  simp [Written.andThen, h]

theorem andThen_of_not_true {w : Written} (h : w.returned ≠ some true)
    (next : List Transfer → Written) : w.andThen next = w := by
  unfold Written.andThen
  split
  · contradiction
  · rfl

/-- What a write that means to put `buffer` promises for every script of calls
that proceed. -/
structure Puts (buffer : List UInt8) (write : List Transfer → Written) : Prop where
  put_initial : ∀ ts, (write ts).put <+: buffer
  put_of_true : ∀ ts, (write ts).returned = some true → (write ts).put = buffer
  true_of_put : ∀ ts, (write ts).put = buffer → (write ts).returned = some true
  proceeds : ∀ ts, (∀ t ∈ ts, t.Proceeds) →
    ((write ts).returned = some true ∨ (write ts).returned = none) ∧
      ∀ t ∈ (write ts).rest, t.Proceeds
  enough : ∀ ts, (∀ t ∈ ts, t.Proceeds) → buffer.length ≤ calls ts →
    (write ts).returned = some true ∧ calls ts ≤ calls (write ts).rest + buffer.length

theorem puts_writeAll (buffer : List UInt8) : Puts buffer (writeAll buffer) where
  put_initial := writeAll_put_initial buffer
  put_of_true := fun _ h => writeAll_put_of_true h
  true_of_put := fun _ h => writeAll_true_of_put h
  proceeds := fun _ h =>
    ⟨(writeAll_of_proceeds h).1.imp_right And.left, (writeAll_of_proceeds h).2⟩
  enough := fun _ h hc => writeAll_of_calls h hc

theorem Puts.andThen {a b : List UInt8} {w₁ w₂ : List Transfer → Written}
    (h₁ : Puts a w₁) (h₂ : Puts b w₂) :
    Puts (a ++ b) (fun ts => (w₁ ts).andThen w₂) where
  put_initial := by
    intro ts
    by_cases hr : (w₁ ts).returned = some true
    · simp only [andThen_of_true hr, h₁.put_of_true ts hr]
      exact (List.prefix_append_right_inj a).mpr (h₂.put_initial _)
    · rw [andThen_of_not_true hr]
      exact (h₁.put_initial ts).trans (List.prefix_append a b)
  put_of_true := by
    intro ts h
    by_cases hr : (w₁ ts).returned = some true
    · rw [andThen_of_true hr] at h ⊢
      simp only [h₁.put_of_true ts hr, h₂.put_of_true _ h]
    · rw [andThen_of_not_true hr] at h
      exact absurd h hr
  true_of_put := by
    intro ts h
    by_cases hr : (w₁ ts).returned = some true
    · rw [andThen_of_true hr] at h ⊢
      simp only [h₁.put_of_true ts hr, List.append_cancel_left_eq] at h
      exact h₂.true_of_put _ h
    · rw [andThen_of_not_true hr] at h
      have hle := (h₁.put_initial ts).length_le
      rw [h, List.length_append] at hle
      have hb : b = [] := List.length_eq_zero_iff.mp (by omega)
      rw [hb, List.append_nil] at h
      exact absurd (h₁.true_of_put ts h) hr
  proceeds := by
    intro ts h
    by_cases hr : (w₁ ts).returned = some true
    · rw [andThen_of_true hr]
      exact h₂.proceeds _ (h₁.proceeds ts h).2
    · rw [andThen_of_not_true hr]
      exact h₁.proceeds ts h
  enough := by
    intro ts h hc
    rw [List.length_append] at hc
    obtain ⟨hr, hle⟩ := h₁.enough ts h (by omega)
    obtain ⟨hr', hle'⟩ := h₂.enough (w₁ ts).rest (h₁.proceeds ts h).2 (by omega)
    rw [andThen_of_true hr, List.length_append]
    exact ⟨hr', by simp only; omega⟩

end ByteStream
end MacMu
