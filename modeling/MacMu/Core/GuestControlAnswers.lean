import MacMu.Core.GuestControlLines

/-!
The answers of the agent on their way up: what `handle_line` reads in each of
the lines the agent writes, and how `serve_connection` brings them to the
requests they are for. The loop's invariant is on the bytes still to come: with
the buffer in front of them they cut into the lines of the answers that have not
been handled yet.
-/

namespace MacMu
namespace GuestControlClient

inductive AgentLine where
  | ok (id : UInt64)
  | okWith (id : UInt64) (payload : List UInt8)
  | err (id : UInt64) (message : List UInt8)
  deriving DecidableEq, Repr

namespace AgentLine

def id : AgentLine → UInt64
  | ok id | okWith id _ | err id _ => id

def rest : AgentLine → List UInt8
  | ok _ => ascii "ok"
  | okWith _ payload => ascii "ok " ++ payload
  | err _ message => ascii "err " ++ message

def text (l : AgentLine) : List UInt8 := Decimal.bytes l.id.toNat ++ 32 :: l.rest

def answer : AgentLine → Answer
  | ok id => ⟨id, true, []⟩
  | okWith id payload => ⟨id, true, payload⟩
  | err id message => ⟨id, false, message⟩

def payload (l : AgentLine) : List UInt8 := l.answer.payload

/-- No newline or NUL in the payload, no carriage return at its end, and a line
within the limit of the client. -/
def Valid (l : AgentLine) : Prop :=
  10 ∉ l.payload ∧ 0 ∉ l.payload ∧ l.payload.getLast? ≠ some 13 ∧
    l.text.length ≤ Serving.maximumLine

end AgentLine

theorem signed_of_digit {b : UInt8} (h : Decimal.isDigit b.toNat = true) (rest : List UInt8) :
    signed (b :: rest) = (false, b :: rest) := by
  unfold signed
  split
  · rename_i heq
    rw [(List.cons.inj heq).1] at h
    exact absurd h (by decide)
  · rename_i heq
    rw [(List.cons.inj heq).1] at h
    exact absurd h (by decide)
  · rfl

theorem isSpace_of_digit {b : UInt8} (h : Decimal.isDigit b.toNat = true) : isSpace b = false := by
  simp only [Decimal.isDigit, decide_eq_true_eq] at h
  simp only [isSpace, decide_eq_false_iff_not, not_or, not_and, ← UInt8.toNat_inj,
    UInt8.le_iff_toNat_le, UInt8.reduceToNat]
  omega

theorem strtoull_bytes (id : UInt64) (rest : List UInt8) :
    strtoull (Decimal.bytes id.toNat ++ 32 :: rest) = some (id, 32 :: rest) := by
  have hdigits : ∀ b ∈ Decimal.bytes id.toNat, Decimal.isDigit b.toNat = true :=
    fun b => Decimal.isDigit_of_mem_bytes
  obtain ⟨htake, hdrop⟩ := Decimal.span_digits UInt8.toNat (32 :: rest) hdigits (by
    rintro c ⟨rfl⟩
    decide)
  have hvalue : Decimal.value ((Decimal.bytes id.toNat).map UInt8.toNat) = id.toNat := by
    rw [Decimal.map_toNat_bytes, Decimal.value_codes]
  have hstart : signed ((Decimal.bytes id.toNat ++ 32 :: rest).dropWhile isSpace) =
      (false, Decimal.bytes id.toNat ++ 32 :: rest) := by
    cases hbytes : Decimal.bytes id.toNat with
    | nil => exact absurd hbytes (Decimal.bytes_ne_nil _)
    | cons b bs =>
      have hb := hdigits b (hbytes ▸ List.mem_cons_self)
      rw [List.cons_append, List.dropWhile_cons_of_neg (by rw [isSpace_of_digit hb]; decide),
        signed_of_digit hb]
  have hlt := id.toNat_lt
  rw [strtoull, hstart]
  simp only [htake, hdrop, hvalue]
  rw [if_neg (by simpa [Decimal.bytes_ne_nil] using hlt)]
  simp

theorem afterWord_append (word : List UInt8) (payload : List UInt8) :
    afterWord word (word ++ 32 :: payload) = some payload := by
  rw [afterWord, if_pos (List.prefix_append _ _), List.drop_left]
  rfl

namespace AgentLine

variable {l : AgentLine}

theorem text_ne_nil (l : AgentLine) : l.text ≠ [] :=
  List.append_ne_nil_of_right_ne_nil _ (List.cons_ne_nil _ _)

theorem mem_text {b : UInt8} (h : b ∈ l.text) :
    Decimal.isDigit b.toNat = true ∨ b ∈ ascii " okerr" ∨ b ∈ l.payload := by
  obtain hid | hrest := List.mem_append.mp h
  · exact .inl (Decimal.isDigit_of_mem_bytes hid)
  obtain rfl | hrest := List.mem_cons.mp hrest
  · exact .inr (.inl (by decide))
  right
  cases l with
  | ok id =>
    have hsub : ascii "ok" ⊆ ascii " okerr" := by decide
    exact .inl (hsub hrest)
  | okWith id payload =>
    have hsub : ascii "ok " ⊆ ascii " okerr" := by decide
    exact (List.mem_append.mp hrest).imp_left fun hword => hsub hword
  | err id message =>
    have hsub : ascii "err " ⊆ ascii " okerr" := by decide
    exact (List.mem_append.mp hrest).imp_left fun hword => hsub hword

theorem newline_not_mem_text (h : l.Valid) : 10 ∉ l.text := by
  intro hmem
  obtain hdigit | hword | hpayload := mem_text hmem
  · exact absurd hdigit (by decide)
  · exact absurd hword (by decide)
  · exact h.1 hpayload

theorem text_eq (l : AgentLine) : ∃ front, 13 ∉ front ∧ l.text = front ++ l.payload := by
  have hid : ∀ word : List UInt8, 13 ∉ word → 13 ∉ Decimal.bytes l.id.toNat ++ 32 :: word := by
    intro word hword hmem
    obtain hdigit | hrest := List.mem_append.mp hmem
    · exact absurd (Decimal.isDigit_of_mem_bytes hdigit) (by decide)
    · exact hword ((List.mem_cons.mp hrest).resolve_left (by decide))
  cases l with
  | ok id => exact ⟨_, hid (ascii "ok") (by decide), (List.append_nil _).symm⟩
  | okWith id payload =>
    refine ⟨_, hid (ascii "ok ") (by decide), ?_⟩
    rw [List.append_assoc]
    rfl
  | err id message =>
    refine ⟨_, hid (ascii "err ") (by decide), ?_⟩
    rw [List.append_assoc]
    rfl

theorem getLast?_text (h : l.Valid) : l.text.getLast? ≠ some 13 := by
  obtain ⟨front, hfront, htext⟩ := l.text_eq
  intro hlast
  rw [htext, List.getLast?_append] at hlast
  cases hpayload : l.payload.getLast? with
  | none =>
    rw [hpayload, Option.none_or] at hlast
    exact hfront (List.mem_of_getLast? hlast)
  | some b =>
    rw [hpayload, Option.some_or] at hlast
    exact h.2.2.1 (hpayload.trans hlast)

theorem parseAnswer_text (h : l.Valid) : parseAnswer l.text = some l.answer := by
  have hstring : l.text.takeWhile (· ≠ 0) = l.text := by
    rw [List.takeWhile_eq_self_iff]
    intro b hb
    apply decide_eq_true
    rintro rfl
    obtain hdigit | hword | hpayload := mem_text hb
    · exact absurd hdigit (by decide)
    · exact absurd hword (by decide)
    · exact h.2.1 hpayload
  rw [parseAnswer, hstring, text, strtoull_bytes]
  cases l with
  | ok id => rfl
  | okWith id payload =>
    have hrest : (okWith id payload).rest = ascii "ok" ++ 32 :: payload := rfl
    simp only [hrest, afterWord_append]
    rfl
  | err id message =>
    have hrest : (err id message).rest = ascii "err" ++ 32 :: message := rfl
    have hok : afterWord (ascii "ok") (ascii "err" ++ 32 :: message) = none := by
      apply if_neg
      rintro ⟨tail, heq⟩
      cases heq
    simp only [hrest, hok, afterWord_append]
    rfl

def bytes (l : AgentLine) : List UInt8 := l.text ++ [10]

end AgentLine

namespace Serving

variable {γ : Type} (s : Serving γ)
variable {l : AgentLine} {id : UInt64} {lines : List AgentLine} {entry : Pending γ}

/-- What a request with this id is to be handed, by the first answer for it. -/
def due (pending : PendingRequestTable UInt64 γ) (lines : List AgentLine) (id : UInt64) :
    List (UInt64 × γ × Bool × List UInt8) :=
  match pending.pending[id]?, lines.find? (·.id = id) with
  | some entry, some line => [(id, entry.callback, line.answer.ok, line.payload)]
  | _, _ => []

def handed (id : UInt64) : List (UInt64 × γ × Bool × List UInt8) :=
  s.completed.filter fun c => c.1 = id

theorem due_nil (pending : PendingRequestTable UInt64 γ) (id : UInt64) : due pending [] id = [] := by
  unfold due
  split
  · rename_i heq
    cases heq
  · rfl

variable {s}

theorem takeLine_text (h : l.Valid) :
    s.takeLine l.text =
      match s.pending.take l.id with
      | (none, pending) => { s with pending := pending }
      | (some callback, pending) =>
        { s with
          pending := pending
          completed := s.completed ++ [(l.id, callback, l.answer.ok, l.payload)] } := by
  have hid : l.answer.id = l.id := by cases l <;> rfl
  rw [takeLine, if_neg (AgentLine.getLast?_text h), if_neg l.text_ne_nil, handleLine,
    AgentLine.parseAnswer_text h]
  simp only [hid]
  rfl

theorem due_cons_of_ne (h : l.id ≠ id) (pending : PendingRequestTable UInt64 γ)
    (lines : List AgentLine) : due pending (l :: lines) id = due pending lines id := by
  rw [due, due, List.find?_cons_of_neg (by simpa using h)]

theorem due_of_none {pending : PendingRequestTable UInt64 γ} (h : pending.pending[id]? = none)
    (lines : List AgentLine) : due pending lines id = [] := by
  rw [due, h]

theorem handed_takeLine (h : l.Valid) (lines : List AgentLine) (id : UInt64) :
    (s.takeLine l.text).handed id ++ due (s.takeLine l.text).pending lines id =
      s.handed id ++ due s.pending (l :: lines) id := by
  rw [takeLine_text h]
  unfold PendingRequestTable.take
  cases hentry : s.pending.pending[l.id]? with
  | none =>
    by_cases hid : l.id = id
    · subst hid
      simp only [handed, due_of_none hentry]
    · simp only [handed, due_cons_of_ne hid]
  | some entry =>
    simp only [handed, List.filter_append]
    by_cases hid : l.id = id
    · subst hid
      have herased : (s.pending.pending.erase l.id)[l.id]? = none :=
        Std.ExtTreeMap.getElem?_erase_self
      have hnone : due ⟨s.pending.pending.erase l.id⟩ lines l.id = [] := due_of_none herased lines
      have hdue : due s.pending (l :: lines) l.id =
          [(l.id, entry.callback, l.answer.ok, l.payload)] := by
        rw [due, hentry, List.find?_cons_of_pos (by simp)]
      rw [hnone, hdue]
      simp
    · have hother : (s.pending.pending.erase l.id)[id]? = s.pending.pending[id]? := by
        rw [Std.ExtTreeMap.getElem?_erase, if_neg (by simpa using hid)]
      have hdue : due ⟨s.pending.pending.erase l.id⟩ lines id = due s.pending lines id := by
        rw [due, due, hother]
      rw [hdue, due_cons_of_ne hid]
      simp [hid]

theorem handed_foldl (h : ∀ l ∈ lines, l.Valid) (later : List AgentLine) (id : UInt64) :
    ((lines.map AgentLine.text).foldl takeLine s).handed id ++
        due ((lines.map AgentLine.text).foldl takeLine s).pending later id =
      s.handed id ++ due s.pending (lines ++ later) id := by
  induction lines generalizing s with
  | nil => rfl
  | cons l lines ih =>
    rw [List.map_cons, List.foldl_cons, ih fun l' hl' => h l' (List.mem_cons_of_mem _ hl'),
      handed_takeLine (h l List.mem_cons_self), List.cons_append]

theorem handed_readChunk {bytes : List UInt8} (h : ∀ l ∈ lines, l.Valid)
    (hcut : (Lines.cut 10 (s.buffer ++ bytes)).1 = lines.map AgentLine.text)
    (later : List AgentLine) (id : UInt64) :
    (s.readChunk bytes).handed id ++ due (s.readChunk bytes).pending later id =
      s.handed id ++ due s.pending (lines ++ later) id := by
  rw [readChunk, hcut]
  exact handed_foldl h ..

theorem pending_handleLine {line : List UInt8}
    (h : (s.handleLine line).pending.pending[id]? = some entry) :
    s.pending.pending[id]? = some entry := by
  have herase : ∀ key, ((s.pending.take key).2).pending[id]? = some entry →
      s.pending.pending[id]? = some entry := by
    intro key hkey
    unfold PendingRequestTable.take at hkey
    split at hkey
    · exact hkey
    · rw [Std.ExtTreeMap.getElem?_erase] at hkey
      split at hkey
      · cases hkey
      · exact hkey
  unfold handleLine at h
  split at h
  · exact h
  · rename_i answer _
    apply herase answer.id
    split at h <;> rename_i heq <;> rw [heq] <;> exact h

theorem pending_takeLine {line : List UInt8}
    (h : (s.takeLine line).pending.pending[id]? = some entry) :
    s.pending.pending[id]? = some entry := by
  unfold takeLine at h
  extract_lets line at h
  split at h
  · exact h
  · exact pending_handleLine h

theorem pending_foldl {lines : List (List UInt8)}
    (h : (lines.foldl takeLine s).pending.pending[id]? = some entry) :
    s.pending.pending[id]? = some entry := by
  induction lines generalizing s with
  | nil => exact h
  | cons line lines ih => exact pending_takeLine (ih h)

theorem pending_readChunk {bytes : List UInt8}
    (h : (s.readChunk bytes).pending.pending[id]? = some entry) :
    s.pending.pending[id]? = some entry :=
  pending_foldl (s := { s with buffer := (Lines.cut 10 (s.buffer ++ bytes)).2 }) h

theorem buffer_takeLine (line : List UInt8) : (s.takeLine line).buffer = s.buffer := by
  unfold takeLine handleLine
  simp only
  repeat' split
  all_goals rfl

theorem buffer_foldl (lines : List (List UInt8)) : (lines.foldl takeLine s).buffer = s.buffer := by
  induction lines generalizing s with
  | nil => rfl
  | cons line lines ih => rw [List.foldl_cons, ih, buffer_takeLine]

theorem handed_sweep (nowMs : UInt64) (id : UInt64) : (s.sweep nowMs).handed id = s.handed id := rfl

theorem pending_sweep {nowMs : UInt64}
    (h : ∀ entry, s.pending.pending[id]? = some entry → nowMs < entry.deadlineMs) :
    (s.sweep nowMs).pending.pending[id]? = s.pending.pending[id]? := by
  rw [sweep, PendingRequestTable.sweepTimeouts]
  simp only [Std.ExtTreeMap.getElem?_filter']
  cases hentry : s.pending.pending[id]? with
  | none => rfl
  | some entry =>
    have hlt := UInt64.not_le.mpr (h entry hentry)
    simp [hlt]

theorem length_le_of_cut {buffer later : List UInt8} (hbuffer : 10 ∉ buffer)
    (hvalid : ∀ l ∈ lines, l.Valid)
    (hcut : Lines.cut 10 (buffer ++ later) = (lines.map AgentLine.text, [])) :
    buffer.length ≤ maximumLine := by
  have hall := (Lines.cut_remainder 10 (buffer ++ later)).2
  rw [hcut, List.append_nil] at hall
  cases lines with
  | nil =>
    rw [(List.append_eq_nil_iff.mp hall).1]
    exact Nat.zero_le _
  | cons l lines =>
    refine Nat.le_trans ?_ (hvalid l List.mem_cons_self).2.2.2
    simp only [List.map_cons, List.flatMap_cons, List.append_assoc] at hall
    by_contra hlong
    rw [Nat.not_le] at hlong
    have hline : l.text ++ [10] <+: buffer ++ later := by
      rw [hall, ← List.append_assoc]
      exact List.prefix_append _ _
    have hinside : l.text ++ [10] <+: buffer := by
      apply List.prefix_of_prefix_length_le hline (List.prefix_append buffer later)
      rw [List.length_append]
      exact hlong
    exact hbuffer (hinside.subset (List.mem_append_right _ List.mem_cons_self))

/-- The loop hands a request what is due to it, whatever the pieces in which the
lines come, if no sweep finds it expired. -/
theorem handed_serveConnection {wakes : List Wake} (hvalid : ∀ l ∈ lines, l.Valid)
    (hbuffer : 10 ∉ s.buffer)
    (hcut : Lines.cut 10 (s.buffer ++ incoming wakes) = (lines.map AgentLine.text, []))
    (htime : ∀ nowMs, .quiet nowMs ∈ wakes → ∀ entry, s.pending.pending[id]? = some entry →
      nowMs < entry.deadlineMs) :
    (serveConnection s wakes).handed id = s.handed id ++ due s.pending lines id := by
  have hdone : ∀ {s : Serving γ} {lines : List AgentLine}, 10 ∉ s.buffer →
      Lines.cut 10 (s.buffer ++ []) = (lines.map AgentLine.text, []) →
      s.handed id = s.handed id ++ due s.pending lines id := by
    intro s lines hbuffer hcut
    rw [List.append_nil, Lines.cut_of_not_mem hbuffer] at hcut
    rw [List.map_eq_nil_iff.mp (Prod.mk.inj hcut).1.symm, due_nil, List.append_nil]
  induction wakes generalizing s lines with
  | nil => exact hdone hbuffer hcut
  | cons wake wakes ih =>
    have hlater : ∀ nowMs, .quiet nowMs ∈ wakes → .quiet nowMs ∈ wake :: wakes :=
      fun _ hmem => List.mem_cons_of_mem _ hmem
    cases wake with
    | failed | stopRequested => exact hdone hbuffer hcut
    | interrupted => exact ih hvalid hbuffer hcut fun nowMs hmem => htime nowMs (hlater nowMs hmem)
    | quiet nowMs =>
      have hpending := pending_sweep (htime nowMs List.mem_cons_self)
      have hdue : due (s.sweep nowMs).pending lines id = due s.pending lines id := by
        rw [due, due, hpending]
      have hnext := ih (s := s.sweep nowMs) hvalid hbuffer hcut (by
        rw [hpending]
        exact fun now hmem => htime now (hlater now hmem))
      rw [hdue, handed_sweep] at hnext
      exact hnext
    | read bytes =>
      cases bytes with
      | nil => exact hdone hbuffer hcut
      | cons b bs =>
        rw [incoming, ← List.append_assoc, Lines.cut_append] at hcut
        obtain ⟨hlines, hrest⟩ := Prod.mk.inj hcut
        obtain ⟨front, back, rfl, hfront, hback⟩ := List.map_eq_append_iff.mp hlines.symm
        have hnewline := (Lines.cut_remainder 10 (s.buffer ++ b :: bs)).1
        have hcut' : Lines.cut 10 ((Lines.cut 10 (s.buffer ++ b :: bs)).2 ++ incoming wakes) =
            (back.map AgentLine.text, []) := Prod.ext hback.symm hrest
        have hbackValid : ∀ l ∈ back, l.Valid :=
          fun l hl => hvalid l (List.mem_append_right _ hl)
        have hfits := length_le_of_cut hnewline hbackValid hcut'
        have hbuf : (s.readChunk (b :: bs)).buffer = (Lines.cut 10 (s.buffer ++ b :: bs)).2 :=
          buffer_foldl _
        have hhanded := handed_readChunk (fun l hl => hvalid l (List.mem_append_left _ hl))
          hfront.symm back id
        rw [serveConnection, if_neg (by rw [hbuf]; omega), ih hbackValid]
        · exact hhanded
        · rw [hbuf]; exact hnewline
        · rw [hbuf]; exact hcut'
        · intro nowMs hmem entry hentry
          exact htime nowMs (hlater nowMs hmem) entry (pending_readChunk hentry)

end Serving
end GuestControlClient
end MacMu
