import MacMu.Agent.ControlLoop
import MacMu.Core.GuestControlAnswers

/-!
The guest control stream end to end. Downwards, the calls written on a
connection are what the agent's loop takes from it, although an install message
carries raw bytes between the lines. Upwards, the answers of the agent reach the
requests they are for, in whatever order they come. Both hold for every way the
bytes are cut on the way.
-/

namespace MacMu
namespace GuestControlRoundTrip

open ByteStream
open GuestControlClient hiding Arrival

theorem bytes_lt_128 {n : Nat} {b : UInt8} (h : b ∈ Decimal.bytes n) : b.toNat < 128 := by
  have hdigit := Decimal.isDigit_of_mem_bytes h
  simp only [Decimal.isDigit, decide_eq_true_eq] at hdigit
  omega

def idText (requestId : UInt64) : Agent.JavaString := Agent.decode (Decimal.bytes requestId.toNat)

theorem isDigit_of_mem_decode_bytes {n : Nat} {c : Char}
    (h : c ∈ Agent.decode (Decimal.bytes n)) : Decimal.isDigit c.toNat = true := by
  obtain ⟨b, hb, rfl⟩ := List.mem_map.mp h
  rw [Agent.toNat_usAscii (bytes_lt_128 hb)]
  exact Decimal.isDigit_of_mem_bytes hb

theorem decode_bytes_ne_nil (n : Nat) : Agent.decode (Decimal.bytes n) ≠ [] := by
  simpa [Agent.decode] using Decimal.bytes_ne_nil n

theorem blank_not_mem_idText (requestId : UInt64) : ' ' ∉ idText requestId :=
  fun hmem => absurd (isDigit_of_mem_decode_bytes hmem) (by decide)

theorem value_decode_bytes (n : Nat) :
    Decimal.value ((Agent.decode (Decimal.bytes n)).map Char.toNat) = n := by
  rw [Agent.map_toNat_decode fun b hb => bytes_lt_128 hb, Decimal.map_toNat_bytes,
    Decimal.value_codes]

/-- The calls the two programs agree about. A command must not look like an
install header, or its successors would be taken for an APK. -/
def Valid : Call → Prop
  | .request requestId command =>
    (∀ b ∈ command, b.toNat < 128 ∧ b ≠ 10) ∧ command.getLast? ≠ some 13 ∧
      (∀ field, Agent.split (Agent.decode command) ≠ ["install".toList, field]) ∧
      (Decimal.bytes requestId.toNat).length + 1 + command.length ≤ Agent.controlLineLimit
  | .installApk _ file =>
    0 < (received file).length ∧ (received file).length ≤ 2 * 1024 * 1024 * 1024

def event : Call → Agent.Event
  | .request requestId command => .request (idText requestId) (Agent.decode command)
  | .installApk requestId file => .install (idText requestId) (received file)

theorem newline_not_mem_bytes (n : Nat) : (10 : UInt8) ∉ Decimal.bytes n :=
  fun hmem => absurd (Decimal.isDigit_of_mem_bytes hmem) (by decide)

theorem getLast?_append_cons_ne {front back : List UInt8} {b c : UInt8} (hb : b ≠ c)
    (hback : back.getLast? ≠ some c) : (front ++ b :: back).getLast? ≠ some c := by
  rw [List.getLast?_append_of_ne_nil _ (List.cons_ne_nil b back), List.getLast?_cons]
  cases hlast : back.getLast? with
  | none => simpa using hb
  | some d =>
    rw [hlast] at hback
    simpa using hback

theorem readAsciiLine_of_line {requestId : UInt64} {text rest : List UInt8} {as : List Arrival}
    (h : received as = Decimal.bytes requestId.toNat ++ ascii " " ++ text ++ ascii "\n" ++ rest)
    (hnewline : 10 ∉ text) (hreturn : text.getLast? ≠ some 13)
    (hfits : (Decimal.bytes requestId.toNat).length + 1 + text.length ≤ Agent.controlLineLimit) :
    ∃ later, Agent.readAsciiLine [] as =
        .line (idText requestId ++ ' ' :: Agent.decode text) later ∧ received later = rest := by
  have hline : received as = (Decimal.bytes requestId.toNat ++ 32 :: text) ++ 10 :: rest := by
    simp only [h, List.append_assoc]
    rfl
  have hmem : (10 : UInt8) ∉ Decimal.bytes requestId.toNat ++ 32 :: text := by
    rw [List.mem_append, List.mem_cons]
    rintro (hid | hblank | htext)
    · exact newline_not_mem_bytes _ hid
    · exact absurd hblank (by decide)
    · exact hnewline htext
  obtain ⟨later, hread, hrec⟩ := Agent.readAsciiLine_of_received [] hline hmem (by
    simp only [List.length_nil, List.length_append, List.length_cons]
    omega)
  refine ⟨later, ?_, hrec⟩
  rw [hread, List.nil_append, Agent.stripCr_of_ne (getLast?_append_cons_ne (by decide) hreturn)]
  simp only [Agent.decode, idText, List.map_append, List.map_cons]
  rfl

theorem agent_takes_call {call : Call} (hcall : Valid call) {rest : List UInt8}
    {as : List Arrival} {disk : List Bool} (h : received as = call.bytes ++ rest)
    (hdisk : ∀ ok ∈ disk, ok = true) :
    ∃ later disk', (Agent.handleControl as disk).events =
        event call :: (Agent.handleControl later disk').events ∧
      received later = rest ∧ disk' ⊆ disk := by
  cases call with
  | request requestId command =>
    obtain ⟨hascii, hreturn, hinstall, hfits⟩ := hcall
    obtain ⟨later, hline, hrec⟩ := readAsciiLine_of_line h (fun hmem => (hascii 10 hmem).2 rfl)
      hreturn hfits
    have hnext := Agent.handleControlLine_request (decode_bytes_ne_nil _)
      (blank_not_mem_idText requestId) hinstall later disk
    exact ⟨later, disk, Agent.handleControl_of_line hline hnext, hrec, List.Subset.refl _⟩
  | installApk requestId file =>
    obtain ⟨hpos, hmax⟩ := hcall
    have hsize : (Decimal.bytes (received file).length).length ≤ 10 :=
      Decimal.length_bytes_le (by omega) (by omega)
    have hid : (Decimal.bytes requestId.toNat).length ≤ 20 :=
      Decimal.length_bytes_le (by have := requestId.toNat_lt; omega) (by omega)
    have hdigits : (10 : UInt8) ∉ ascii "install " ++ Decimal.bytes (received file).length := by
      rw [List.mem_append]
      rintro (hword | hdigits)
      · exact absurd hword (by decide)
      · exact newline_not_mem_bytes _ hdigits
    have hreturn : (ascii "install " ++ Decimal.bytes (received file).length).getLast? ≠
        some 13 := by
      intro hlast
      obtain hword | hdigits := List.mem_append.mp (List.mem_of_getLast? hlast)
      · exact absurd hword (by decide)
      · exact absurd (Decimal.isDigit_of_mem_bytes hdigits) (by decide)
    have htext : received as = Decimal.bytes requestId.toNat ++ ascii " " ++
        (ascii "install " ++ Decimal.bytes (received file).length) ++ ascii "\n" ++
          (received file ++ rest) := by
      rw [h, Call.bytes, installHeader]
      simp only [List.append_assoc]
      rfl
    obtain ⟨later, hline, hrec⟩ := readAsciiLine_of_line htext hdigits hreturn (by
      rw [List.length_append, show (ascii "install ").length = 8 from rfl, Agent.controlLineLimit]
      omega)
    have hdecode : Agent.decode (ascii "install " ++ Decimal.bytes (received file).length) =
        "install".toList ++ ' ' :: Agent.decode (Decimal.bytes (received file).length) := by
      rw [Agent.decode, List.map_append]
      rfl
    obtain ⟨later', disk', hnext, hrec', hsub⟩ := Agent.handleControlLine_install
      (decode_bytes_ne_nil requestId.toNat) (blank_not_mem_idText requestId)
      (decode_bytes_ne_nil _) (fun c => isDigit_of_mem_decode_bytes) (value_decode_bytes _)
      hpos (by rw [Agent.maxApkBytes]; omega) hrec hdisk
    rw [hdecode] at hline
    exact ⟨later', disk', Agent.handleControl_of_line hline hnext, hrec', hsub⟩

theorem agent_takes_calls {calls : List Call} (hcalls : ∀ call ∈ calls, Valid call)
    {as : List Arrival} {disk : List Bool} (h : received as = calls.flatMap Call.bytes)
    (hdisk : ∀ ok ∈ disk, ok = true) : (Agent.handleControl as disk).events = calls.map event := by
  induction calls generalizing as disk with
  | nil => exact Agent.handleControl_of_nothing h disk
  | cons call calls ih =>
    rw [List.flatMap_cons] at h
    obtain ⟨later, disk', hevents, hrec, hsub⟩ :=
      agent_takes_call (hcalls call List.mem_cons_self) h hdisk
    rw [hevents, List.map_cons, ih (fun c hc => hcalls c (List.mem_cons_of_mem _ hc)) hrec
      fun ok hok => hdisk ok (hsub hok)]

theorem handed_of_lines {γ : Type} (pending : PendingRequestTable UInt64 γ)
    {lines : List AgentLine} {wakes : List Wake} {id : UInt64} (hvalid : ∀ l ∈ lines, l.Valid)
    (h : incoming wakes = lines.flatMap AgentLine.bytes)
    (htime : ∀ nowMs, .quiet nowMs ∈ wakes → ∀ entry, pending.pending[id]? = some entry →
      nowMs < entry.deadlineMs) :
    (Serving.serveConnection ⟨[], pending, [], []⟩ wakes).handed id =
      Serving.due pending lines id := by
  have hcut : Lines.cut 10 (lines.flatMap AgentLine.bytes) = (lines.map AgentLine.text, []) := by
    have htexts := Lines.cut_flatMap (lines.map AgentLine.text)
      (List.forall_mem_map.mpr fun l hl => AgentLine.newline_not_mem_text (hvalid l hl))
    rw [List.flatMap_map] at htexts
    exact htexts
  exact Serving.handed_serveConnection (s := ⟨[], pending, [], []⟩) hvalid List.not_mem_nil
    (by rw [h, List.nil_append, hcut]) htime

/-- The guest control protocol in both directions. Calls written with sends that
proceed are written completely after at most one send for each byte, and then
every way the bytes arrive gives the agent exactly these commands and APKs, its
own file system permitting. Every way the agent's lines are read hands a pending
request that does not expire the first answer to its id, and nothing else. -/
theorem guest_control_round_trip :
    (∀ (calls : List Call) (ts : List Transfer) (as : List Arrival) (disk : List Bool),
      (∀ call ∈ calls, Valid call) → (∀ t ∈ ts, t.Proceeds) → (∀ ok ∈ disk, ok = true) →
      ((calls.flatMap Call.bytes).length ≤ ByteStream.calls ts →
        (writeCalls calls ts).returned ≠ none) ∧
      ((writeCalls calls ts).returned ≠ none → received as = (writeCalls calls ts).put →
        (Agent.handleControl as disk).events = calls.map event)) ∧
    ∀ (γ : Type) (pending : PendingRequestTable UInt64 γ) (lines : List AgentLine)
      (wakes : List Wake) (id : UInt64),
      (∀ l ∈ lines, l.Valid) → incoming wakes = lines.flatMap AgentLine.bytes →
      (∀ nowMs, .quiet nowMs ∈ wakes → ∀ entry, pending.pending[id]? = some entry →
        nowMs < entry.deadlineMs) →
      (Serving.serveConnection ⟨[], pending, [], []⟩ wakes).handed id =
        Serving.due pending lines id := by
  refine ⟨?_, fun γ pending lines wakes id hvalid h htime => handed_of_lines pending hvalid h htime⟩
  intro calls ts as disk hcalls hts hdisk
  have hputs := puts_writeCalls calls
  refine ⟨?_, ?_⟩
  · intro henough
    rw [(hputs.enough ts hts henough).1]
    exact Option.some_ne_none _
  · intro hdone h
    have htrue := (hputs.proceeds ts hts).1.resolve_right hdone
    exact agent_takes_calls hcalls (h.trans (hputs.put_of_true ts htrue)) hdisk

/-- A command, an APK with a newline in it and another command, written in four
sends and read in four pieces; two answers that come in the opposite order. -/
theorem guest_control_round_trip_install_between :
    (Agent.handleControl
        [.bytes 49 (ascii " app"), .bytes 115 (ascii "\n2 install 3\n" ++ [10]), .interrupted,
          .bytes 50 [0, 51], .bytes 32 (ascii "apps\n")] [true]).events =
      [.request "1".toList "apps".toList, .install "2".toList [10, 50, 0],
        .request "3".toList "apps".toList] ∧
    (Serving.serveConnection
        ⟨[], (PendingRequestTable.empty.add 1 () 0 5000).add 2 () 0 5000, [], []⟩
        [.read (ascii "2 ok\n1 e"), .quiet 400, .read (ascii "rr no\n")]).handed 1 =
      [(1, (), false, ascii "no")] := by
  have hsplit : ∀ field, Agent.split "apps".toList ≠ ["install".toList, field] := by
    intro field heq
    have hone : (Agent.split "apps".toList).length = 1 := by decide
    rw [heq] at hone
    cases hone
  constructor
  · apply (guest_control_round_trip.1
      [.request 1 (ascii "apps"), .installApk 2 [.bytes 10 [50], .bytes 0 []],
        .request 3 (ascii "apps")]
      [.wrote 9, .wrote 12, .wrote 2, .wrote 1, .wrote 7] _ _ ?_ (by decide) (by decide)).2
    · decide +kernel
    · decide +kernel
    · intro call hcall
      simp only [List.mem_cons, List.not_mem_nil, or_false] at hcall
      obtain rfl | rfl | rfl := hcall
      · exact ⟨by decide +kernel, by decide, hsplit, by decide +kernel⟩
      · exact ⟨by decide, by decide⟩
      · exact ⟨by decide +kernel, by decide, hsplit, by decide +kernel⟩
  · apply (guest_control_round_trip.2 Unit _ [.ok 2, .err 1 (ascii "no")] _ 1 ?_ ?_ ?_).trans
    · decide +kernel
    · intro l hl
      simp only [List.mem_cons, List.not_mem_nil, or_false] at hl
      obtain rfl | rfl := hl
      · exact ⟨by decide, by decide, by decide, by decide⟩
      · exact ⟨by decide, by decide, by decide, by decide⟩
    · decide +kernel
    · intro nowMs hmem entry hentry
      have hnow : nowMs = 400 := by simpa using hmem
      have hdeadline : entry.deadlineMs = 5000 := by
        have hfirst : ((PendingRequestTable.empty.add (1 : UInt64) () 0 5000).add 2 () 0
            5000).pending[(1 : UInt64)]? = some ⟨(), 5000⟩ := by decide +kernel
        rw [Option.some.inj (hentry.symm.trans hfirst)]
      rw [hnow, hdeadline]
      decide

end GuestControlRoundTrip
end MacMu
