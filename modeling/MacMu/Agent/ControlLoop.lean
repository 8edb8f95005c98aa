import MacMu.Lib.ByteStream
import MacMu.Lib.Decimal
import MacMu.Lib.Lines
import Mathlib

/-!
The control loop of `MacMuAgent`: request lines are read byte by byte, and an
`install` line switches the stream to an exact number of raw bytes. The model
follows what the loop takes from the stream. The answers it writes, and what the
commands do to Android, are left out: neither changes what is read next. The
buffered stream in between may cut the bytes anew; arrivals are arbitrary, so
they stand for what it hands out. `disk` gives the outcome of each call on the
temporary file, and calls beyond its end succeed.
-/

namespace MacMu
namespace Agent

open ByteStream

variable {as later : List Arrival} {text id : JavaString} {rest apk : List UInt8}
  {disk disk' : List Bool}

abbrev JavaString := List Char

/-- `StandardCharsets.US_ASCII`. -/
def usAscii (b : UInt8) : Char := if b.toNat < 128 then Char.ofNat b.toNat else Char.ofNat 0xFFFD

def decode (bytes : List UInt8) : JavaString := bytes.map usAscii

theorem toNat_usAscii {b : UInt8} (h : b.toNat < 128) : (usAscii b).toNat = b.toNat := by
  have hvalid : b.toNat.isValidChar := Or.inl (by omega)
  simp only [usAscii, if_pos h, Char.ofNat, dif_pos hvalid]
  rfl

theorem map_toNat_decode {bytes : List UInt8} (h : ∀ b ∈ bytes, b.toNat < 128) :
    (decode bytes).map Char.toNat = bytes.map UInt8.toNat := by
  rw [decode, List.map_map]
  exact List.map_congr_left fun b hb => toNat_usAscii (h b hb)

/-- `String.split(" ")`: trailing empty strings are dropped, and a string
without a match is the only field. -/
def split (s : JavaString) : List JavaString :=
  if ' ' ∈ s then (s.splitOn ' ').rdropWhile List.isEmpty else [s]

theorem split_two {first second : JavaString} (hfirst : ' ' ∉ first) (hsecond : ' ' ∉ second)
    (hne : second ≠ []) : split (first ++ ' ' :: second) = [first, second] := by
  have hcut : (first ++ ' ' :: second).splitOn ' ' = [first] ++ [second] := by
    have happend : (first ++ ' ' :: second).splitOn ' ' =
        first.splitOn ' ' ++ second.splitOn ' ' := List.splitOnP_append_cons _ _ rfl
    rw [happend, List.splitOn_eq_singleton hfirst, List.splitOn_eq_singleton hsecond]
  rw [split, if_pos (List.mem_append_right _ List.mem_cons_self), hcut,
    List.rdropWhile_concat_neg _ _ _ (by simpa using hne)]
  rfl

def signed : JavaString → Bool × JavaString
  | '-' :: digits => (true, digits)
  | '+' :: digits => (false, digits)
  | digits => (false, digits)

/-- `Integer.parseInt` and `Long.parseLong`, by the magnitude of the least value. -/
def parseNumber (limit : Nat) (s : JavaString) : Option Int :=
  let digits := (signed s).2
  let n := Decimal.value (digits.map Char.toNat)
  if digits = [] ∨ digits.all (fun c => Decimal.isDigit c.toNat) = false then none
  else if (signed s).1 then (if n ≤ limit then some (-n) else none)
  else if n < limit then some n else none

def parseInt : JavaString → Option Int := parseNumber (2 ^ 31)

def parseLong : JavaString → Option Int := parseNumber (2 ^ 63)

theorem signed_of_digit {c : Char} (h : Decimal.isDigit c.toNat = true) (rest : JavaString) :
    signed (c :: rest) = (false, c :: rest) := by
  unfold signed
  split
  · rename_i heq
    rw [(List.cons.inj heq).1] at h
    exact absurd h (by decide)
  · rename_i heq
    rw [(List.cons.inj heq).1] at h
    exact absurd h (by decide)
  · rfl

theorem parseLong_of_digits {digits : JavaString} (hne : digits ≠ [])
    (hdigits : ∀ c ∈ digits, Decimal.isDigit c.toNat = true)
    (hlt : Decimal.value (digits.map Char.toNat) < 2 ^ 63) :
    parseLong digits = some (Decimal.value (digits.map Char.toNat) : Int) := by
  have hall : digits.all (fun c => Decimal.isDigit c.toNat) = true := List.all_eq_true.mpr hdigits
  have hsigned : signed digits = (false, digits) := by
    cases digits with
    | nil => rfl
    | cons c rest => exact signed_of_digit (hdigits c List.mem_cons_self) rest
  rw [parseLong, parseNumber, hsigned]
  simpa [hne, hall] using hlt

def controlLineLimit : Nat := 64 * 1024

def maxApkBytes : Int := 2 * 1024 * 1024 * 1024

def apkBufferBytes : Nat := 256 * 1024

/-- What `handleControlLine` makes of the fields of a command. -/
inductive Request where
  | apps
  | displayState (displayId : Int)
  | launch (component : JavaString) (displayId : Int)
  | close (component : JavaString) (displayId : Int)
  | uninstall (packageName : JavaString)
  | install (byteCount : Nat)
  | unsupported
  /-- `Integer.parseInt` throws; the loop answers and goes on. -/
  | numberFormat
  /-- A `ControlStreamException`, after which the pipe is given up. -/
  | invalid (message : String)
  deriving DecidableEq, Repr

def withDisplay (field : JavaString) (request : Int → Request) : Request :=
  match parseInt field with
  | none => .numberFormat
  | some displayId => request displayId

def installRequest (field : JavaString) : Request :=
  match parseLong field with
  | none => .invalid "invalid APK byte count"
  | some byteCount =>
    if byteCount ≤ 0 ∨ maxApkBytes < byteCount then .invalid "APK byte count is out of range"
    else .install byteCount.toNat

def dispatch : List JavaString → Request
  | [word] => if word = "apps".toList then .apps else .unsupported
  | [word, field] =>
    if word = "display-state".toList then withDisplay field .displayState
    else if word = "uninstall".toList then .uninstall field
    else if word = "install".toList then installRequest field
    else .unsupported
  | [word, component, field] =>
    if word = "launch".toList then withDisplay field (.launch component)
    else if word = "close".toList then withDisplay field (.close component)
    else .unsupported
  | _ => .unsupported

def Request.InLineMode : Request → Prop
  | .install _ | .invalid _ => False
  | _ => True

theorem inLineMode_withDisplay (field : JavaString) {request : Int → Request}
    (h : ∀ displayId, (request displayId).InLineMode) : (withDisplay field request).InLineMode := by
  unfold withDisplay
  split
  · trivial
  · exact h _

theorem inLineMode_dispatch {fields : List JavaString}
    (h : ∀ field, fields ≠ ["install".toList, field]) : (dispatch fields).InLineMode := by
  unfold dispatch
  split
  · split <;> trivial
  · rename_i word field
    have hword : word ≠ "install".toList := fun heq => h field (by rw [heq])
    rw [if_neg hword]
    split
    · exact inLineMode_withDisplay field fun _ => trivial
    · split <;> trivial
  · split
    · exact inLineMode_withDisplay _ fun _ => trivial
    · split
      · exact inLineMode_withDisplay _ fun _ => trivial
      · trivial
  · trivial

/-- A carriage return before the newline is dropped. -/
def stripCr (line : List UInt8) : List UInt8 :=
  if line.getLast? = some 13 then line.dropLast else line

theorem stripCr_of_ne {line : List UInt8} (h : line.getLast? ≠ some 13) : stripCr line = line :=
  if_neg h

inductive LineRead where
  | line (text : JavaString) (later : List Arrival)
  | endOfStream
  | ioError
  | tooLong
  deriving DecidableEq, Repr

/-- `readAsciiLine` with the bytes collected so far. -/
def readAsciiLine (line : List UInt8) (as : List Arrival) : LineRead :=
  match _h : readSome 1 as with
  | .endOfFile => if line = [] then .endOfStream else .line (decode line) []
  | .failed => .ioError
  | .data value _ later =>
    if value = 10 then .line (decode (stripCr line)) later
    else if controlLineLimit ≤ line.length then .tooLong
    else readAsciiLine (line ++ [value]) later
termination_by (received as).length
decreasing_by
  rw [(readSome_data _h).2, List.length_append, List.length_cons]
  omega

theorem readAsciiLine_consumes {line : List UInt8} (h : readAsciiLine line as = .line text later) :
    (received later).length < (received as).length + line.length := by
  fun_induction readAsciiLine line as with
  | case1 => cases h
  | case2 line as hread hne =>
    cases h
    have hpos := List.length_pos_iff.mpr hne
    simp only [received, List.length_nil]
    omega
  | case3 => cases h
  | case4 line as rest later' hread =>
    cases h
    rw [(readSome_data hread).2, List.length_append, List.length_cons]
    omega
  | case5 => cases h
  | case6 line as value rest later' hread hvalue hroom ih =>
    have hlt := ih h
    rw [(readSome_data hread).2, List.length_append, List.length_cons]
    simp only [List.length_append, List.length_cons, List.length_nil] at hlt
    omega

theorem readAsciiLine_of_received (front : List UInt8) {back : List UInt8}
    (h : received as = back ++ 10 :: rest) (hnewline : 10 ∉ back)
    (hfits : front.length + back.length ≤ controlLineLimit) :
    ∃ later, readAsciiLine front as = .line (decode (stripCr (front ++ back))) later ∧
      received later = rest := by
  induction back generalizing front as with
  | nil =>
    obtain ⟨later, hread, hrec⟩ := readSome_one h
    refine ⟨later, ?_, hrec⟩
    rw [readAsciiLine]
    split
    all_goals rename_i heq; rw [hread] at heq; cases heq
    rw [if_pos rfl, List.append_nil]
  | cons b back ih =>
    obtain ⟨later, hread, hrec⟩ := readSome_one (by rw [h, List.cons_append])
    obtain ⟨hb, hback⟩ := not_or.mp (mt List.mem_cons.mpr hnewline)
    rw [List.length_cons] at hfits
    obtain ⟨later', hrest, hrec'⟩ := ih (front ++ [b]) hrec hback
      (by rw [List.length_append, List.length_singleton]; omega)
    refine ⟨later', ?_, hrec'⟩
    rw [readAsciiLine]
    split
    all_goals rename_i heq; rw [hread] at heq; cases heq
    rw [if_neg (fun heq => hb heq.symm), if_neg (by omega), hrest, List.append_assoc]
    rfl

/-- The loop of `receiveAndInstallApk`. -/
def receiveApk (remaining : Nat) (as : List Arrival) (disk : List Bool) :
    Except String (List UInt8 × List Arrival × List Bool) :=
  if _h : remaining = 0 then .ok ([], as, disk)
  else
    match readSome (min apkBufferBytes remaining) as with
    | .endOfFile => .error "APK transfer ended early"
    | .failed => .error "could not receive APK"
    | .data b bs later =>
      if disk.headD true then
        match receiveApk (remaining - (bs.length + 1)) later disk.tail with
        | .error message => .error message
        | .ok (data, later, disk) => .ok (b :: bs ++ data, later, disk)
      else .error "could not receive APK"
termination_by remaining

def receiveAndInstallApk (byteCount : Nat) (as : List Arrival) (disk : List Bool) :
    Except String (List UInt8 × List Arrival × List Bool) :=
  if disk.headD true then
    match receiveApk byteCount as disk.tail with
    | .error message => .error message
    | .ok (apk, later, disk) =>
      if disk.headD true then .ok (apk, later, disk.tail) else .error "could not receive APK"
  else .error "could not receive APK"

theorem receiveApk_ok {remaining : Nat} {data : List UInt8}
    (h : receiveApk remaining as disk = .ok (data, later, disk')) :
    data.length = remaining ∧ received as = data ++ received later ∧ disk' ⊆ disk := by
  fun_induction receiveApk remaining as disk generalizing data later disk' with
  | case1 as disk => cases h; exact ⟨rfl, rfl, List.Subset.refl _⟩
  | case2 | case3 => cases h
  | case4 => cases h
  | case5 remaining as disk hne b bs later₁ hread hdisk data₁ later₂ disk₁ hrest ih =>
    cases h
    obtain ⟨hlen, hrec⟩ := readSome_data hread
    obtain ⟨hdata, hrec₁, hsub⟩ := ih hrest
    refine ⟨?_, ?_, List.Subset.trans hsub fun _ => List.mem_of_mem_tail⟩
    · simp only [List.length_append, List.length_cons]
      omega
    · rw [hrec, hrec₁, List.append_assoc]
  | case6 => cases h

theorem headD_of_forall (h : ∀ ok ∈ disk, ok = true) : disk.headD true = true := by
  cases disk with
  | nil => rfl
  | cons ok disk => exact h ok List.mem_cons_self

theorem receiveApk_isOk {remaining : Nat} (h : remaining ≤ (received as).length)
    (hdisk : ∀ ok ∈ disk, ok = true) : ∃ r, receiveApk remaining as disk = .ok r := by
  fun_induction receiveApk remaining as disk with
  | case1 => exact ⟨_, rfl⟩
  | case2 remaining as disk hne hread | case3 remaining as disk hne hread =>
    have hrec : received as ≠ [] := List.length_pos_iff.mp (by omega)
    obtain ⟨b, bs, later, hdata⟩ := readSome_of_received _ hrec
    rw [hread] at hdata
    cases hdata
  | case4 remaining as disk hne b bs later hread hhead message hrest ih =>
    have hrec := congrArg List.length (readSome_data hread).2
    simp only [List.length_append, List.length_cons] at hrec
    obtain ⟨r, hok⟩ := ih (by omega) fun ok hok => hdisk ok (List.mem_of_mem_tail hok)
    rw [hrest] at hok
    cases hok
  | case5 => exact ⟨_, rfl⟩
  | case6 remaining as disk hne b bs later hread hhead =>
    exact absurd (headD_of_forall hdisk) hhead

theorem receiveApk_of_received {data : List UInt8} (h : received as = data ++ rest)
    (hdisk : ∀ ok ∈ disk, ok = true) :
    ∃ later disk', receiveApk data.length as disk = .ok (data, later, disk') ∧
      received later = rest ∧ disk' ⊆ disk := by
  have hle : data.length ≤ (received as).length := by rw [h, List.length_append]; omega
  obtain ⟨⟨data', later, disk'⟩, hok⟩ := receiveApk_isOk hle hdisk
  obtain ⟨hlen, hrec, hsub⟩ := receiveApk_ok hok
  obtain ⟨rfl, rfl⟩ := List.append_inj (h.symm.trans hrec) hlen.symm
  exact ⟨later, disk', hok, rfl, hsub⟩

inductive Event where
  | handshake
  | request (id text : JavaString)
  | install (id : JavaString) (apk : List UInt8)
  deriving DecidableEq, Repr

inductive Handled where
  | next (event : Option Event) (later : List Arrival) (disk : List Bool)
  /-- A `ControlStreamException`. -/
  | raised (message : String)
  deriving DecidableEq, Repr

def handleControlLine (line : JavaString) (as : List Arrival) (disk : List Bool) : Handled :=
  if line = [] then .next none as disk
  else if line = "v".toList then .next (some .handshake) as disk
  else
    match Lines.next ' ' line with
    | none | some ([], _) => .next none as disk
    | some (id, text) =>
      match dispatch (split text) with
      | .install byteCount =>
        match receiveAndInstallApk byteCount as disk with
        | .error message => .raised message
        | .ok (apk, later, disk) => .next (some (.install id apk)) later disk
      | .invalid message => .raised message
      | _ => .next (some (.request id text)) as disk

theorem receiveAndInstallApk_ok {byteCount : Nat}
    (h : receiveAndInstallApk byteCount as disk = .ok (apk, later, disk')) :
    received as = apk ++ received later := by
  unfold receiveAndInstallApk at h
  split at h
  · split at h
    · cases h
    · rename_i hok
      split at h <;> cases h
      exact (receiveApk_ok hok).2.1
  · cases h

theorem handleControlLine_consumes {line : JavaString} {event : Option Event}
    (h : handleControlLine line as disk = .next event later disk') :
    (received later).length ≤ (received as).length := by
  unfold handleControlLine at h
  split at h
  · cases h; exact Nat.le_refl _
  · split at h
    · cases h; exact Nat.le_refl _
    · split at h
      · cases h; exact Nat.le_refl _
      · cases h; exact Nat.le_refl _
      · split at h
        · split at h <;> cases h
          rename_i hok
          rw [receiveAndInstallApk_ok hok, List.length_append]
          omega
        · cases h
        · cases h; exact Nat.le_refl _

theorem receiveAndInstallApk_of_received (h : received as = apk ++ rest)
    (hdisk : ∀ ok ∈ disk, ok = true) :
    ∃ later disk', receiveAndInstallApk apk.length as disk = .ok (apk, later, disk') ∧
      received later = rest ∧ disk' ⊆ disk := by
  have htail : ∀ ok ∈ disk.tail, ok = true := fun ok hok => hdisk ok (List.mem_of_mem_tail hok)
  obtain ⟨later, disk', hok, hrec, hsub⟩ := receiveApk_of_received h htail
  have hdisk' : ∀ ok ∈ disk', ok = true := fun ok hmem => htail ok (hsub hmem)
  refine ⟨later, disk'.tail, ?_, hrec, ?_⟩
  · rw [receiveAndInstallApk, if_pos (headD_of_forall hdisk), hok]
    simp only [headD_of_forall hdisk', if_true]
  · exact fun ok hmem => List.mem_of_mem_tail (hsub (List.mem_of_mem_tail hmem))

theorem handleControlLine_append (hne : id ≠ []) (hspace : ' ' ∉ id) (text : JavaString)
    (as : List Arrival) (disk : List Bool) :
    handleControlLine (id ++ ' ' :: text) as disk =
      match dispatch (split text) with
      | .install byteCount =>
        match receiveAndInstallApk byteCount as disk with
        | .error message => .raised message
        | .ok (apk, later, disk) => .next (some (.install id apk)) later disk
      | .invalid message => .raised message
      | _ => .next (some (.request id text)) as disk := by
  have hnil : id ++ ' ' :: text ≠ [] := List.append_ne_nil_of_left_ne_nil hne _
  have hv : id ++ ' ' :: text ≠ "v".toList := by
    intro heq
    have hmem : ' ' ∈ "v".toList := heq ▸ List.mem_append_right id List.mem_cons_self
    exact absurd hmem (by decide)
  rw [handleControlLine, if_neg hnil, if_neg hv, Lines.next_append_cons hspace]
  cases id with
  | nil => exact absurd rfl hne
  | cons c id => rfl

theorem handleControlLine_request (hne : id ≠ []) (hspace : ' ' ∉ id)
    (htext : ∀ field, split text ≠ ["install".toList, field]) (as : List Arrival) (disk : List Bool) :
    handleControlLine (id ++ ' ' :: text) as disk = .next (some (.request id text)) as disk := by
  have hmode := inLineMode_dispatch htext
  rw [handleControlLine_append hne hspace]
  split
  · rename_i heq
    rw [heq] at hmode
    exact hmode.elim
  · rename_i heq
    rw [heq] at hmode
    exact hmode.elim
  · rfl

theorem handleControlLine_install {digits : JavaString} (hne : id ≠ []) (hspace : ' ' ∉ id)
    (hdigits : digits ≠ []) (hall : ∀ c ∈ digits, Decimal.isDigit c.toNat = true)
    (hvalue : Decimal.value (digits.map Char.toNat) = apk.length) (hpos : 0 < apk.length)
    (hmax : (apk.length : Int) ≤ maxApkBytes) (h : received as = apk ++ rest)
    (hdisk : ∀ ok ∈ disk, ok = true) :
    ∃ later disk', handleControlLine (id ++ ' ' :: ("install".toList ++ ' ' :: digits)) as disk =
        .next (some (.install id apk)) later disk' ∧ received later = rest ∧ disk' ⊆ disk := by
  have hblank : ' ' ∉ digits := fun hmem => absurd (hall ' ' hmem) (by decide)
  have hlong : parseLong digits = some (apk.length : Int) := by
    rw [← hvalue]
    apply parseLong_of_digits hdigits hall
    rw [hvalue]
    simp only [maxApkBytes] at hmax
    omega
  have hdispatch : dispatch ["install".toList, digits] = .install apk.length := by
    rw [dispatch, if_neg (by decide), if_neg (by decide), if_pos rfl, installRequest, hlong]
    simp only [Int.toNat_natCast]
    rw [if_neg (by omega)]
  obtain ⟨later, disk', hok, hrec, hsub⟩ := receiveAndInstallApk_of_received h hdisk
  refine ⟨later, disk', ?_, hrec, hsub⟩
  rw [handleControlLine_append hne hspace, split_two (by decide) hblank hdigits, hdispatch]
  simp only [hok]

inductive Ending where
  | endOfStream
  | ioError
  | controlStream (message : String)
  deriving DecidableEq, Repr

structure Session where
  events : List Event
  ending : Ending
  deriving DecidableEq, Repr

/-- `handleControl`. -/
def handleControl (as : List Arrival) (disk : List Bool) : Session :=
  match _hline : readAsciiLine [] as with
  | .endOfStream => ⟨[], .endOfStream⟩
  | .ioError => ⟨[], .ioError⟩
  | .tooLong => ⟨[], .controlStream "control request line is too long"⟩
  | .line text later =>
    match _hnext : handleControlLine text later disk with
    | .raised message => ⟨[], .controlStream message⟩
    | .next event later disk =>
      let session := handleControl later disk
      { session with events := event.toList ++ session.events }
termination_by (received as).length
decreasing_by
  have hline := readAsciiLine_consumes _hline
  have hnext := handleControlLine_consumes _hnext
  rw [List.length_nil] at hline
  omega

theorem handleControl_of_line {later' : List Arrival} {event : Option Event}
    (hline : readAsciiLine [] as = .line text later)
    (hnext : handleControlLine text later disk = .next event later' disk') :
    (handleControl as disk).events = event.toList ++ (handleControl later' disk').events := by
  rw [handleControl]
  split
  all_goals rename_i heq; rw [hline] at heq; cases heq
  split
  all_goals rename_i heq; rw [hnext] at heq; cases heq
  rfl

theorem handleControl_of_nothing (h : received as = []) (disk : List Bool) :
    (handleControl as disk).events = [] := by
  have hread : readSome 1 as = .endOfFile ∨ readSome 1 as = .failed := by
    cases hread : readSome 1 as with
    | endOfFile => exact .inl rfl
    | failed => exact .inr rfl
    | data b bs later =>
      have hrec := (readSome_data hread).2
      rw [h] at hrec
      cases hrec
  have hline : readAsciiLine [] as = .endOfStream ∨ readAsciiLine [] as = .ioError := by
    rw [readAsciiLine]
    split
    · exact .inl rfl
    · exact .inr rfl
    · rename_i heq
      rcases hread with hread | hread <;> rw [hread] at heq <;> cases heq
  rw [handleControl]
  split
  · rfl
  · rfl
  · rfl
  · rename_i heq
    rcases hline with hline | hline <;> rw [hline] at heq <;> cases heq

end Agent
end MacMu
