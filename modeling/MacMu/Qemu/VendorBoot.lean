import MacMu.Lib.LittleEndian
import MacMu.Lib.Slice

/-!
The ramdisk that the emulator takes out of a `vendor_boot` image. All sizes come
from 32-bit fields of the image; the sums and differences are those of 64-bit
numbers, and one that wraps ends the call without a result here. The paths are
given, the file stays as it is, and no read, write or close fails: a read returns
all that is asked for up to the end of the file.
-/

namespace MacMu
namespace VendorBoot

open LittleEndian Slice

inductive Errno where
  | einval | efbig | eio
  deriving DecidableEq, Repr

def uint64Max : Nat := 2 ^ 64 - 1

def longMax : Nat := 2 ^ 63 - 1

def add (a b : Nat) : Option Nat := if a + b ≤ uint64Max then some (a + b) else none

def sub (a b : Nat) : Option Nat := if b ≤ a then some (a - b) else none

def readLe32 (header : List UInt8) (offset : Nat) : Nat := decode (readAt header offset 4)

/-- The inner `none` is the result `false`. -/
def roundUpToMultiple (value multiple : Nat) : Option (Option Nat) := do
  if multiple = 0 then return none
  let remainder := value % multiple
  if remainder = 0 then return some value
  let delta ← sub multiple remainder
  let limit ← sub uint64Max delta
  if limit < value then return none
  let rounded ← add value delta
  return some rounded

def bufferSize : Nat := 64 * 1024

/-- The loop of `appendFileRangeToStream`; `input` is what is left to read of the
file, and `out` what has been written. -/
def copyBlocks (input : List UInt8) (remaining : Nat) (out : List UInt8) :
    Option (Option Errno × List UInt8) :=
  if remaining = 0 then some (none, out)
  else
    let block := input.take (min remaining bufferSize)
    if _hblock : block = [] then some (some .eio, out)
    else
      match _hleft : sub remaining block.length with
      | none => none
      | some left => copyBlocks (input.drop block.length) left (out ++ block)
termination_by remaining
decreasing_by
  have hpos := List.length_pos_iff.mpr _hblock
  unfold sub at _hleft
  split at _hleft <;> cases _hleft
  omega

def appendFileRangeToStream (file : List UInt8) (offset bytes : Nat) :
    Option (Option Errno × List UInt8) :=
  if longMax < offset then some (some .efbig, []) else copyBlocks (file.drop offset) bytes []

def kVendorBootMagic : List UInt8 := [0x56, 0x4e, 0x44, 0x52, 0x42, 0x4f, 0x4f, 0x54]

def kVendorBootV3HeaderSize : Nat := 2112

def kVendorBootV4HeaderSize : Nat := 2128

def kHeaderVersionOffset : Nat := 8

def kPageSizeOffset : Nat := 12

def kVendorRamdiskSizeOffset : Nat := 24

def kHeaderSizeOffset : Nat := 2096

def minimumHeaderSize (headerVersion : Nat) : Nat :=
  if 4 ≤ headerVersion then kVendorBootV4HeaderSize else kVendorBootV3HeaderSize

/-- The error if there is one, and the output file if it has been opened. -/
abbrev Extraction := Option Errno × Option (List UInt8)

def extractVendorBootRamdisk (file : List UInt8) : Option Extraction := do
  let readBytes := min file.length kVendorBootV4HeaderSize
  -- the buffer is cleared before the read
  let header := file.take readBytes ++ List.replicate (kVendorBootV4HeaderSize - readBytes) 0
  if readBytes < kVendorBootV3HeaderSize then return (some .einval, none)
  if readAt header 0 8 ≠ kVendorBootMagic then return (some .einval, none)
  let headerVersion := readLe32 header kHeaderVersionOffset
  let pageSize := readLe32 header kPageSizeOffset
  let vendorRamdiskSize := readLe32 header kVendorRamdiskSizeOffset
  let headerSize := readLe32 header kHeaderSizeOffset
  if headerVersion < 3 ∨ readBytes < minimumHeaderSize headerVersion ∨ pageSize = 0 ∨
      vendorRamdiskSize = 0 ∨ headerSize < minimumHeaderSize headerVersion then
    return (some .einval, none)
  match ← roundUpToMultiple headerSize pageSize with
  | none => return (some .einval, none)
  | some vendorRamdiskOffset =>
    let vendorBootSize := file.length
    if vendorBootSize < vendorRamdiskOffset then return (some .einval, none)
    let room ← sub vendorBootSize vendorRamdiskOffset
    if room < vendorRamdiskSize then return (some .einval, none)
    let (result, out) ← appendFileRangeToStream file vendorRamdiskOffset vendorRamdiskSize
    return (result, some out)

theorem readLe32_lt (header : List UInt8) (offset : Nat) : readLe32 header offset < 2 ^ 32 := by
  have hlength : (readAt header offset 4).length ≤ 4 := List.length_take_le 4 _
  calc readLe32 header offset < 256 ^ (readAt header offset 4).length := decode_lt _
    _ ≤ 256 ^ 4 := Nat.pow_le_pow_right (by decide) hlength
    _ = 2 ^ 32 := by decide

def roundUp (value multiple : Nat) : Nat := (value + multiple - 1) / multiple * multiple

theorem roundUpToMultiple_eq {value multiple : Nat} (hvalue : value < 2 ^ 32)
    (hpos : multiple ≠ 0) (hmultiple : multiple < 2 ^ 32) :
    roundUpToMultiple value multiple = some (some (roundUp value multiple)) := by
  have hdiv := Nat.div_add_mod' value multiple
  have hmod := Nat.mod_lt value (Nat.pos_of_ne_zero hpos)
  by_cases hzero : value % multiple = 0
  · have hround : (value + multiple - 1) / multiple = value / multiple :=
      Nat.div_eq_of_lt_le (by omega) (by rw [Nat.succ_mul]; omega)
    simp only [roundUpToMultiple, roundUp, hpos, hzero, hround, if_true, if_false]
    rw [show value / multiple * multiple = value by omega]
    rfl
  · have hround : (value + multiple - 1) / multiple = value / multiple + 1 :=
      Nat.div_eq_of_lt_le (by rw [Nat.succ_mul]; omega) (by rw [Nat.succ_mul, Nat.succ_mul]; omega)
    have hdelta : sub multiple (value % multiple) = some (multiple - value % multiple) :=
      if_pos hmod.le
    have hlimit : sub uint64Max (multiple - value % multiple) =
        some (uint64Max - (multiple - value % multiple)) :=
      if_pos (by unfold uint64Max; omega)
    have hroom : ¬uint64Max - (multiple - value % multiple) < value := by
      unfold uint64Max
      omega
    have hsum : add value (multiple - value % multiple) =
        some (value + (multiple - value % multiple)) :=
      if_pos (by unfold uint64Max; omega)
    simp only [roundUpToMultiple, roundUp, hpos, hzero, hround, hdelta, hlimit, hroom, hsum,
      if_false, Option.bind_eq_bind, Option.bind_some]
    rw [show value + (multiple - value % multiple) = (value / multiple + 1) * multiple by
      rw [Nat.succ_mul]; omega]
    rfl

/-- Each block that is read and written leaves that much less to copy. -/
theorem copyBlocks_eq (input : List UInt8) (remaining : Nat) (out : List UInt8)
    (h : remaining ≤ input.length) :
    copyBlocks input remaining out = some (none, out ++ input.take remaining) := by
  fun_induction copyBlocks input remaining out with
  | case1 => simp
  | case2 input remaining out hremaining block hblock =>
    have hlength : block.length = 0 := by rw [hblock, List.length_nil]
    rw [List.length_take] at hlength
    simp only [bufferSize] at hlength
    omega
  | case3 input remaining out hremaining block hblock hleft =>
    have hlength : block.length ≤ remaining :=
      (List.length_take_le _ _).trans (Nat.min_le_left _ _)
    rw [sub, if_pos hlength] at hleft
    cases hleft
  | case4 input remaining out hremaining block hblock left hleft ih =>
    have hlength : block.length = min remaining bufferSize := by
      rw [List.length_take]
      omega
    have hle : block.length ≤ remaining := hlength ▸ Nat.min_le_left _ _
    rw [sub, if_pos hle] at hleft
    cases hleft
    have hsplit : input.take remaining =
        block ++ (input.drop block.length).take (remaining - block.length) := by
      have hblockTake : block = input.take block.length := by rw [hlength]
      rw [← List.take_append_drop block.length (input.take remaining), List.take_take,
        Nat.min_eq_left hle, List.drop_take, ← hblockTake]
    rw [ih (by rw [List.length_drop]; omega), hsplit, List.append_assoc]

structure Extractable (file : List UInt8) : Prop where
  magic : readAt file 0 8 = kVendorBootMagic
  version : 3 ≤ readLe32 file kHeaderVersionOffset
  header : minimumHeaderSize (readLe32 file kHeaderVersionOffset) ≤ file.length
  pageSize : readLe32 file kPageSizeOffset ≠ 0
  ramdiskSize : readLe32 file kVendorRamdiskSizeOffset ≠ 0
  headerSize : minimumHeaderSize (readLe32 file kHeaderVersionOffset) ≤
    readLe32 file kHeaderSizeOffset
  range : roundUp (readLe32 file kHeaderSizeOffset) (readLe32 file kPageSizeOffset) +
    readLe32 file kVendorRamdiskSizeOffset ≤ file.length

theorem readAt_buffer {file : List UInt8} {size offset width : Nat} (tail : List UInt8)
    (h : offset + width ≤ min file.length size) :
    readAt (file.take (min file.length size) ++ tail) offset width = readAt file offset width := by
  have htake : (file.take (min file.length size)).length = min file.length size := by
    rw [List.length_take]
    omega
  rw [readAt, List.drop_append_of_le_length (by omega),
    List.take_append_of_le_length (by rw [List.length_drop]; omega), List.drop_take,
    List.take_take, Nat.min_eq_left (by omega), readAt]

theorem minimumHeaderSize_bounds (version : Nat) :
    kVendorBootV3HeaderSize ≤ minimumHeaderSize version ∧
      minimumHeaderSize version ≤ kVendorBootV4HeaderSize := by
  unfold minimumHeaderSize
  split <;> decide

/-- The call returns, and it returns without an error for the images above only;
then the output is the range of the ramdisk. -/
def Extracts (file : List UInt8) (call : Option Extraction) : Prop :=
  ∃ result output, call = some (result, output) ∧ (result = none ↔ Extractable file) ∧
    (result = none → output = some (readAt file
      (roundUp (readLe32 file kHeaderSizeOffset) (readLe32 file kPageSizeOffset))
      (readLe32 file kVendorRamdiskSizeOffset)))

theorem extracts_error {file : List UInt8} {error : Errno} (h : ¬Extractable file) :
    Extracts file (some (some error, none)) :=
  ⟨some error, none, rfl, iff_of_false nofun h, nofun⟩

theorem extractVendorBootRamdisk_spec (file : List UInt8) (hsize : file.length < 2 ^ 63) :
    Extracts file (extractVendorBootRamdisk file) := by
  unfold extractVendorBootRamdisk
  by_cases hshort : min file.length kVendorBootV4HeaderSize < kVendorBootV3HeaderSize
  · rw [if_pos hshort]
    refine extracts_error fun h => ?_
    have hheader := (minimumHeaderSize_bounds _).1.trans h.header
    simp only [kVendorBootV3HeaderSize, kVendorBootV4HeaderSize] at hshort hheader
    omega
  have hfield (offset : Nat) (h : offset + 4 ≤ kVendorBootV3HeaderSize) :
      readLe32 (file.take (min file.length kVendorBootV4HeaderSize) ++ List.replicate
        (kVendorBootV4HeaderSize - min file.length kVendorBootV4HeaderSize) 0) offset =
      readLe32 file offset := by
    rw [readLe32, readAt_buffer _ (by omega), readLe32]
  rw [if_neg hshort, readAt_buffer _ ((by decide : 0 + 8 ≤ kVendorBootV3HeaderSize).trans
    (Nat.le_of_not_lt hshort)), hfield kHeaderVersionOffset (by decide),
    hfield kPageSizeOffset (by decide), hfield kVendorRamdiskSizeOffset (by decide),
    hfield kHeaderSizeOffset (by decide)]
  dsimp only
  have hversion := readLe32_lt file kHeaderVersionOffset
  have hpage := readLe32_lt file kPageSizeOffset
  have hheader := readLe32_lt file kHeaderSizeOffset
  by_cases hmagic : readAt file 0 8 = kVendorBootMagic
  case neg =>
    rw [if_pos hmagic]
    exact extracts_error fun h => hmagic h.magic
  rw [if_neg (not_not.mpr hmagic)]
  split
  case isTrue hfields =>
    refine extracts_error fun h => ?_
    obtain ⟨-, hv, hfull, hp, hr, hh, -⟩ := h
    have hbuffer := (minimumHeaderSize_bounds (readLe32 file kHeaderVersionOffset)).2
    omega
  case isFalse hfields =>
    obtain ⟨hv, hfull, hp, hr, hh⟩ : 3 ≤ readLe32 file kHeaderVersionOffset ∧
        minimumHeaderSize (readLe32 file kHeaderVersionOffset) ≤
          min file.length kVendorBootV4HeaderSize ∧ readLe32 file kPageSizeOffset ≠ 0 ∧
        readLe32 file kVendorRamdiskSizeOffset ≠ 0 ∧
        minimumHeaderSize (readLe32 file kHeaderVersionOffset) ≤
          readLe32 file kHeaderSizeOffset := by
      omega
    rw [roundUpToMultiple_eq hheader hp hpage]
    simp only [Option.bind_eq_bind, Option.bind_some]
    generalize hoffset : roundUp (readLe32 file kHeaderSizeOffset)
      (readLe32 file kPageSizeOffset) = offset
    by_cases hinside : offset + readLe32 file kVendorRamdiskSizeOffset ≤ file.length
    case neg =>
      have houtside : ¬Extractable file := fun h => hinside (hoffset ▸ h.range)
      split
      · exact extracts_error houtside
      · rw [sub, if_pos (by omega), Option.bind_some, if_pos (by omega)]
        exact extracts_error houtside
    case pos =>
      have hdrop : readLe32 file kVendorRamdiskSizeOffset ≤ (file.drop offset).length := by
        rw [List.length_drop]
        omega
      rw [if_neg (by omega), sub, if_pos (by omega), Option.bind_some, if_neg (by omega),
        appendFileRangeToStream, if_neg (by unfold longMax; omega), copyBlocks_eq _ _ _ hdrop]
      have hextractable : Extractable file :=
        ⟨hmagic, hv, hfull.trans (Nat.min_le_left _ _), hp, hr, hh, hoffset ▸ hinside⟩
      exact ⟨none, _, rfl, iff_of_true rfl hextractable, fun _ => by rw [hoffset]; rfl⟩

/-- A version 3 image of one page, with a ramdisk of three bytes after it. -/
def smallImage : List UInt8 :=
  kVendorBootMagic ++ [3, 0, 0, 0] ++ [0, 16, 0, 0] ++ List.replicate 8 0 ++ [3, 0, 0, 0] ++
    List.replicate 2068 0 ++ [64, 8, 0, 0] ++ List.replicate 1996 0 ++ [7, 8, 9]

theorem extractVendorBootRamdisk_smallImage :
    Extractable smallImage ∧ readAt smallImage 4096 3 = [7, 8, 9] ∧
      Extracts smallImage (extractVendorBootRamdisk smallImage) :=
  ⟨⟨by decide +kernel, by decide +kernel, by decide +kernel, by decide +kernel,
    by decide +kernel, by decide +kernel, by decide +kernel⟩, by decide +kernel,
    extractVendorBootRamdisk_spec smallImage (by decide +kernel)⟩

end VendorBoot
end MacMu
