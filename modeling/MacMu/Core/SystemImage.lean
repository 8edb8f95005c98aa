import MacMu.Lib.LittleEndian
import MacMu.Lib.Slice

/-!
How the installer tells a complete system image: nine files have to be there, and
the metadata disk is a GPT disk whose first partition is named `metadata` and
holds an ext4 file system with that label. The offsets of the disk stay below its
size, so the 64-bit sums do not wrap. Reading a file does not fail here.
-/

namespace MacMu
namespace SystemImage

open LittleEndian Slice

abbrev Bytes := List UInt8

def kDiskSectorSize : Nat := 512

def kGptHeaderOffset : Nat := kDiskSectorSize

def kGptFirstEntryOffset : Nat := 2 * kDiskSectorSize

def kGptEntrySize : Nat := 128

def kGptFirstLbaOffset : Nat := 32

def kGptLastLbaOffset : Nat := 40

def kGptPartitionNameOffset : Nat := 56

def kExt4SuperblockOffset : Nat := 1024

def kExt4MagicOffset : Nat := 56

def kExt4VolumeNameOffset : Nat := 120

def efiPart : Bytes := [0x45, 0x46, 0x49, 0x20, 0x50, 0x41, 0x52, 0x54]

def metadataText : Bytes := [0x6d, 0x65, 0x74, 0x61, 0x64, 0x61, 0x74, 0x61]

def ext4Magic : Bytes := [0x53, 0xef]

def utf16le (text : Bytes) : Bytes := text.flatMap fun byte => [byte, 0]

def hasUtf16leName (bytes expected : Bytes) : Bool :=
  if bytes.length < (expected.length + 1) * 2 then false
  else
    readAt bytes 0 (expected.length * 2) == utf16le expected &&
      readAt bytes (expected.length * 2) 2 == [0, 0]

/-- The end of `metadata_disk_exists`: the superblock is that of the metadata. -/
def holdsMetadata (bytes : Bytes) (superblockOffset : Nat) : Bool :=
  if bytes.length < superblockOffset + kExt4VolumeNameOffset + 16 then false
  else if readExactAt bytes (superblockOffset + kExt4MagicOffset) 2 ≠ some ext4Magic then false
  else
    match readExactAt bytes (superblockOffset + kExt4VolumeNameOffset) 16 with
    | none => false
    | some volumeName => readAt volumeName 0 8 == metadataText && readAt volumeName 8 1 == [0]

/-- `metadata_disk_exists` on the content of a regular file. -/
def metadataDisk (bytes : Bytes) : Bool :=
  let fileSize := bytes.length
  if fileSize < 2 * 1024 * 1024 then false
  else if readExactAt bytes kGptHeaderOffset 8 ≠ some efiPart then false
  else
    match readExactAt bytes kGptFirstEntryOffset kGptEntrySize with
    | none => false
    | some entry =>
      let firstLba := decode (readAt entry kGptFirstLbaOffset 8)
      let lastLba := decode (readAt entry kGptLastLbaOffset 8)
      if firstLba = 0 ∨ lastLba < firstLba ∨ fileSize / kDiskSectorSize ≤ firstLba ∨
          fileSize / kDiskSectorSize ≤ lastLba ∨
          hasUtf16leName (entry.drop kGptPartitionNameOffset) metadataText = false then false
      else
        let partitionOffset := firstLba * kDiskSectorSize
        holdsMetadata bytes (partitionOffset + kExt4SuperblockOffset)

def kRequiredFiles : List String :=
  ["advancedFeatures.ini", "android-info.txt", "VerifiedBootParams.textproto", "kernel-ranchu",
    "ramdisk.img", "system-qemu.img", "userdata.img", "vendor-qemu.img", "vendor_boot.img"]

def kMetadataDisk : String := "encryptionkey.img"

/-- `system_image_exists_at`; `file` is what a name leads to if that is a regular
file, and `isDisk` tells a metadata disk by its content. -/
def systemImageExistsAt {α : Type} (isDisk : α → Bool) (file : String → Option α) : Bool :=
  kRequiredFiles.all (fun name => (file name).isSome) && (file kMetadataDisk).any isDisk

end SystemImage
end MacMu
