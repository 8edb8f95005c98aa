import MacMu.Lib.LittleEndian

/-!
The MMCP wire vocabulary of `shell/protocol/macmu_control_protocol.h`: the
constants, the message types and the packed little-endian payloads the shell
and the QEMU receiver exchange. A payload decoder reads the leading bytes of a
buffer, as `memcpy` does; the callers check the size first.
-/

namespace MacMu
namespace ControlProtocol

def kControlProtocolMagic : UInt32 := 0x4d4d4350
def kControlProtocolVersion : UInt16 := 1
def kControlMaxPayload : Nat := 64 * 1024

inductive ControlMessageType where
  | kHello | kPing | kDisplayAdd | kDisplayRemove | kDisplayList | kDisplayStream
  | kHelloAck | kPong | kDisplayAddOk | kDisplayRemoveOk | kDisplayListOk
  | kDisplayStreamOk | kError
  | kEventDisplay | kEventBoot
  deriving DecidableEq, Repr

namespace ControlMessageType

def code : ControlMessageType → UInt16
  | kHello => 0x0001
  | kPing => 0x0002
  | kDisplayAdd => 0x0010
  | kDisplayRemove => 0x0011
  | kDisplayList => 0x0012
  | kDisplayStream => 0x0013
  | kHelloAck => 0x0101
  | kPong => 0x0102
  | kDisplayAddOk => 0x0110
  | kDisplayRemoveOk => 0x0111
  | kDisplayListOk => 0x0112
  | kDisplayStreamOk => 0x0113
  | kError => 0x01FF
  | kEventDisplay => 0x0201
  | kEventBoot => 0x0202

end ControlMessageType

def kControlErrUnsupported : Int32 := 1
def kControlErrInvalidArgument : Int32 := 2
def kControlErrRejected : Int32 := 3
def kControlErrNotReady : Int32 := 4
def kControlErrInternal : Int32 := 5

def kControlDisplayAdded : UInt32 := 1
def kControlDisplayChanged : UInt32 := 2
def kControlDisplayRemoved : UInt32 := 3

def kControlDisplayIdAuto : UInt32 := 0xFFFFFFFF

def u16Bytes (v : UInt16) : List UInt8 := LittleEndian.encode 2 v.toNat

def u32Bytes (v : UInt32) : List UInt8 := LittleEndian.encode 4 v.toNat

def u16At (buffer : List UInt8) (offset : Nat) : UInt16 :=
  UInt16.ofNat (LittleEndian.decode ((buffer.drop offset).take 2))

def u32At (buffer : List UInt8) (offset : Nat) : UInt32 :=
  UInt32.ofNat (LittleEndian.decode ((buffer.drop offset).take 4))

@[simp] theorem length_u16Bytes (v : UInt16) : (u16Bytes v).length = 2 :=
  LittleEndian.length_encode 2 _

@[simp] theorem length_u32Bytes (v : UInt32) : (u32Bytes v).length = 4 :=
  LittleEndian.length_encode 4 _

theorem u16At_append (before : List UInt8) {offset : Nat} (h : before.length = offset)
    (v : UInt16) (after : List UInt8) :
    u16At (before ++ (u16Bytes v ++ after)) offset = v := by
  subst h
  have hv : v.toNat < 256 ^ 2 := UInt16.toNat_lt v
  have ht : (u16Bytes v ++ after).take 2 = u16Bytes v := by
    rw [List.take_append_of_le_length (by simp), List.take_of_length_le (by simp)]
  rw [u16At, List.drop_left, ht, u16Bytes, LittleEndian.decode_encode hv]
  exact UInt16.ofNat_toNat

theorem u32At_append (before : List UInt8) {offset : Nat} (h : before.length = offset)
    (v : UInt32) (after : List UInt8) :
    u32At (before ++ (u32Bytes v ++ after)) offset = v := by
  subst h
  have hv : v.toNat < 256 ^ 4 := UInt32.toNat_lt v
  have ht : (u32Bytes v ++ after).take 4 = u32Bytes v := by
    rw [List.take_append_of_le_length (by simp), List.take_of_length_le (by simp)]
  rw [u32At, List.drop_left, ht, u32Bytes, LittleEndian.decode_encode hv]
  exact UInt32.ofNat_toNat

def words (fields : List UInt32) : List UInt8 := fields.flatMap u32Bytes

@[simp] theorem length_words (fields : List UInt32) :
    (words fields).length = 4 * fields.length := by
  induction fields with
  | nil => rfl
  | cons v fields ih =>
    simp only [words, List.flatMap_cons, List.length_append, length_u32Bytes,
      List.length_cons] at ih ⊢
    omega

theorem u32At_words (fields after : List UInt32) (v : UInt32) (tail : List UInt8) :
    u32At (words (fields ++ v :: after) ++ tail) (4 * fields.length) = v := by
  have hsplit : words (fields ++ v :: after) ++ tail =
      words fields ++ (u32Bytes v ++ (words after ++ tail)) := by
    simp [words]
  rw [hsplit]
  exact u32At_append (words fields) (length_words fields) v _

structure ControlFrameHeader where
  magic : UInt32
  version : UInt16
  type : UInt16
  requestId : UInt32
  length : UInt32
  deriving DecidableEq, Repr

namespace ControlFrameHeader

def size : Nat := 16

def bytes (h : ControlFrameHeader) : List UInt8 :=
  u32Bytes h.magic ++ (u16Bytes h.version ++ (u16Bytes h.type ++
    (u32Bytes h.requestId ++ u32Bytes h.length)))

def ofBytes (buffer : List UInt8) : ControlFrameHeader where
  magic := u32At buffer 0
  version := u16At buffer 4
  type := u16At buffer 6
  requestId := u32At buffer 8
  length := u32At buffer 12

@[simp] theorem length_bytes (h : ControlFrameHeader) : h.bytes.length = size := by
  simp [bytes, size]

@[simp] theorem ofBytes_bytes (h : ControlFrameHeader) : ofBytes h.bytes = h := by
  obtain ⟨magic, version, type, requestId, length⟩ := h
  have h0 : u32At _ 0 = magic := u32At_append [] rfl magic
    (u16Bytes version ++ (u16Bytes type ++ (u32Bytes requestId ++ u32Bytes length)))
  have h4 := u16At_append (u32Bytes magic) (length_u32Bytes magic) version
    (u16Bytes type ++ (u32Bytes requestId ++ u32Bytes length))
  have h6 : u16At _ 6 = type := u16At_append (u32Bytes magic ++ u16Bytes version)
    (by simp) type (u32Bytes requestId ++ u32Bytes length)
  have h8 : u32At _ 8 = requestId :=
    u32At_append (u32Bytes magic ++ (u16Bytes version ++ u16Bytes type))
      (by simp) requestId (u32Bytes length)
  have h12 : u32At _ 12 = length :=
    u32At_append (u32Bytes magic ++ (u16Bytes version ++ (u16Bytes type ++ u32Bytes requestId)))
      (by simp) length []
  simp only [List.append_assoc, List.nil_append, List.append_nil] at h0 h4 h6 h8 h12
  simp only [ofBytes, bytes, h0, h4, h6, h8, h12]

end ControlFrameHeader

/-- `code` and `msgLen`; the message bytes follow. -/
structure ControlError where
  code : Int32
  msgLen : UInt32
  deriving DecidableEq, Repr

namespace ControlError

def size : Nat := 8

def bytes (e : ControlError) : List UInt8 := words [e.code.toUInt32, e.msgLen]

def ofBytes (buffer : List UInt8) : ControlError where
  code := (u32At buffer 0).toInt32
  msgLen := u32At buffer 4

@[simp] theorem length_bytes (e : ControlError) : e.bytes.length = size := by
  simp [bytes, size]

theorem ofBytes_append (e : ControlError) (tail : List UInt8) : ofBytes (e.bytes ++ tail) = e := by
  have h0 := u32At_words [] [e.msgLen] e.code.toUInt32 tail
  have h4 := u32At_words [e.code.toUInt32] [] e.msgLen tail
  simp only [List.nil_append, List.length_nil, Nat.mul_zero, List.cons_append,
    List.length_cons] at h0 h4
  simp only [ofBytes, bytes, h0]
  exact congrArg (ControlError.mk _) h4

end ControlError

structure ControlDisplayAdd where
  displayId : UInt32
  width : UInt32
  height : UInt32
  dpi : UInt32
  flags : UInt32
  deriving DecidableEq, Repr

namespace ControlDisplayAdd

def size : Nat := 20

def bytes (m : ControlDisplayAdd) : List UInt8 :=
  words [m.displayId, m.width, m.height, m.dpi, m.flags]

def ofBytes (buffer : List UInt8) : ControlDisplayAdd where
  displayId := u32At buffer 0
  width := u32At buffer 4
  height := u32At buffer 8
  dpi := u32At buffer 12
  flags := u32At buffer 16

@[simp] theorem length_bytes (m : ControlDisplayAdd) : m.bytes.length = size := by
  simp [bytes, size]

@[simp] theorem ofBytes_bytes (m : ControlDisplayAdd) : ofBytes m.bytes = m := by
  obtain ⟨d, w, h, dpi, f⟩ := m
  have h0 := u32At_words [] [w, h, dpi, f] d []
  have h4 := u32At_words [d] [h, dpi, f] w []
  have h8 := u32At_words [d, w] [dpi, f] h []
  have h12 := u32At_words [d, w, h] [f] dpi []
  have h16 := u32At_words [d, w, h, dpi] [] f []
  simp only [List.append_nil] at h0 h4 h8 h12 h16
  exact congr (congr (congr (congr (congrArg ControlDisplayAdd.mk h0) h4) h8) h12) h16

end ControlDisplayAdd

/-- The payload of DISPLAY_ADD_OK and of DISPLAY_REMOVE: one display id. -/
def displayIdBytes (displayId : UInt32) : List UInt8 := words [displayId]

def displayIdSize : Nat := 4

def displayIdOfBytes (buffer : List UInt8) : UInt32 := u32At buffer 0

@[simp] theorem displayIdOfBytes_bytes (d : UInt32) : displayIdOfBytes (displayIdBytes d) = d := by
  have h0 := u32At_words [] [] d []
  rwa [List.append_nil] at h0

structure ControlDisplayStream where
  displayId : UInt32
  enabled : UInt32
  maximumFramesPerSecond : UInt32
  deriving DecidableEq, Repr

def ControlDisplayStream.bytes (m : ControlDisplayStream) : List UInt8 :=
  words [m.displayId, m.enabled, m.maximumFramesPerSecond]

structure ControlEventDisplay where
  displayId : UInt32
  state : UInt32
  width : UInt32
  height : UInt32
  dpi : UInt32
  flags : UInt32
  deriving DecidableEq, Repr

namespace ControlEventDisplay

def size : Nat := 24

def bytes (m : ControlEventDisplay) : List UInt8 :=
  words [m.displayId, m.state, m.width, m.height, m.dpi, m.flags]

def ofBytes (buffer : List UInt8) : ControlEventDisplay where
  displayId := u32At buffer 0
  state := u32At buffer 4
  width := u32At buffer 8
  height := u32At buffer 12
  dpi := u32At buffer 16
  flags := u32At buffer 20

@[simp] theorem length_bytes (m : ControlEventDisplay) : m.bytes.length = size := by
  simp [bytes, size]

@[simp] theorem ofBytes_bytes (m : ControlEventDisplay) : ofBytes m.bytes = m := by
  obtain ⟨d, st, w, h, dpi, f⟩ := m
  have h0 := u32At_words [] [st, w, h, dpi, f] d []
  have h4 := u32At_words [d] [w, h, dpi, f] st []
  have h8 := u32At_words [d, st] [h, dpi, f] w []
  have h12 := u32At_words [d, st, w] [dpi, f] h []
  have h16 := u32At_words [d, st, w, h] [f] dpi []
  have h20 := u32At_words [d, st, w, h, dpi] [] f []
  simp only [List.append_nil] at h0 h4 h8 h12 h16 h20
  exact congr (congr (congr (congr (congr (congrArg ControlEventDisplay.mk h0) h4) h8) h12) h16) h20

end ControlEventDisplay

end ControlProtocol
end MacMu
