import Mathlib.Tactic.Ring

/-!
Little-endian words of any width as byte lists. Decoding reads the bytes it is
given, so a reader that has taken exactly the encoded bytes gets the value back;
a value too wide for the field keeps only its low bytes.
-/

namespace MacMu
namespace LittleEndian

/-- The low `width` bytes of `n`, least significant first. -/
def encode : Nat → Nat → List UInt8
  | 0, _ => []
  | width + 1, n => UInt8.ofNat n :: encode width (n / 256)

def decode : List UInt8 → Nat
  | [] => 0
  | b :: bs => b.toNat + 256 * decode bs

@[simp] theorem length_encode (width n : Nat) : (encode width n).length = width := by
  induction width generalizing n with
  | zero => rfl
  | succ width ih => simp [encode, ih]

theorem decode_lt (bs : List UInt8) : decode bs < 256 ^ bs.length := by
  induction bs with
  | nil => simp [decode]
  | cons b bs ih =>
    have hb : b.toNat < 256 := UInt8.toNat_lt b
    simp only [decode, List.length_cons, Nat.pow_succ]
    omega

theorem decode_encode_mod (width n : Nat) : decode (encode width n) = n % 256 ^ width := by
  induction width generalizing n with
  | zero => simp [encode, decode, Nat.mod_one]
  | succ width ih =>
    have hb : (UInt8.ofNat n).toNat = n % 256 := by simp
    rw [encode, decode, ih, hb, Nat.pow_succ, Nat.mul_comm (256 ^ width) 256]
    exact (Nat.mod_mul).symm

theorem decode_encode {width n : Nat} (h : n < 256 ^ width) : decode (encode width n) = n := by
  rw [decode_encode_mod, Nat.mod_eq_of_lt h]

end LittleEndian
end MacMu
