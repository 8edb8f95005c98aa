import Mathlib.Data.Nat.Digits.Lemmas
import Mathlib.Data.List.TakeWhile

/-!
Decimal numerals as ASCII bytes, most significant digit first. Readers on both
sides take the longest run of digits and fold it up from the left, so they are
stated over character codes and serve byte strings and character strings alike.
-/

namespace MacMu
namespace Decimal

/-- The codes of the digits `0` to `9`. -/
def isDigit (code : Nat) : Bool := decide (48 ≤ code ∧ code ≤ 57)

def value (codes : List Nat) : Nat := codes.foldl (fun n code => 10 * n + (code - 48)) 0

/-- The codes of the numeral of `n`, without leading zeros. -/
def codes (n : Nat) : List Nat :=
  if n = 0 then [48] else (Nat.digits 10 n).reverse.map (48 + ·)

/-- The numeral of `n` as `%llu` prints it. -/
def bytes (n : Nat) : List UInt8 := (codes n).map UInt8.ofNat

theorem codes_ne_nil (n : Nat) : codes n ≠ [] := by
  unfold codes
  split
  · exact List.cons_ne_nil _ _
  · rename_i hn
    simpa [Nat.digits_ne_nil_iff_ne_zero] using hn

theorem isDigit_of_mem_codes {n code : Nat} (h : code ∈ codes n) : isDigit code = true := by
  unfold codes at h
  split at h
  · rw [List.mem_singleton.mp h]
    rfl
  · obtain ⟨d, hd, rfl⟩ := List.mem_map.mp h
    have hlt : d < 10 := Nat.digits_lt_base (by omega) (List.mem_reverse.mp hd)
    simp only [isDigit, decide_eq_true_eq]
    omega

theorem value_codes (n : Nat) : value (codes n) = n := by
  unfold codes
  split
  · rename_i hn
    rw [hn]
    rfl
  · have hfold : ∀ ds : List Nat, value (ds.reverse.map (48 + ·)) = Nat.ofDigits 10 ds := by
      intro ds
      simp only [value, List.map_reverse, List.foldl_reverse, List.foldr_map,
        Nat.add_sub_cancel_left]
      rw [Nat.ofDigits_eq_foldr]
      simp only [Nat.cast_id, Nat.add_comm]
    rw [hfold, Nat.ofDigits_digits]

theorem map_toNat_bytes (n : Nat) : (bytes n).map UInt8.toNat = codes n := by
  have hcode : ∀ code ∈ codes n, (UInt8.toNat ∘ UInt8.ofNat) code = id code := by
    intro code hmem
    have hdigit := isDigit_of_mem_codes hmem
    simp only [isDigit, decide_eq_true_eq] at hdigit
    simp only [Function.comp_apply, UInt8.toNat_ofNat', id]
    omega
  rw [bytes, List.map_map, List.map_congr_left hcode, List.map_id]

theorem bytes_ne_nil (n : Nat) : bytes n ≠ [] := by
  simpa [bytes] using codes_ne_nil n

theorem length_bytes_le {n width : Nat} (h : n < 10 ^ width) (hwidth : 0 < width) :
    (bytes n).length ≤ width := by
  rw [bytes, List.length_map, codes]
  split
  · exact hwidth
  · rw [List.length_map, List.length_reverse]
    exact (Nat.digits_length_le_iff (by omega) n).mpr h

theorem isDigit_of_mem_bytes {n : Nat} {b : UInt8} (h : b ∈ bytes n) : isDigit b.toNat = true := by
  apply isDigit_of_mem_codes (n := n)
  rw [← map_toNat_bytes]
  exact List.mem_map_of_mem h

theorem span_digits {α : Type} (code : α → Nat) {digits : List α} (rest : List α)
    (hdigits : ∀ c ∈ digits, isDigit (code c) = true)
    (hrest : ∀ c ∈ rest.head?, isDigit (code c) = false) :
    (digits ++ rest).takeWhile (fun c => isDigit (code c)) = digits ∧
      (digits ++ rest).dropWhile (fun c => isDigit (code c)) = rest := by
  rw [List.takeWhile_append_of_pos hdigits, List.dropWhile_append_of_pos hdigits]
  cases rest with
  | nil => simp
  | cons c rest =>
    have hc := hrest c rfl
    simp [hc]

end Decimal
end MacMu
