import Mathlib.Data.Nat.Basic
import Mathlib.Tactic.Ring

/-!
# Big-endian numerals of a fixed width

`encode width value` writes the low `width` bytes of a number, most
significant byte first, and `decode` reads such a byte string back.  Both
directions are exact on numbers below `256 ^ width`.
-/

namespace BigEndian

def encode : Nat → Nat → List UInt8
  | 0, _ => []
  | width + 1, value => UInt8.ofNat (value / 256 ^ width) :: encode width value

def decode (bytes : List UInt8) : Nat :=
  bytes.foldl (fun total byte => total * 256 + byte.toNat) 0

@[simp] theorem length_encode (width value : Nat) :
    (encode width value).length = width := by
  induction width with
  | zero => rfl
  | succ width ih => simp [encode, ih]

private theorem foldl_decode (bytes : List UInt8) (start : Nat) :
    bytes.foldl (fun total byte => total * 256 + byte.toNat) start =
      start * 256 ^ bytes.length + decode bytes := by
  induction bytes generalizing start with
  | nil => simp [decode]
  | cons byte bytes ih =>
      have unfolded : decode (byte :: bytes) =
          bytes.foldl (fun total byte => total * 256 + byte.toNat)
            (0 * 256 + byte.toNat) := rfl
      rw [unfolded, List.foldl_cons, ih, ih, List.length_cons, pow_succ]
      ring

theorem decode_cons (byte : UInt8) (bytes : List UInt8) :
    decode (byte :: bytes) =
      byte.toNat * 256 ^ bytes.length + decode bytes := by
  have folded := foldl_decode bytes (0 * 256 + byte.toNat)
  simpa [decode] using folded

theorem decode_lt (bytes : List UInt8) :
    decode bytes < 256 ^ bytes.length := by
  induction bytes with
  | nil => simp [decode]
  | cons byte bytes ih =>
      rw [decode_cons, List.length_cons, pow_succ]
      have byteBound : byte.toNat + 1 ≤ 256 := byte.toNat_lt
      have scaled := Nat.mul_le_mul_right (256 ^ bytes.length) byteBound
      rw [Nat.add_mul, Nat.one_mul] at scaled
      omega

private theorem encode_add_mul (width factor value : Nat) :
    encode width (factor * 256 ^ width + value) = encode width value := by
  induction width generalizing factor with
  | zero => rfl
  | succ width ih =>
      have regrouped : factor * 256 ^ (width + 1) + value =
          (factor * 256) * 256 ^ width + value := by
        rw [pow_succ]
        ring
      have head : ((factor * 256) * 256 ^ width + value) / 256 ^ width =
          factor * 256 + value / 256 ^ width := by
        rw [Nat.add_comm, Nat.add_mul_div_right _ _ (Nat.pow_pos (by decide)),
          Nat.add_comm]
      rw [regrouped, encode, encode, ih, head]
      congr 1
      apply UInt8.toNat_inj.mp
      simp only [UInt8.toNat_ofNat']
      omega

theorem encode_decode (bytes : List UInt8) :
    encode bytes.length (decode bytes) = bytes := by
  induction bytes with
  | nil => rfl
  | cons byte bytes ih =>
      have head : (byte.toNat * 256 ^ bytes.length + decode bytes) /
          256 ^ bytes.length = byte.toNat := by
        rw [Nat.add_comm, Nat.add_mul_div_right _ _ (Nat.pow_pos (by decide)),
          Nat.div_eq_of_lt (decode_lt bytes), Nat.zero_add]
      rw [List.length_cons, encode, decode_cons, encode_add_mul, ih, head]
      simp

theorem decode_encode {width value : Nat} (fits : value < 256 ^ width) :
    decode (encode width value) = value := by
  induction width generalizing value with
  | zero =>
      rw [pow_zero] at fits
      simp only [encode, decode, List.foldl_nil]
      omega
  | succ width ih =>
      have split : value / 256 ^ width * 256 ^ width + value % 256 ^ width =
          value := Nat.div_add_mod' value (256 ^ width)
      have headFits : value / 256 ^ width < 256 := by
        rw [Nat.div_lt_iff_lt_mul (Nat.pow_pos (by decide))]
        rw [pow_succ] at fits
        omega
      have tail : encode width value = encode width (value % 256 ^ width) := by
        conv_lhs => rw [← split]
        exact encode_add_mul width _ _
      rw [encode, decode_cons, length_encode, tail,
        ih (Nat.mod_lt _ (Nat.pow_pos (by decide))), UInt8.toNat_ofNat',
        Nat.mod_eq_of_lt headFits]
      exact split

end BigEndian
