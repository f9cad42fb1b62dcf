import Mathlib.Algebra.Group.Nat.Defs
import WebSocket.Bytes

/-!
# Big-endian numbers

A byte put in front of others counts for its value times a power of 256 (`decode_cons`), so that
reading back a number that was written in a field of `width` bytes gives it modulo `256 ^ width`
(`decode_encode`), and writing one that was read gives the bytes again (`encode_decode`).
-/

namespace WebSocket.BigEndian

theorem foldl_decode (start : Nat) (bytes : Bytes) :
    bytes.foldl (fun value byte => value * 256 + byte.toNat) start =
      start * 256 ^ bytes.length + decode bytes := by
  induction bytes generalizing start with
  | nil => simp [decode]
  | cons byte rest ih =>
    rw [decode, List.foldl_cons, List.foldl_cons, ih, ih (0 * 256 + byte.toNat),
      List.length_cons, Nat.pow_succ, Nat.add_mul]
    simp only [Nat.zero_mul, Nat.zero_add, Nat.mul_assoc, Nat.mul_comm (256 ^ rest.length) 256,
      Nat.add_assoc]

theorem decode_cons (byte : UInt8) (rest : Bytes) :
    decode (byte :: rest) = byte.toNat * 256 ^ rest.length + decode rest := by
  rw [decode, List.foldl_cons, foldl_decode, Nat.zero_mul, Nat.zero_add]

theorem decode_lt (bytes : Bytes) : decode bytes < 256 ^ bytes.length := by
  induction bytes with
  | nil => exact Nat.one_pos
  | cons byte rest ih =>
    have fits : (byte.toNat + 1) * 256 ^ rest.length ≤ 256 * 256 ^ rest.length :=
      Nat.mul_le_mul_right _ byte.toNat_lt
    rw [decode_cons, List.length_cons, Nat.pow_succ, Nat.mul_comm (256 ^ rest.length) 256]
    rw [Nat.add_mul, Nat.one_mul] at fits
    omega

theorem shiftRight_eq_div (width n : Nat) : n >>> (8 * width) = n / 256 ^ width := by
  rw [Nat.shiftRight_eq_div_pow, Nat.pow_mul]

/-- What does not fit the field is cut off. -/
theorem decode_encode (width n : Nat) : decode (encode width n) = n % 256 ^ width := by
  induction width with
  | zero => exact (Nat.mod_one n).symm
  | succ width ih =>
    have digits : n % 256 ^ (width + 1) =
        n % 256 ^ width + 256 ^ width * (n / 256 ^ width % 2 ^ 8) := Nat.mod_mul
    rw [encode, decode_cons, length_encode, ih, UInt8.toNat_ofNat', shiftRight_eq_div, digits,
      Nat.mul_comm, Nat.add_comm]

theorem encode_add_mul (width n k : Nat) : encode width (n + k * 256 ^ width) = encode width n := by
  induction width generalizing k with
  | zero => rfl
  | succ width ih =>
    have carried : k * 256 ^ (width + 1) = k * 256 * 256 ^ width := by
      rw [Nat.pow_succ, Nat.mul_comm (256 ^ width), Nat.mul_assoc]
    have digit : UInt8.ofNat (n / 256 ^ width + k * 256) = UInt8.ofNat (n / 256 ^ width) :=
      UInt8.toNat_inj.mp (by simp)
    rw [encode, encode, carried, ih, shiftRight_eq_div, shiftRight_eq_div,
      Nat.add_mul_div_right _ _ (Nat.pow_pos (by decide)), digit]

theorem encode_decode (bytes : Bytes) : encode bytes.length (decode bytes) = bytes := by
  induction bytes with
  | nil => rfl
  | cons byte rest ih =>
    have digit : (decode rest + byte.toNat * 256 ^ rest.length) / 256 ^ rest.length =
        byte.toNat := by
      rw [Nat.add_mul_div_right _ _ (Nat.pow_pos (by decide)), Nat.div_eq_of_lt (decode_lt rest),
        Nat.zero_add]
    rw [decode_cons, Nat.add_comm, List.length_cons, encode, shiftRight_eq_div, digit,
      encode_add_mul, ih, UInt8.ofNat_toNat]

end WebSocket.BigEndian
