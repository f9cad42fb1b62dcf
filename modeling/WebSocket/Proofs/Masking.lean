import Mathlib.Algebra.Group.Nat.Defs
import WebSocket.Frame.Mask

/-!
# Masking byte by byte

Masking works on words of four bytes with the key turned to the place where the bytes begin.
`applyAt_eq_mapIdx` says what this does to each byte: it is combined with the key byte of its place
in the payload. So a payload may be masked in pieces (`applyAt_append`), masking twice gives the
payload back (`applyAt_applyAt`), and the zero key changes nothing (`applyAt_zero`).
-/

namespace WebSocket.Mask

theorem word_xor (a b c d e f g h : UInt8) :
    word a b c d ^^^ word e f g h = word (a ^^^ e) (b ^^^ f) (c ^^^ g) (d ^^^ h) := by
  apply UInt32.eq_of_toBitVec_eq
  ext place bound
  simp only [word, UInt32.toBitVec_xor, UInt32.toBitVec_or, UInt32.toBitVec_shiftLeft,
    UInt8.toBitVec_toUInt32, UInt8.toBitVec_xor]
  simp
  grind

theorem ofWord_word (a b c d : UInt8) : ofWord (word a b c d) = [a, b, c, d] := by
  simp only [ofWord, List.cons.injEq, and_true]
  refine ⟨?_, ?_, ?_, ?_⟩
  all_goals
    apply UInt8.eq_of_toBitVec_eq
    ext place bound
    simp [word]
  all_goals grind

theorem byteAt_add_four (mask : Mask) (place : Nat) :
    mask.byteAt (place + 4) = mask.byteAt place := by
  simp [byteAt]

theorem byteAt_turn (mask : Mask) (offset place : Nat) :
    (mask.turn offset).byteAt place = mask.byteAt (offset + place) := by
  obtain h | h | h | h : place % 4 = 0 ∨ place % 4 = 1 ∨ place % 4 = 2 ∨ place % 4 = 3 := by
    omega
  all_goals simp [byteAt, turn, h, Nat.add_mod]

/-- The key byte of a place is the one that the place has modulo four. -/
theorem byteAt_eq_get (mask : Mask) (place : Nat) :
    mask.byteAt place = mask.toBytes.get ⟨place % 4, Nat.mod_lt place (by decide)⟩ := by
  have all (turn : Fin 4) : mask.byteAt turn = mask.toBytes.get turn := by
    match turn with
    | 0 | 1 | 2 | 3 => rfl
  calc mask.byteAt place
    _ = mask.byteAt (place % 4) := by simp only [byteAt, Nat.mod_mod]
    _ = _ := all ⟨place % 4, Nat.mod_lt place (by decide)⟩

@[simp] theorem turn_zero (mask : Mask) : mask.turn 0 = mask := rfl

theorem byteAt_zero (place : Nat) : zero.byteAt place = 0 := by
  unfold byteAt
  split <;> rfl

theorem applyWords_eq_mapIdx (mask : Mask) (bytes : Bytes) :
    mask.applyWords bytes = bytes.mapIdx fun place byte => byte ^^^ mask.byteAt place := by
  induction size : bytes.length using Nat.strongRecOn generalizing bytes with
  | ind _ ih =>
    rcases bytes with _ | ⟨a, _ | ⟨b, _ | ⟨c, _ | ⟨d, rest⟩⟩⟩⟩
    · rfl
    · rfl
    · rfl
    · rfl
    · have later (place : Nat) : mask.byteAt (place + 1 + 1 + 1 + 1) = mask.byteAt place :=
        byteAt_add_four mask place
      have shorter : rest.length < (a :: b :: c :: d :: rest).length := by
        simp only [List.length_cons]
        omega
      rw [applyWords, word_xor, ofWord_word, ih _ (size ▸ shorter) rest rfl]
      simp only [List.mapIdx_cons, later]
      rfl

/-- A payload byte is combined with the key byte of its place in the payload. -/
theorem applyAt_eq_mapIdx (mask : Mask) (offset : Nat) (bytes : Bytes) :
    mask.applyAt offset bytes =
      bytes.mapIdx fun place byte => byte ^^^ mask.byteAt (offset + place) := by
  rw [applyAt, applyWords_eq_mapIdx]
  simp only [byteAt_turn]

/-- A payload as a whole is masked from the key's first byte on. -/
theorem apply_eq_applyAt (mask : Mask) (bytes : Bytes) :
    mask.apply bytes = mask.applyAt 0 bytes := by
  rw [apply, applyAt, turn_zero]

@[simp] theorem length_applyAt (mask : Mask) (offset : Nat) (bytes : Bytes) :
    (mask.applyAt offset bytes).length = bytes.length := by
  rw [applyAt_eq_mapIdx, List.length_mapIdx]

/-- A payload may be masked in pieces, each from the place where it begins. -/
theorem applyAt_append (mask : Mask) (offset : Nat) (first second : Bytes) :
    mask.applyAt offset (first ++ second) =
      mask.applyAt offset first ++ mask.applyAt (offset + first.length) second := by
  simp only [applyAt_eq_mapIdx, List.mapIdx_append, List.append_cancel_left_eq]
  congr 1
  funext place byte
  rw [Nat.add_assoc, Nat.add_comm place]

theorem applyAt_applyAt (mask : Mask) (offset : Nat) (bytes : Bytes) :
    mask.applyAt offset (mask.applyAt offset bytes) = bytes := by
  simp only [applyAt_eq_mapIdx, List.mapIdx_mapIdx]
  apply List.ext_getElem
  · simp
  · intro place bound _
    simp only [List.getElem_mapIdx, Function.comp_apply, UInt8.xor_assoc, UInt8.xor_self,
      UInt8.xor_zero]

theorem applyAt_zero (offset : Nat) (bytes : Bytes) : zero.applyAt offset bytes = bytes := by
  rw [applyAt_eq_mapIdx]
  simp only [byteAt_zero, UInt8.xor_zero]
  apply List.ext_getElem
  · simp
  · intro place bound _
    simp

/-- Only the offset modulo four counts, so an offset may be taken modulo the size of a word. -/
theorem applyAt_mod_word (mask : Mask) (offset : Nat) (bytes : Bytes) :
    mask.applyAt (offset % 2 ^ 64) bytes = mask.applyAt offset bytes := by
  have same (place : Nat) : (offset % 2 ^ 64 + place) % 4 = (offset + place) % 4 := by omega
  simp only [applyAt_eq_mapIdx, byteAt, same]

/-- **Masking word by word is masking byte by byte.** The byte at each place is combined with the
key byte of that place, counted from the offset on. So masking twice gives the bytes back, bytes
may be masked in pieces, also where the offset of the second piece is more than a word holds, a
payload as a whole begins at offset zero, and the zero key changes nothing. -/
theorem applyAt_bytewise (mask : Mask) (offset : Nat) (bytes more : Bytes) :
    (mask.applyAt offset bytes = bytes.mapIdx fun place byte =>
        byte ^^^ mask.toBytes.get ⟨(offset + place) % 4, Nat.mod_lt _ (by decide)⟩) ∧
      mask.applyAt offset (mask.applyAt offset bytes) = bytes ∧
      mask.applyAt offset (bytes ++ more) =
        mask.applyAt offset bytes ++ mask.applyAt ((offset + bytes.length) % 2 ^ 64) more ∧
      mask.apply bytes = mask.applyAt 0 bytes ∧
      zero.applyAt offset bytes = bytes := by
  refine ⟨?_, applyAt_applyAt .., ?_, apply_eq_applyAt .., applyAt_zero ..⟩
  · rw [applyAt_eq_mapIdx]
    simp only [byteAt_eq_get]
  · rw [applyAt_mod_word, applyAt_append]

end WebSocket.Mask
