/-!
# Byte strings and big-endian numbers

Byte strings are lists of bytes. A number is written most significant byte first in a field of
fixed width; what does not fit the field is cut off.
-/

namespace WebSocket

abbrev Bytes := List UInt8

namespace Bytes

/-- The bytes of a text in UTF-8. -/
def ofString (text : String) : Bytes := text.toList.flatMap String.utf8EncodeChar

/-- Cuts a byte string into pieces of `size` bytes, the last one shorter; a `size` of zero
counts as one. No piece is empty. -/
def pieces (size : Nat) (bytes : Bytes) : List Bytes :=
  go bytes []
where
  go (rest : Bytes) (done : List Bytes) : List Bytes :=
    match rest with
    | [] => done.reverse
    | byte :: rest =>
      go (rest.drop (size - 1)) ((byte :: rest.take (size - 1)) :: done)
  termination_by rest.length
  decreasing_by simp only [List.length_drop, List.length_cons]; omega

theorem flatten_pieces_go (size : Nat) (rest : Bytes) (done : List Bytes) :
    (pieces.go size rest done).flatten = done.reverse.flatten ++ rest := by
  fun_induction pieces.go size rest done with
  | case1 done => simp
  | case2 done byte rest ih =>
    rw [ih]
    simp

/-- Cutting loses nothing and keeps the order. -/
theorem flatten_pieces (size : Nat) (bytes : Bytes) : (pieces size bytes).flatten = bytes := by
  simp [pieces, flatten_pieces_go]

end Bytes

namespace BigEndian

/-- The last `width` bytes of `n`, most significant first. -/
def encode : (width : Nat) → (n : Nat) → Bytes
  | 0, _ => []
  | width + 1, n => UInt8.ofNat (n >>> (8 * width)) :: encode width n

def decode (bytes : Bytes) : Nat :=
  bytes.foldl (fun value byte => value * 256 + byte.toNat) 0

theorem length_encode (width n : Nat) : (encode width n).length = width := by
  induction width with
  | zero => rfl
  | succ width ih => simp [encode, ih]

end BigEndian

end WebSocket
