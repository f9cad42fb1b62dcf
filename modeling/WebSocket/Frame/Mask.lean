import WebSocket.Bytes

/-!
# Masking

A masked payload has each byte combined, by exclusive or, with one of the four bytes of the
frame's key, in turn. `Mask.applyAt` works on groups of four bytes as one word, with the key
turned to the place in the payload where the bytes begin; `Mask.byteAt` says which key byte
belongs to which place.
-/

namespace WebSocket

structure Mask where
  first : UInt8
  second : UInt8
  third : UInt8
  fourth : UInt8
  deriving DecidableEq, Repr

namespace Mask

def toBytes (mask : Mask) : Bytes := [mask.first, mask.second, mask.third, mask.fourth]

/-- The key that leaves a payload as it is. -/
def zero : Mask := ⟨0, 0, 0, 0⟩

/-- Puts a byte of the key in its place. A key has no fifth place. -/
def set (mask : Mask) (place : Nat) (byte : UInt8) : Mask :=
  match place with
  | 0 => { mask with first := byte }
  | 1 => { mask with second := byte }
  | 2 => { mask with third := byte }
  | 3 => { mask with fourth := byte }
  | _ => mask

/-- The key byte for the payload byte at `offset`. -/
def byteAt (mask : Mask) (offset : Nat) : UInt8 :=
  match offset % 4 with
  | 0 => mask.first
  | 1 => mask.second
  | 2 => mask.third
  | _ => mask.fourth

/-- The key as it applies from `offset` on. -/
def turn (mask : Mask) (offset : Nat) : Mask :=
  ⟨mask.byteAt offset, mask.byteAt (offset + 1), mask.byteAt (offset + 2),
    mask.byteAt (offset + 3)⟩

/-- Four bytes as one word, the first in the lowest place. -/
def word (a b c d : UInt8) : UInt32 :=
  a.toUInt32 ||| b.toUInt32 <<< 8 ||| c.toUInt32 <<< 16 ||| d.toUInt32 <<< 24

def ofWord (w : UInt32) : Bytes :=
  [w.toUInt8, (w >>> 8).toUInt8, (w >>> 16).toUInt8, (w >>> 24).toUInt8]

/-- Masks bytes that begin at the key's first byte, four at a time. -/
def applyWords (mask : Mask) : Bytes → Bytes
  | a :: b :: c :: d :: rest =>
    ofWord (word a b c d ^^^ word mask.first mask.second mask.third mask.fourth) ++
      applyWords mask rest
  | rest => List.zipWith (· ^^^ ·) rest mask.toBytes

/-- Masks bytes that begin `offset` bytes into a payload. -/
def applyAt (mask : Mask) (offset : Nat) (bytes : Bytes) : Bytes :=
  (mask.turn offset).applyWords bytes

/-- Masks a whole payload. -/
def apply (mask : Mask) (bytes : Bytes) : Bytes := mask.applyWords bytes

end Mask

end WebSocket
