import WebSocket.Bytes

/-!
# Base64

Three bytes become four characters of six bits each. Two or one bytes left at the end become
three or two characters, filled up to four with the padding character.
-/

namespace WebSocket.Digest.Base64

def alphabet : List Char :=
  "ABCDEFGHIJKLMNOPQRSTUVWXYZabcdefghijklmnopqrstuvwxyz0123456789+/".toList

def padding : Char := '='

/-- The character for the low six bits of `n`. -/
def symbol (n : Nat) : Char := alphabet.getD (n % 64) padding

def encodeChars : Bytes → List Char
  | a :: b :: c :: rest =>
    let n := BigEndian.decode [a, b, c]
    symbol (n >>> 18) :: symbol (n >>> 12) :: symbol (n >>> 6) :: symbol n :: encodeChars rest
  | [a, b] =>
    let n := BigEndian.decode [a, b, 0]
    [symbol (n >>> 18), symbol (n >>> 12), symbol (n >>> 6), padding]
  | [a] =>
    let n := BigEndian.decode [a, 0, 0]
    [symbol (n >>> 18), symbol (n >>> 12), padding, padding]
  | [] => []

def encode (bytes : Bytes) : String := String.ofList (encodeChars bytes)

end WebSocket.Digest.Base64
