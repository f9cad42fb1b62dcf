import WebSocket.Bytes

/-!
# SHA-1

The message is followed by a single one bit, zeros up to eight bytes short of a multiple of 64
bytes, and its length in bits in eight bytes. Each block of 64 bytes is stretched to eighty words
and mixed into five words of state; the digest is the last state.
-/

namespace WebSocket.Digest.Sha1

structure State where
  a : UInt32
  b : UInt32
  c : UInt32
  d : UInt32
  e : UInt32
  deriving DecidableEq, Repr

def initial : State := ⟨0x67452301, 0xEFCDAB89, 0x98BADCFE, 0x10325476, 0xC3D2E1F0⟩

def rotateLeft (word : UInt32) (count : UInt32) : UInt32 :=
  word <<< count ||| word >>> (32 - count)

/-- The message with its padding. -/
def pad (message : Bytes) : Bytes :=
  message ++ 0x80 :: List.replicate ((119 - message.length % 64) % 64) 0 ++
    BigEndian.encode 8 (message.length * 8)

/-- Big-endian words of 32 bits; bytes that do not fill one are dropped. -/
def words : Bytes → List UInt32
  | a :: b :: c :: d :: rest => UInt32.ofNat (BigEndian.decode [a, b, c, d]) :: words rest
  | _ => []

/-- Adds `count` words to a schedule, each from four earlier ones. -/
def stretch : (count : Nat) → (schedule : Array UInt32) → Array UInt32
  | 0, schedule => schedule
  | count + 1, schedule =>
    let back (distance : Nat) : UInt32 := schedule.getD (schedule.size - distance) 0
    stretch count (schedule.push (rotateLeft (back 3 ^^^ back 8 ^^^ back 14 ^^^ back 16) 1))

/-- The mixing function and the constant of a round. -/
def mix (round : Nat) (b c d : UInt32) : UInt32 :=
  if round < 20 then ((b &&& c) ||| (~~~b &&& d)) + 0x5A827999
  else if round < 40 then (b ^^^ c ^^^ d) + 0x6ED9EBA1
  else if round < 60 then ((b &&& c) ||| (b &&& d) ||| (c &&& d)) + 0x8F1BBCDC
  else (b ^^^ c ^^^ d) + 0xCA62C1D6

def round (s : State) (number : Nat) (word : UInt32) : State :=
  ⟨rotateLeft s.a 5 + mix number s.b s.c s.d + s.e + word, s.a, rotateLeft s.b 30, s.c, s.d⟩

def rounds : (number : Nat) → (schedule : List UInt32) → State → State
  | _, [], s => s
  | number, word :: schedule, s => rounds (number + 1) schedule (round s number word)

/-- Mixes one block into the state. -/
def compress (s : State) (block : Bytes) : State :=
  let mixed := rounds 0 (stretch 64 (words block).toArray).toList s
  ⟨s.a + mixed.a, s.b + mixed.b, s.c + mixed.c, s.d + mixed.d, s.e + mixed.e⟩

def digest (message : Bytes) : Bytes :=
  let s := ((pad message).pieces 64).foldl compress initial
  [s.a, s.b, s.c, s.d, s.e].flatMap fun word => BigEndian.encode 4 word.toNat

end WebSocket.Digest.Sha1
