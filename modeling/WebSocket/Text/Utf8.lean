import WebSocket.Bytes

/-!
# Lossy decoding of UTF-8

Decoding reads one character at a time from the front. A leading byte fixes how many bytes
follow it and in which range the first of them lies, so that no character has two spellings and
none stands for a surrogate. Where the bytes at the front are no character, the longest run of
them that could have begun one is replaced by U+FFFD, and decoding goes on at the byte after it.
-/

namespace WebSocket.Text.Utf8

/-- What a leading byte says about the bytes after it. -/
structure Lead where
  /-- How many bytes follow. -/
  following : Nat
  /-- The least and the greatest value of the first of them. -/
  low : UInt8
  high : UInt8
  /-- The bits that the leading byte holds itself. -/
  bits : Nat

/-- `none` for a byte that begins no character. -/
def lead? (byte : UInt8) : Option Lead :=
  if byte < 0x80 then some ⟨0, 0x80, 0xBF, byte.toNat⟩
  else if byte < 0xC2 then none
  else if byte < 0xE0 then some ⟨1, 0x80, 0xBF, byte.toNat - 0xC0⟩
  else if byte < 0xF0 then
    some ⟨2, if byte = 0xE0 then 0xA0 else 0x80, if byte = 0xED then 0x9F else 0xBF,
      byte.toNat - 0xE0⟩
  else if byte < 0xF5 then
    some ⟨3, if byte = 0xF0 then 0x90 else 0x80, if byte = 0xF4 then 0x8F else 0xBF,
      byte.toNat - 0xF0⟩
  else none

/-- Takes `count` more bytes of a character, the first of them from `low` to `high`. Stops in
front of the first byte that does not belong to it. -/
def follow : (count : Nat) → (low high : UInt8) → (value : Nat) → Bytes → Option Nat × Bytes
  | 0, _, _, value, rest => (some value, rest)
  | _ + 1, _, _, _, [] => (none, [])
  | count + 1, low, high, value, byte :: rest =>
    if low ≤ byte ∧ byte ≤ high then
      follow count 0x80 0xBF (value * 64 + (byte.toNat - 0x80)) rest
    else (none, byte :: rest)

/-- The character that starts with `byte`, or `none` for bytes that are no character, and what
is left behind them. -/
def next (byte : UInt8) (rest : Bytes) : Option Char × Bytes :=
  match lead? byte with
  | none => (none, rest)
  | some lead =>
    let (value, rest) := follow lead.following lead.low lead.high lead.bits rest
    (value.map Char.ofNat, rest)

theorem length_follow_le (count : Nat) (low high : UInt8) (value : Nat) (rest : Bytes) :
    (follow count low high value rest).2.length ≤ rest.length := by
  induction rest generalizing count low high value with
  | nil => cases count <;> simp [follow]
  | cons byte rest ih =>
    cases count with
    | zero => simp [follow]
    | succ count =>
      simp only [follow]
      split
      · exact Nat.le_succ_of_le (ih ..)
      · simp

theorem length_next_le (byte : UInt8) (rest : Bytes) :
    (next byte rest).2.length ≤ rest.length := by
  unfold next
  split
  · simp
  · exact length_follow_le ..

/-- Stands for bytes that are no character. -/
def replacement : Char := '\uFFFD'

def decodeChars (bytes : Bytes) : List Char :=
  go bytes []
where
  go (rest : Bytes) (done : List Char) : List Char :=
    match rest with
    | [] => done.reverse
    | byte :: rest =>
      go (next byte rest).2 ((next byte rest).1.getD replacement :: done)
  termination_by rest.length
  decreasing_by exact Nat.lt_succ_of_le (length_next_le byte rest)

def decodeLossy (bytes : Bytes) : String := String.ofList (decodeChars bytes)

end WebSocket.Text.Utf8
