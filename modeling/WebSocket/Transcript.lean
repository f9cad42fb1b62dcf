import WebSocket.Text.Utf8

/-!
# What a stream received

The bytes that a stream has accepted, split behind the response head, if they begin with one.
-/

namespace WebSocket.Transcript

def blankLine : Bytes := [13, 10, 13, 10]

/-- Splits behind the first blank line. -/
def splitBlankLine? (bytes : Bytes) : Option (Bytes × Bytes) :=
  go bytes []
where
  go : Bytes → Bytes → Option (Bytes × Bytes)
    | [], _ => none
    | byte :: rest, before =>
      if blankLine.isPrefixOf (byte :: rest) then
        some (before.reverse ++ blankLine, (byte :: rest).drop blankLine.length)
      else go rest (byte :: before)

/-- The text of the response head, if there is a whole one, and the bytes behind it. -/
def split (bytes : Bytes) : Option String × Bytes :=
  if (Bytes.ofString "HTTP/").isPrefixOf bytes then
    match splitBlankLine? bytes with
    | some (head, rest) => (some (Text.Utf8.decodeLossy head), rest)
    | none => (none, bytes)
  else (none, bytes)

end WebSocket.Transcript
