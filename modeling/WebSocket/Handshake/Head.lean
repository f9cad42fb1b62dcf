import WebSocket.Error
import WebSocket.Stream

/-!
# Reading a request head

The head ends with the first blank line, which is a line feed at the start of a line, or one
after a carriage return there. It is read byte by byte from the stream, whose blocks may end
anywhere, and no byte behind it is taken. A head may have at most `max` bytes: with one more the
reader gives up.
-/

namespace WebSocket.Head

/-- What is known while a head is read: its bytes so far, last first, and the length of the line
that has begun. -/
structure Progress where
  taken : Bytes := []
  count : Nat := 0
  /-- Bytes of the line in progress, last first. -/
  line : Bytes := []

/-- How a step of reading ends. -/
inductive Step where
  | more (progress : Progress)
  | done (head : Bytes)
  | failed (error : Error)

def carriageReturn : UInt8 := 13
def lineFeed : UInt8 := 10

def Progress.step (max : Nat) (progress : Progress) (byte : UInt8) : Step :=
  let taken := byte :: progress.taken
  let count := progress.count + 1
  if count > max then .failed (.handshakeTooLarge count max)
  else if byte = lineFeed then
    if progress.line = [] ∨ progress.line = [carriageReturn] then .done taken.reverse
    else .more { taken, count, line := [] }
  else .more { taken, count, line := byte :: progress.line }

/-- Reads on through one block; the rest is what is left of it. -/
def scan (max : Nat) : Progress → Bytes → Step × Bytes
  | progress, [] => (.more progress, [])
  | progress, byte :: rest =>
    match progress.step max byte with
    | .more progress => scan max progress rest
    | stop => (stop, rest)

/-- What reading a head comes to. -/
inductive Result where
  | head (bytes : Bytes)
  | failed (error : Error)
  /-- The stream stays silent before the head is complete. -/
  | stalled
  deriving DecidableEq, Repr

/-- Reads the head from a stream's blocks and gives the blocks left behind it. -/
def readBlocks (max : Nat) (ending : Ending) : Progress → List Bytes → Result × List Bytes
  | _, [] =>
    match ending with
    | .eof => (.failed (.invalidHandshake .endedEarly), [])
    | .fails error => (.failed error, [])
    | .silent => (.stalled, [])
  | progress, block :: blocks =>
    match scan max progress block with
    | (.more progress, _) => readBlocks max ending progress blocks
    | (.done head, rest) => (.head head, if rest = [] then blocks else rest :: blocks)
    | (.failed error, rest) => (.failed error, rest :: blocks)

def read (max : Nat) (inbound : Inbound) : Result × Inbound :=
  let (result, blocks) := readBlocks max inbound.ending {} inbound.blocks
  (result, { inbound with blocks })

end WebSocket.Head
