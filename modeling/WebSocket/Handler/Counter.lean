import WebSocket.Frame.Reader
import WebSocket.Handler

/-!
# The counter

Several workers beside a session each count down and send a line for every number. The last one
to finish closes the session. What the client sends is ignored.
-/

namespace WebSocket.Handler

namespace Counter

/-- How a worker's lines begin. -/
def label (worker : Nat) : String := toString worker ++ ": "

def line (worker number : Nat) : Bytes := Bytes.ofString (label worker ++ toString number)

/-- A worker's lines: from `count` down to one. -/
def lines (count worker : Nat) : List Bytes :=
  (List.range count).reverse.map fun n => line worker (n + 1)

/-- The lines of one worker among the lines of several. -/
def linesOf (worker : Nat) (lines : List Bytes) : List Bytes :=
  let label := Bytes.ofString (label worker)
  lines.filter label.isPrefixOf

/-- The lines at the front of a session's frames, for each worker that has any, and the bytes
behind them. -/
def collect (workers : Nat) (frames : Bytes) : List (List Bytes) × Bytes :=
  let (lines, rest) := Frame.readTexts frames
  (((List.range workers).map (linesOf · lines)).filter (!·.isEmpty), rest)

end Counter

def counter (workers count : Nat) : Handler where
  workers := (List.range workers).map fun worker =>
    (Counter.lines count worker).map (MessageKind.text, ·)

/-- Ten workers that count down from a thousand. -/
def defaultCounter : Handler := counter 10 1000

end WebSocket.Handler
