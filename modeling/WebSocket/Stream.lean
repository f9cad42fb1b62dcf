import WebSocket.Error

/-!
# Streams

The two directions of a connection's stream. Inbound bytes arrive in blocks, and after the last
block the stream ends, fails or stays silent. A sink takes bytes as long as there is room; a
write takes what fits and fails with the rest, and a flush may fail although the bytes were
taken.
-/

namespace WebSocket

/-- What a read behind the last block comes to. -/
inductive Ending where
  | eof
  | fails (error : Error)
  | silent
  deriving DecidableEq, Repr

structure Inbound where
  blocks : List Bytes
  ending : Ending
  deriving DecidableEq, Repr

/-- The blocks as reads of at most `size` bytes give them. -/
def Inbound.reads (inbound : Inbound) (size : Nat) : List Bytes :=
  inbound.blocks.flatMap (Bytes.pieces size)

structure Sink where
  written : Array UInt8 := #[]
  /-- How many bytes still fit; `none` if there is no bound. -/
  room : Option Nat := none
  /-- What a write fails with when not all of it fits. -/
  fullError : Error := .io "write failed"
  flushError : Option Error := none
  shutdownError : Option Error := none
  isShutDown : Bool := false
  deriving DecidableEq, Repr

namespace Sink

/-- Writes as much as fits. -/
def write (sink : Sink) (bytes : Bytes) : Except Error Unit × Sink :=
  match sink.room with
  | none => (.ok (), { sink with written := sink.written ++ bytes })
  | some free =>
    (if bytes.length ≤ free then .ok () else .error sink.fullError,
      { sink with
        written := sink.written ++ bytes.take free, room := some (free - bytes.length) })

def flush (sink : Sink) : Except Error Unit :=
  match sink.flushError with
  | none => .ok ()
  | some error => .error error

/-- Writes and then flushes; a write that fails is not flushed. -/
def send (sink : Sink) (bytes : Bytes) : Except Error Unit × Sink :=
  match sink.write bytes with
  | (.ok (), sink) => (sink.flush, sink)
  | failed => failed

/-- The sink is shut down even where this is reported to have failed. -/
def shutDown (sink : Sink) : Except Error Unit × Sink :=
  let sink := { sink with isShutDown := true }
  match sink.shutdownError with
  | none => (.ok (), sink)
  | some error => (.error error, sink)

end Sink

end WebSocket
