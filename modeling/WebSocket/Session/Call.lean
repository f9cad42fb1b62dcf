import WebSocket.Session.Server

/-!
# Calls

A handler acts on its session through calls, one after another. Each gives an answer. A call
that starts a task answers at once; `spawned` are the tasks that a list of calls starts, in
order.
-/

namespace WebSocket

/-- A message of the peer, as a callback receives it. -/
abbrev Delivery := MessageKind × Bytes

inductive Call where
  | send (kind : MessageKind) (payload : Bytes)
  | trySend (kind : MessageKind) (payload : Bytes)
  /-- Sends back the message that is being handled. -/
  | echo
  | close
  | closeWith (frame : CloseFrame)
  | setHeader (name value : String)
  | setProtocol (name : String)
  | header (name : String)
  | protocol (index : Nat)
  | protocolCount
  | version
  | isClosing
  | state
  | chosenProtocol
  | request
  | describe
  /-- Starts a task that makes these calls. -/
  | spawn (calls : List Call)
  deriving Repr

inductive Answer where
  | done
  | nothing
  | count (n : Nat)
  | flag (value : Bool)
  | text (value : String)
  | words (values : List String)
  | failed (error : Error)
  deriving DecidableEq, Repr

namespace Answer

def ofText? : Option String → Answer
  | some value => text value
  | none => nothing

def ofCount : Except Error Nat → Answer
  | .ok n => count n
  | .error error => failed error

def ofUnit : Except Error Unit → Answer
  | .ok () => done
  | .error error => failed error

end Answer

/-- Whether the call needs the output, so that it cannot return while another party holds it. -/
def Call.needsOutput (delivery : Option Delivery) : Call → Bool
  | send .. | trySend .. | close => true
  | echo => delivery.isSome
  | closeWith frame => frame.encode.isOk
  | _ => false

namespace Server

/-- Makes one call. What a `spawn` starts is not run here. -/
def perform (delivery : Option Delivery) (server : Server) (call : Call) : Answer × Server :=
  match call with
  | .send kind payload =>
    let (n, server) := server.send kind payload
    (.count n, server)
  | .trySend kind payload =>
    let (result, server) := server.trySend kind payload
    (.ofCount result, server)
  | .echo =>
    match delivery with
    | none => (.count 0, server)
    | some (kind, payload) =>
      let (n, server) := server.send kind payload
      (.count n, server)
  | .close =>
    let (n, server) := server.close
    (.count n, server)
  | .closeWith frame =>
    let (result, server) := server.closeWith frame
    (.ofCount result, server)
  | .setHeader name value =>
    let (result, server) := server.setHeader name value
    (.ofUnit result, server)
  | .setProtocol name =>
    let (result, server) := server.setProtocol name
    (.ofUnit result, server)
  | .header name => (.ofText? (server.request.header? name), server)
  | .protocol index => (.ofText? server.request.protocols[index]?, server)
  | .protocolCount => (.count server.request.protocols.length, server)
  | .version => (.count apiVersion, server)
  | .isClosing => (.flag server.closing, server)
  | .state => (.text server.state.name, server)
  | .chosenProtocol => (.ofText? server.chosen, server)
  | .request => (.words [server.request.method, server.request.path], server)
  | .describe => (.text server.describe, server)
  | .spawn _ => (.nothing, server)

/-- Makes calls in order and collects their answers. -/
def performAll (delivery : Option Delivery) (server : Server) (calls : List Call) :
    Array Answer × Server :=
  calls.foldl
    (fun (answers, server) call =>
      let (answer, server) := server.perform delivery call
      (answers.push answer, server))
    (#[], server)

end Server

end WebSocket
