import WebSocket.Close
import WebSocket.Handshake.Request
import WebSocket.Handshake.Response
import WebSocket.Session.Outbound
import WebSocket.Session.State
import WebSocket.Text.Quoted

/-!
# The server side of a session

`Server` is what a handler sees of its session. Its `closing` flag is raised by every send that
leaves the output closed behind it, and by the detaching of the output at the session's end.
Fields and the subprotocol of the answer may be set at any time, but only what is set before the
answer is written can show in it.
-/

namespace WebSocket

structure Server where
  request : Request
  /-- The subprotocol to announce. -/
  chosen : Option String
  /-- Fields to add to the answer, in the order of their last setting. -/
  extra : List (String × String) := []
  outbound : Outbound
  state : SessionState := .handshaking
  closing : Bool := false
  deriving DecidableEq, Repr

namespace Server

/-- The version of what handlers can call. -/
def apiVersion : Nat := 0

/-- The first subprotocol that the client offers is chosen until another one is. -/
def ofRequest (request : Request) (sink : Sink) : Server where
  request := request
  chosen := request.protocols.head?
  outbound := { sink }

def advance (server : Server) (state : SessionState) : Server :=
  { server with state := server.state.advance state }

/-- Raises the flag; only the first time moves the state on. -/
def markClosing (server : Server) : Server :=
  if server.closing then server else { server.advance .closing with closing := true }

/-- Sends one message, and reports why if nothing or not all of it was written. -/
def trySend (server : Server) (kind : MessageKind) (payload : Bytes) :
    Except Error Nat × Server :=
  let (result, outbound) := server.outbound.send kind payload
  let server := { server with outbound }
  (result, if server.outbound.closing then server.markClosing else server)

/-- Sends one message; the count of payload bytes is zero where that fails. -/
def send (server : Server) (kind : MessageKind) (payload : Bytes) : Nat × Server :=
  match server.trySend kind payload with
  | (.ok count, server) => (count, server)
  | (.error _, server) => (0, server)

/-- Sends an empty close frame. -/
def close (server : Server) : Nat × Server := server.send .close []

/-- Sends a close frame with a code and a reason. One that cannot be encoded is not sent. -/
def closeWith (server : Server) (frame : CloseFrame) : Except Error Nat × Server :=
  match frame.encode with
  | .error error => (.error error, server)
  | .ok payload => server.trySend .close payload

/-- Adds a field to the answer and drops an earlier one of the same name. Once the answer is
written this has no effect. -/
def setHeader (server : Server) (name value : String) : Except Error Unit × Server :=
  match checkField name value with
  | .error error => (.error error, server)
  | .ok () =>
    if server.state.rank > SessionState.connecting.rank then (.ok (), server)
    else
      let others := server.extra.filter fun field => !Text.equalsIgnoringCase field.1 name
      (.ok (), { server with extra := others ++ [(name, value)] })

def setProtocol (server : Server) (name : String) : Except Error Unit × Server :=
  match checkField "Sec-WebSocket-Protocol" name with
  | .error error => (.error error, server)
  | .ok () => (.ok (), { server with chosen := some name })

/-- The head that answers the request, as things stand. -/
def response (server : Server) : Response where
  accept := acceptKey (server.request.key?.getD "")
  protocol := server.chosen
  extra := server.extra

/-- Writes the answer's head, or nothing if a field cannot stand in it. -/
def sendHead (server : Server) : Except Error Unit × Server :=
  match server.response.write with
  | (_, .error error) => (.error error, server)
  | (head, .ok ()) =>
    let (result, sink) := server.outbound.sink.send head
    (result, { server with outbound := { server.outbound with sink } })

/-- Detaches the output at the end of a session. -/
def detach (server : Server) : Server :=
  { server with outbound := server.outbound.detach }.markClosing

def shutDown (server : Server) : Server :=
  { server with outbound := { server.outbound with sink := server.outbound.sink.shutDown.2 } }

def describe (server : Server) : String :=
  let protocol :=
    match server.chosen with
    | none => "None"
    | some name => "Some(" ++ Text.quote name ++ ")"
  "Server \x7b path: " ++ Text.quote server.request.path ++ ", state: " ++ server.state.name ++
    ", protocol: " ++ protocol ++ ", .. \x7d"

end Server

end WebSocket
