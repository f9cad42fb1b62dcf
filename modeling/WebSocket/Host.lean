import WebSocket.Handshake.Head
import WebSocket.Router
import WebSocket.Session.Serve

/-!
# The host

Reads a request head from a stream, finds the handler for its path and serves the session on
what follows. A head that does not ask for an upgrade properly, or for a path that no handler
serves, is answered with an error status. A head that does not arrive in time, or fails to be
read, gets no answer.
-/

namespace WebSocket.Host

/-- An answer without a body. -/
def errorResponse (status : String) : Bytes :=
  Bytes.ofString
    ("HTTP/1.1 " ++ status ++ "\r\nConnection: close\r\nContent-Length: 0\r\n\r\n")

/-- Writes an error answer and shuts the stream down, unless the write fails. -/
def respond (sink : Sink) (status : String) : Sink :=
  match sink.write (errorResponse status) with
  | (.ok (), sink) => sink.shutDown.2
  | (.error _, sink) => sink

def checkHead (max : Nat) (head : Bytes) : Except Error Request := do
  let request ← Request.parseWithin max head
  request.validate
  pure request

def fail (error : Error) (sink : Sink) : Run :=
  { verdict := .returned (.error error), outbound := { sink } }

/-- Refuses a head, with an answer unless the stream is to blame. -/
def reject (error : Error) (sink : Sink) : Run :=
  match error with
  | .handshakeTimeout | .io _ => fail error sink
  | _ => fail error (respond sink "400 Bad Request")

def handle (router : Router Handler) (settings : Settings) (inbound : Inbound) (sink : Sink) :
    Run :=
  let max := settings.limits.maxHandshake
  match Head.read max inbound with
  | (.stalled, _) =>
    if settings.handshakeTimeout.isSome then fail .handshakeTimeout sink
    else { verdict := .waiting, outbound := { sink } }
  | (.failed error, _) => reject error sink
  | (.head head, inbound) =>
    match checkHead max head with
    | .error error => reject error sink
    | .ok request =>
      match router.get? request.path with
      | none => fail (.noHandler request.path) (respond sink "404 Not Found")
      | some handler => Session.serve handler settings request inbound sink

end WebSocket.Host
