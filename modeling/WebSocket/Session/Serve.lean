import WebSocket.Frame.Reassembler
import WebSocket.Session.Conversation
import WebSocket.Session.Outcome

/-!
# Serving a session

`Session.serve` takes a request through the whole life of a session: the request is validated,
the handler is asked, the answer is written, messages are delivered until something ends the
session, a close frame is sent if none was, and the output is detached and shut down.

Whatever ends a session ends it at once: of the events that one block of input holds, those
behind the end are dropped.
-/

namespace WebSocket

/-- What is left when nothing more happens. -/
structure Run where
  verdict : Verdict
  /-- The output, with the messages that it has admitted. -/
  outbound : Outbound
  journal : List Entry := []
  deriving Repr

/-- The stream's sink with all that was written. -/
def Run.sink (run : Run) : Sink := run.outbound.sink

namespace Conversation

/-- Hands a message to the handler. -/
def deliver (handler : Handler) (conversation : Conversation) (kind : MessageKind)
    (payload : Bytes) : Conversation :=
  let state := conversation.server.state
  let calls := handler.reply conversation.server.request conversation.delivered (kind, payload)
  (callback handler { conversation with delivered := conversation.delivered + 1 }
    (some (kind, payload)) calls (.message kind payload state)).2

/-- Acts on events in order, up to one that ends the session. -/
def dispatch (handler : Handler) (settings : Settings) :
    List Event → Conversation → Option Outcome × Conversation
  | [], conversation => (none, conversation)
  | .message kind payload :: events, conversation =>
    let conversation := conversation.deliver handler kind payload
    if conversation.server.closing then (some .localClosed, conversation)
    else dispatch handler settings events conversation
  | .ping payload :: events, conversation =>
    dispatch handler settings events
      { conversation with server := (conversation.server.send .pong payload).2 }
  | .close payload :: _, conversation =>
    (some (.ofClosePayload settings.allowReserved payload), conversation)

/-- Waits on a silent peer. Only a task can end the session then. -/
def await (handler : Handler) (conversation : Conversation) : Option Outcome × Conversation :=
  let conversation := conversation.settle handler
  (if conversation.server.closing then some .localClosed else none, conversation)

/-- Reads block after block until the session ends; without an outcome it waits forever. Nothing
is read once the session is closing. -/
def converse (handler : Handler) (settings : Settings) (ending : Ending) (blocks : List Bytes)
    (machine : Reassembler) (conversation : Conversation) : Option Outcome × Conversation :=
  if conversation.server.closing then (some .localClosed, conversation)
  else
    match blocks with
    | [] =>
      match ending with
      | .eof => (some .endOfStream, conversation)
      | .fails error => (some (.io error), conversation)
      | .silent => conversation.await handler
    | block :: blocks =>
      let feed := machine.feed settings.limits block
      match dispatch handler settings feed.events.toList conversation with
      | (some outcome, conversation) => (some outcome, conversation)
      | (none, conversation) =>
        match feed.violation with
        | some error => (some (.protocolError error), conversation)
        | none => converse handler settings ending blocks feed.machine conversation

/-- The close frame that an outcome calls for. -/
def closeFor (server : Server) : Outcome → Server
  | .protocolError error =>
    match error.closeStatus with
    | some code => (server.closeWith ⟨code, ""⟩).2
    | none => server
  | .peerClosed (some frame) => (server.send .close (BigEndian.encode 2 frame.code.toNat)).2
  | .peerClosed none | .endOfStream | .io _ => server.close.2
  | .localClosed | .refused => server

/-- Detaches the output, tells the handler and shuts the stream down. Workers are stopped and
awaited first. -/
def tearDown (handler : Handler) (conversation : Conversation) : Conversation :=
  let conversation :=
    { conversation with
      server := conversation.server.detach.advance .disconnected, stopping := true }
  let conversation :=
    if handler.workers.isEmpty then conversation else conversation.settle handler
  let state := conversation.server.state
  let conversation := (conversation.callback handler none handler.part (.disconnect state)).2
  { conversation with server := conversation.server.shutDown }

/-- Runs what is left to run when the session is over. -/
def finish (handler : Handler) (conversation : Conversation)
    (result : Except Error Outcome) : Run :=
  let conversation := conversation.settle handler
  ⟨.returned result, conversation.server.outbound, conversation.journal.toList⟩

/-- Ends a session that waits forever. -/
def abandon (conversation : Conversation) : Run :=
  ⟨.waiting, conversation.server.outbound, conversation.journal.toList⟩

/-- Declines a client: the output is detached and nothing is written. -/
def refuse (handler : Handler) (conversation : Conversation) : Run :=
  let server := { conversation.server with outbound := conversation.server.outbound.detach }
  let server := (server.advance .disconnected).shutDown
  finish handler { conversation with server, holdsOutput := false } (.ok .refused)

/-- Answers an accepted client and serves it to the end. -/
def accept (handler : Handler) (settings : Settings) (inbound : Inbound)
    (conversation : Conversation) : Run :=
  let (result, server) := conversation.server.sendHead
  let conversation :=
    { conversation with
      server, holdsOutput := false,
      pending := conversation.pending ++ handler.workers.map Task.worker,
      activeWorkers := handler.workers.length }
  match result with
  | .error error => finish handler (conversation.tearDown handler) (.error error)
  | .ok () =>
    let conversation := { conversation with server := conversation.server.advance .opened }
    match converse handler settings inbound.ending (inbound.reads settings.readBlock) {}
        conversation with
    | (none, conversation) => conversation.abandon
    | (some outcome, conversation) =>
      let conversation := { conversation with server := closeFor conversation.server outcome }
      finish handler (conversation.tearDown handler) (.ok outcome)

end Conversation

namespace Session

/-- Serves a request whose head has been read. A request that fails validation leaves the stream
untouched. -/
def serve (handler : Handler) (settings : Settings) (request : Request) (inbound : Inbound)
    (sink : Sink) : Run :=
  match request.validate with
  | .error error => { verdict := .returned (.error error), outbound := { sink } }
  | .ok () =>
    let server := (Server.ofRequest request sink).advance .connecting
    let greeting := handler.greet request
    match Conversation.callback handler { server, holdsOutput := true } none greeting.calls
        (.connect server.state) with
    | (false, conversation) => (conversation.settle handler).abandon
    | (true, conversation) =>
      if greeting.accepts then conversation.accept handler settings inbound
      else conversation.refuse handler

end Session

end WebSocket
