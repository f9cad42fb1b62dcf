import WebSocket.Proofs.ClosePayload
import WebSocket.Proofs.Reassembly.Breach
import WebSocket.Proofs.Session.OpenSession

/-!
# Farewell

A session that has opened does not end without a close frame. It is the only one and the last of
all frames, and its payload goes with the outcome (`Parting`): a breach of the protocol is
answered with a status, a close frame of the peer with its own status, the end of the stream with
an empty frame; and where this side has closed the session, the close frame is one that the
handler or a task issued (`Session.serve_farewell`).
-/

namespace WebSocket

/-! ## Where close frames come from -/

/-- The calls that a handler makes in a session for this request, or has tasks make, before the
session is over; with the message at hand. -/
inductive Handler.Issues (handler : Handler) (request : Request) :
    Option Delivery → Call → Prop where
  | greeting {call : Call} (h : call ∈ (handler.greet request).calls) :
    Issues handler request none call
  | reply (number : Nat) {message : Delivery} {call : Call}
      (h : call ∈ handler.reply request number message) :
    Issues handler request (some message) call
  | spawned {delivery : Option Delivery} {calls : List Call} {call : Call}
      (starts : Issues handler request delivery (.spawn calls)) (h : call ∈ calls) :
    Issues handler request delivery call
  | worker {messages : List Delivery} {delivery : Option Delivery} {call : Call}
      (works : messages ∈ handler.workers)
      (h : (Task.worker messages).Makes handler delivery call) :
    Issues handler request delivery call

/-- A close frame that the handler, or a task of it, puts to the output. -/
def Handler.Closes (handler : Handler) (request : Request) (payload : Bytes) : Prop :=
  ∃ delivery call, handler.Issues request delivery call ∧
    call.message? delivery = some (.close, payload)

namespace Server

variable {handler : Handler} {request : Request} {server : Server}

/-- The close frames that are admitted are the handler's. -/
structure Authored (handler : Handler) (request : Request) (server : Server) : Prop where
  asked : server.request = request
  closes : ∀ payload, (.close, payload) ∈ server.outbound.admitted.toList →
    handler.Closes request payload

theorem Authored.trySend (authored : server.Authored handler request) {kind : MessageKind}
    {payload : Bytes} (closes : kind = .close → handler.Closes request payload) :
    (server.trySend kind payload).2.Authored handler request := by
  refine ⟨(request_trySend ..).trans authored.asked, fun other member => ?_⟩
  rw [outbound_trySend] at member
  cases refused : server.outbound.refusal? kind payload with
  | some error =>
    rw [Outbound.send_of_refused refused] at member
    exact authored.closes other member
  | none =>
    rw [Outbound.send_of_admitted refused, Outbound.push, Array.toList_push, List.mem_append,
      List.mem_singleton] at member
    rcases member with before | same
    · exact authored.closes other before
    · cases same
      exact closes rfl

theorem Authored.perform (authored : server.Authored handler request)
    {delivery : Option Delivery} {call : Call} (issues : handler.Issues request delivery call) :
    (server.perform delivery call).2.Authored handler request := by
  refine perform_induction (fun kind payload sends => ?_)
    (fun _ _ _ => ⟨authored.asked, authored.closes⟩)
  refine authored.trySend ?_
  rintro rfl
  exact ⟨delivery, call, issues, sends⟩

end Server

namespace Conversation

variable {handler : Handler} {request : Request} {conversation : Conversation}
  {delivery : Option Delivery} {calls : List Call} {entry : List Answer → Entry}

/-- What has been closed so far the handler closed, and so it will be with the tasks that wait. -/
structure Authored (handler : Handler) (request : Request) (conversation : Conversation) :
    Prop where
  server : conversation.server.Authored handler request
  tasks : ∀ task ∈ conversation.pending, ∀ delivery call,
    task.Makes handler delivery call → handler.Issues request delivery call

theorem Authored.callback (authored : conversation.Authored handler request)
    (issues : ∀ call ∈ calls, handler.Issues request delivery call) :
    (conversation.callback handler delivery calls entry).2.Authored handler request where
  server := by
    rw [server_callback]
    exact Server.performAll_induction_mem
      (fun server call member authored => authored.perform (issues call (mem_of_mem_reach member)))
      authored.server
  tasks task member := by
    rw [pending_callback, List.mem_append] at member
    rcases member with before | started
    · exact authored.tasks task before
    · obtain ⟨inner, spawns, rfl⟩ := Call.mem_spawned_iff.mp started
      rintro delivery call ⟨rfl, among⟩
      exact .spawned (issues _ (mem_of_mem_reach spawns)) among

theorem authored_kept (handler : Handler) (request : Request) :
    Kept handler (Authored handler request) where
  task conversation task rest waits authored := by
    have issues := authored.tasks task (waits ▸ List.mem_cons_self)
    have others : Authored handler request { conversation with pending := rest } :=
      ⟨authored.server,
        fun task member => authored.tasks task (waits ▸ List.mem_cons_of_mem _ member)⟩
    cases task with
    | script delivery calls =>
      exact others.callback fun call member => issues delivery call ⟨rfl, member⟩
    | worker messages =>
      refine ⟨server_runTask_induction (fun server delivery call makes authored => ?_)
        others.server, others.tasks⟩
      exact authored.perform (issues delivery call makes)
  message conversation kind payload authored := by
    have counted : Authored handler request
        { conversation with delivered := conversation.delivered + 1 } :=
      ⟨authored.server, authored.tasks⟩
    refine counted.callback fun call member => .reply conversation.delivered ?_
    rwa [← authored.server.asked]
  pong conversation payload authored := by
    refine ⟨?_, authored.tasks⟩
    rw [Server.send_snd]
    exact authored.server.trySend nofun

end Conversation

/-! ## What each outcome takes to the peer -/

/-- The payload of the close frame that goes with an outcome. -/
inductive Parting (handler : Handler) (settings : Settings) (request : Request)
    (inbound : Inbound) : Outcome → Bytes → Prop where
  | breach (error : Error) (h : (inbound.heard settings).violation = some error) :
    Parting handler settings request inbound (.protocolError error)
      (BigEndian.encode 2 error.status)
  | halfCode (byte : UInt8) (h : .close [byte] ∈ (inbound.heard settings).events.toList) :
    Parting handler settings request inbound
      (.protocolError (.protocolViolation .truncatedCloseStatus)) (BigEndian.encode 2 1002)
  | rejectedCode (high low : UInt8) (reason : Bytes) (frame : CloseFrame)
      (h : .close (high :: low :: reason) ∈ (inbound.heard settings).events.toList)
      (parsed : CloseFrame.parse? (high :: low :: reason) = some frame)
      (invalid : frame.code.isValidInbound settings.allowReserved = false) :
    Parting handler settings request inbound
      (.protocolError (.invalidCloseCode frame.code.toNat)) (BigEndian.encode 2 1002)
  | acceptedCode (high low : UInt8) (reason : Bytes) (frame : CloseFrame)
      (h : .close (high :: low :: reason) ∈ (inbound.heard settings).events.toList)
      (parsed : CloseFrame.parse? (high :: low :: reason) = some frame)
      (valid : frame.code.isValidInbound settings.allowReserved = true) :
    Parting handler settings request inbound (.peerClosed (some frame)) [high, low]
  | noCode (h : .close [] ∈ (inbound.heard settings).events.toList) :
    Parting handler settings request inbound (.peerClosed none) []
  | eof (h : inbound.ending = .eof) : Parting handler settings request inbound .endOfStream []
  | failed (error : Error) (h : inbound.ending = .fails error) :
    Parting handler settings request inbound (.io error) []
  | ours (payload : Bytes) (h : handler.Closes request payload) :
    Parting handler settings request inbound .localClosed payload

namespace Conversation

variable {handler : Handler} {settings : Settings} {request : Request} {inbound : Inbound}
  {outcome : Outcome}

theorem closeFor_of_isProtocol {error : Error} (breach : error.isProtocol = true)
    (server : Server) :
    closeFor server (.protocolError error) =
      (server.trySend .close (BigEndian.encode 2 error.status)).2 := by
  obtain ⟨code, status, encoded⟩ := error.closeStatus_of_isProtocol breach
  simp only [closeFor, status, Server.closeWith, encoded]

/-- An outcome that the input brings about is answered with the close frame that goes with it. -/
theorem closeFor_of_ends (ends : inbound.Ends settings outcome) (server : Server) :
    ∃ payload, Parting handler settings request inbound outcome payload ∧
      payload.length ≤ Error.maxControlPayload ∧
      closeFor server outcome = (server.trySend .close payload).2 := by
  have small (n : Nat) : (BigEndian.encode 2 n).length ≤ Error.maxControlPayload := by
    rw [BigEndian.length_encode]
    decide
  cases ends with
  | breach error broken =>
    exact ⟨_, .breach error broken, small _,
      closeFor_of_isProtocol (Reassembler.isProtocol_of_feedFrom broken) server⟩
  | eof ended => exact ⟨[], .eof ended, by decide, Server.send_snd ..⟩
  | failed error ended => exact ⟨[], .failed error ended, by decide, Server.send_snd ..⟩
  | closed payload closed =>
    match payload with
    | [] => exact ⟨[], .noCode closed, by decide, Server.send_snd ..⟩
    | [byte] => exact ⟨_, .halfCode byte closed, small _, closeFor_of_isProtocol rfl server⟩
    | high :: low :: reason =>
      have several : (high :: low :: reason).length ≠ 1 := by simp
      cases parsed : CloseFrame.parse? (high :: low :: reason) with
      | none => cases parsed
      | some frame =>
        cases valid : frame.code.isValidInbound settings.allowReserved with
        | true =>
          have accepted : Outcome.ofClosePayload settings.allowReserved (high :: low :: reason) =
              .peerClosed (some frame) := by
            simp only [Outcome.ofClosePayload, if_neg several, parsed, valid, if_true]
          rw [accepted]
          have bytes := CloseFrame.encode_code_of_parse? parsed
          refine ⟨[high, low], .acceptedCode high low reason frame closed parsed valid,
            bytes ▸ small _, ?_⟩
          rw [← bytes, ← Server.send_snd]
          rfl
        | false =>
          have rejected : Outcome.ofClosePayload settings.allowReserved (high :: low :: reason) =
              .protocolError (.invalidCloseCode frame.code.toNat) := by
            simp only [Outcome.ofClosePayload, if_neg several, parsed, valid]
            rfl
          rw [rejected]
          exact ⟨_, .rejectedCode high low reason frame closed parsed valid, small _,
            closeFor_of_isProtocol rfl server⟩

end Conversation

/-- Of messages that hold a close frame it is the last, and the only one. -/
theorem LastIfClose.split {messages : List (MessageKind × Bytes)} {payload : Bytes}
    (last : LastIfClose messages) (member : (.close, payload) ∈ messages) :
    ∃ front, messages = front ++ [(.close, payload)] ∧
      ∀ message ∈ front, message.1 ≠ .close := by
  obtain ⟨front, back, split⟩ := List.append_of_mem member
  obtain rfl := last front _ back split rfl
  refine ⟨front, split, fun message member close => ?_⟩
  obtain ⟨before, after, rfl⟩ := List.append_of_mem member
  have behind := last before message (after ++ [(.close, payload)]) (by simp [split]) close
  simp at behind

namespace Session

open Conversation

variable {handler : Handler} {settings : Settings} {request : Request} {inbound : Inbound}
  {sink : Sink} {outcome : Outcome} {conversation : Conversation}

theorem authored_greeted (handler : Handler) (request : Request) (sink : Sink) :
    (greeted handler request sink).2.Authored handler request :=
  Authored.callback
    { server := ⟨rfl, fun _ member => nomatch Array.mem_toList_iff.mp member⟩
      tasks := fun _ member => nomatch member }
    fun _ member => .greeting member

theorem Opens.authored_opened (opens : Opens handler request sink) :
    (opened handler request sink).Authored handler request where
  server := by
    obtain ⟨chosen, extra, same⟩ := opens.server_opened
    rw [same]
    exact ⟨rfl, fun _ member => by simp at member⟩
  tasks task member := by
    have waiting : (opened handler request sink).pending =
        (greeted handler request sink).2.pending ++ handler.workers.map Task.worker := rfl
    rw [waiting, List.mem_append] at member
    rcases member with before | started
    · exact (authored_greeted handler request sink).tasks task before
    · obtain ⟨messages, works, rfl⟩ := List.mem_map.mp started
      exact fun delivery call makes => .worker works makes

/-- A session that its input ends has one more frame to send, a close frame. -/
theorem Opens.parted_ends (opens : Opens handler request sink)
    (h : conversed handler settings request inbound sink = (some outcome, conversation))
    (further : conversation.server.closing = false) (ends : inbound.Ends settings outcome) :
    ∃ payload, Parting handler settings request inbound outcome payload ∧
      (parted conversation outcome).server.outbound.admitted.toList =
        conversation.server.outbound.admitted.toList ++ [(.close, payload)] := by
  have serving := opens.serving_conversed settings inbound
  rw [h] at serving
  obtain ⟨payload, parting, small, sent⟩ := closeFor_of_ends ends conversation.server
  have admitted : conversation.server.outbound.refusal? .close payload = none :=
    Outbound.refusal?_eq_none_iff.mpr
      ⟨serving.attached, serving.flag ▸ further, fun _ => small⟩
  refine ⟨payload, parting, ?_⟩
  simp only [parted, sent, serving.trySend_of_admitted admitted, Outbound.push, Array.toList_push]

/-- When a session has come to its outcome, the last that it has to send is a close frame. -/
theorem Opens.parted_closes (opens : Opens handler request sink)
    (h : conversed handler settings request inbound sink = (some outcome, conversation)) :
    ∃ front payload, Parting handler settings request inbound outcome payload ∧
      (parted conversation outcome).server.outbound.admitted.toList =
        front ++ [(.close, payload)] ∧
      ∀ message ∈ front, message.1 ≠ .close := by
  have serving := opens.serving_conversed settings inbound
  have orderly := (faithful_conversed opens settings inbound).orderly
  have authored : (conversed handler settings request inbound sink).2.Authored handler request :=
    (authored_kept handler request).converse opens.authored_opened _
  rw [h] at serving orderly authored
  rcases opens.ends_conversed h with ⟨rfl, closing⟩ | ⟨further, ends⟩
  · -- This side has sent its close frame already, and nothing is added to it.
    obtain ⟨payload, member⟩ := serving.sent (serving.flag ▸ closing)
    obtain ⟨front, split, others⟩ := orderly.last.split member
    exact ⟨front, payload, .ours payload (authored.server.closes payload member), split, others⟩
  · obtain ⟨payload, parting, admitted⟩ := opens.parted_ends h further ends
    exact ⟨_, payload, parting, admitted, orderly.further (serving.flag ▸ further)⟩

/-- **A session that opens and comes to an end sends exactly one close frame, and sends it
last.** The outcome says which: the status of a breach, whatever the input broke; half a status
or one that is not accepted is a breach as well; an accepted status goes back without its
reason; a close frame without a status, the end of the stream and a failed read are answered with
an empty one; and a session that this side closed ends with the close frame that the handler or a
task of it sent. If the stream has room for all that is sent, the wire ends with this frame. No
violation that feeding can report is without a status. -/
theorem serve_farewell (opens : Opens handler request sink) {result : Except Error Outcome}
    (returns : (serve handler settings request inbound sink).verdict = .returned result) :
    let run := serve handler settings request inbound sink
    let head := (head handler request sink).1
    (∃ outcome front payload,
      result = .ok outcome ∧
        Parting handler settings request inbound outcome payload ∧
        run.outbound.admitted.toList = front ++ [(.close, payload)] ∧
        (∀ message ∈ front, message.1 ≠ .close) ∧
        (sink.HasRoom (head ++ Frame.encodeAll run.outbound.admitted.toList) →
          run.sink.written.toList =
            sink.written.toList ++ head ++ Frame.encodeAll front ++
              Frame.encode .close payload)) ∧
      ∀ limits machine block error,
        (Reassembler.feed limits machine block).violation = some error →
          ∃ code, error.closeStatus = some code ∧
            CloseFrame.encode ⟨code, ""⟩ = .ok (BigEndian.encode 2 error.status) := by
  refine ⟨?_, fun limits machine block error broken =>
    error.closeStatus_of_isProtocol (Reassembler.isProtocol_of_feedFrom broken)⟩
  have served := served_serve opens settings inbound
  have carries := (served.output opens).carries
  generalize serve handler settings request inbound sink = run at served carries returns
  cases served with
  | waiting conversation h => cases returns
  | ended outcome conversation h =>
    cases returns
    obtain ⟨front, payload, parting, split, others⟩ := opens.parted_closes h
    have admitted : (((parted conversation outcome).tearDown handler).finish handler
        (.ok outcome)).outbound.admitted.toList = front ++ [(.close, payload)] := by
      rw [outbound_finish_tearDown]
      exact split
    refine ⟨outcome, front, payload, rfl, parting, admitted, others, fun roomy => ?_⟩
    rw [Run.sink, carries.written, Sink.fitting_of_hasRoom roomy, admitted]
    simp [Frame.encodeAll]

/-- A handler that answers a message and closes: its own close frame ends the wire. -/
theorem serve_farewell_ours :
    let request := Request.ofParts "GET" "/chat"
      [("Upgrade", "websocket"), ("Connection", "Upgrade"), ("Sec-WebSocket-Version", "7"),
        ("Sec-WebSocket-Key", "AQIDBAUGBwgJCgsMDQ4PEA==")]
    let handler : Handler :=
      { reply := fun _ _ message => [.send message.1 message.2, .closeWith ⟨.goingAway, "bye"⟩] }
    let inbound : Inbound := { blocks := [[0x81, 0x82, 1, 2, 3, 4, 73, 107]], ending := .eof }
    Opens handler request {} ∧
      (serve handler {} request inbound {}).verdict = .returned (.ok .localClosed) ∧
      ∃ front, (∀ message ∈ front, message.1 ≠ .close) ∧
        (serve handler {} request inbound {}).sink.written.toList =
          (head handler request {}).1 ++ Frame.encodeAll front ++
            [0x88, 5, 3, 233, 98, 121, 101] := by
  intro request handler inbound
  have ⟨returns, sends⟩ :
      (serve handler {} request inbound {}).verdict = .returned (.ok .localClosed) ∧
        (serve handler {} request inbound {}).outbound.admitted.toList =
          [(.text, [72, 105])] ++ [(.close, [3, 233, 98, 121, 101])] := by decide +kernel
  have opens : Opens handler request {} := opens_of_returned returns nofun
  have frame : Frame.encode .close [3, 233, 98, 121, 101] =
      [0x88, 5, 3, 233, 98, 121, 101] := by decide +kernel
  obtain ⟨⟨outcome, front, payload, -, -, split, others, written⟩, -⟩ :=
    serve_farewell opens returns
  obtain ⟨-, last⟩ := List.append_inj' (split.symm.trans sends) rfl
  cases last
  refine ⟨opens, returns, front, others, ?_⟩
  have fresh : ({} : Sink).written.toList = [] := rfl
  rw [written nofun, frame, fresh, List.nil_append]

end Session

end WebSocket
