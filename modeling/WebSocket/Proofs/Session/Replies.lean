import WebSocket.Proofs.Reassembly.RoundTrip
import WebSocket.Proofs.Session.Journal

/-!
# What an open session sends

While a session is open, its handler puts messages to the output with every message that it hears,
and the session puts a pong for every ping (`Handler.puts`). The output admits what is put, except
a control message that is too long, up to the first close frame (`admissible`). Nothing else counts
for what events make of a session: the messages that are admitted, and whether the session has
closed (`Conversation.Listens.dispatch`). At the end of the stream one more close frame is put
(`Session.Opens.serve_of_eof`).
-/

namespace WebSocket

/-- Of messages that are put to an open output one after another those that it admits. -/
def admissible : List (MessageKind × Bytes) → List (MessageKind × Bytes)
  | [] => []
  | message :: messages =>
    if message.1.isControl ∧ Error.maxControlPayload < message.2.length then admissible messages
    else message :: if message.1 = .close then [] else admissible messages

/-- Whether a close frame is among the messages. -/
def hasClose (messages : List (MessageKind × Bytes)) : Bool := messages.any (·.1 == .close)

/-- The messages that are put to the output on events, the first message of which has this number:
those of the handler's calls, and the pongs. -/
def Handler.puts (handler : Handler) (request : Request) :
    Nat → List Event → List (MessageKind × Bytes)
  | _, [] => []
  | number, .message kind payload :: events =>
    (handler.reply request number (kind, payload)).filterMap (·.message? (some (kind, payload))) ++
      handler.puts request (number + 1) events
  | number, .ping payload :: events => (.pong, payload) :: handler.puts request number events
  | _, .close _ :: _ => []

/-! ## Frames that break nothing -/

/-- Frames without a close frame report none. -/
theorem Grammar.close_notMem_reports {frames : List Frame.Client} (further : closes frames = false)
    (unfinished : Option Unfinished) (payload : Bytes) :
    .close payload ∉ reports unfinished frames := by
  induction frames generalizing unfinished with
  | nil => exact List.not_mem_nil
  | cons frame frames ih =>
    obtain ⟨other, further⟩ := Bool.or_eq_false_iff.mp further
    intro member
    rcases List.mem_append.mp member with now | later
    · have close := opcode_of_absorb_close (Option.mem_toList.mp now)
      simp [close] at other
    · exact ih further _ later

/-- What is heard of a client that keeps to the rules is what its frames report. -/
theorem Inbound.heard_of_legal {inbound : Inbound} {settings : Settings}
    {frames : List Frame.Client} (legal : Grammar.Legal settings.limits none frames)
    (sent : inbound.blocks.flatten = frames.flatMap Frame.Client.encode) :
    (inbound.heard settings).events.toList = Grammar.reports none frames ∧
      (inbound.heard settings).violation = none := by
  rw [heard, sent]
  obtain ⟨unbroken, reported, -⟩ :=
    Reassembler.feedFrom_flatMap_encode Reassembler.atFrame_fresh legal #[]
  exact ⟨reported, unbroken⟩

/-! ## What an output admits -/

variable {messages more : List (MessageKind × Bytes)}

theorem hasClose_append (messages more : List (MessageKind × Bytes)) :
    hasClose (messages ++ more) = (hasClose messages || hasClose more) := List.any_append

theorem hasClose_cons (message : MessageKind × Bytes) (messages : List (MessageKind × Bytes)) :
    hasClose (message :: messages) = (message.1 == .close || hasClose messages) := rfl

theorem admissible_append (messages more : List (MessageKind × Bytes)) :
    admissible (messages ++ more) =
      admissible messages ++ if hasClose (admissible messages) then [] else admissible more := by
  induction messages with
  | nil => rfl
  | cons message messages ih =>
    simp only [List.cons_append, admissible]
    split
    · exact ih
    · split
      · next close => simp [hasClose_cons, close]
      · next other => simp [hasClose_cons, other, ih]

/-- Behind a close frame nothing is admitted. -/
theorem admissible_append_of_close (closed : hasClose (admissible messages) = true)
    (more : List (MessageKind × Bytes)) : admissible (messages ++ more) = admissible messages := by
  rw [admissible_append, if_pos closed, List.append_nil]

theorem admissible_append_of_open (further : hasClose (admissible messages) = false)
    (more : List (MessageKind × Bytes)) :
    admissible (messages ++ more) = admissible messages ++ admissible more := by
  rw [admissible_append, further]
  rfl

/-- What is no control message that is too long and no close frame is admitted, and the output
stays open. -/
theorem admissible_cons {kind : MessageKind} {payload : Bytes}
    (small : kind.isControl = true → payload.length ≤ Error.maxControlPayload)
    (other : kind ≠ .close) (messages : List (MessageKind × Bytes)) :
    admissible ((kind, payload) :: messages) = (kind, payload) :: admissible messages := by
  rw [admissible, if_neg fun long => Nat.not_lt.mpr (small long.1) long.2, if_neg other]

theorem admissible_of_further
    (small : ∀ message ∈ messages,
      message.1.isControl = true → message.2.length ≤ Error.maxControlPayload)
    (further : ∀ message ∈ messages, message.1 ≠ .close) : admissible messages = messages := by
  induction messages with
  | nil => rfl
  | cons message messages ih =>
    obtain ⟨short, small⟩ := List.forall_mem_cons.mp small
    obtain ⟨other, further⟩ := List.forall_mem_cons.mp further
    exact (admissible_cons short other messages).trans (congrArg _ (ih small further))

theorem hasClose_of_further (further : ∀ message ∈ messages, message.1 ≠ .close) :
    hasClose messages = false :=
  List.any_eq_false.mpr fun message member => by simpa using further message member

/-- Answers to events that are short enough and no close frames are all admitted. -/
theorem admissible_answers {answer? : Event → Option (MessageKind × Bytes)} {events : List Event}
    (fits : ∀ event ∈ events, ∀ message, answer? event = some message →
      message.1 ≠ .close ∧
        (message.1.isControl = true → message.2.length ≤ Error.maxControlPayload)) :
    admissible (events.filterMap answer?) = events.filterMap answer? ∧
      hasClose (events.filterMap answer?) = false := by
  have each : ∀ message ∈ events.filterMap answer?, message.1 ≠ .close ∧
      (message.1.isControl = true → message.2.length ≤ Error.maxControlPayload) := by
    intro message member
    obtain ⟨event, reported, answers⟩ := List.mem_filterMap.mp member
    exact fits event reported message answers
  exact ⟨admissible_of_further (fun message member => (each message member).2)
      fun message member => (each message member).1,
    hasClose_of_further fun message member => (each message member).1⟩

namespace Server

variable {server : Server} {delivery : Option Delivery}

/-- An open session to whose output these messages have been put. -/
structure Put (messages : List (MessageKind × Bytes)) (server : Server) : Prop where
  serving : server.Serving
  admitted : server.outbound.admitted.toList = admissible messages
  closing : server.closing = hasClose (admissible messages)

/-- When the session has closed, it makes no difference what else is put. -/
theorem Put.append_of_closing (put : server.Put messages) (closing : server.closing = true)
    (more : List (MessageKind × Bytes)) : server.Put (messages ++ more) := by
  have same := admissible_append_of_close (put.closing ▸ closing) more
  exact ⟨put.serving, put.admitted.trans same.symm, put.closing.trans (by rw [same])⟩

theorem Put.trySend (put : server.Put messages) (kind : MessageKind) (payload : Bytes) :
    (server.trySend kind payload).2.Put (messages ++ [(kind, payload)]) := by
  have serving := put.serving
  cases closing : server.closing with
  | true =>
    have refused : server.outbound.refusal? kind payload = some .connectionClosed :=
      Outbound.refusal?_of_closing (serving.flag ▸ closing)
    rw [serving.trySend_of_refused refused]
    exact put.append_of_closing closing _
  | false =>
    have joined := admissible_append_of_open (put.closing ▸ closing) [(kind, payload)]
    cases refused : server.outbound.refusal? kind payload with
    | some error =>
      -- It is no close frame, so the message is too long.
      have long : kind.isControl = true ∧ Error.maxControlPayload < payload.length := by
        by_contra fits
        have admitted : server.outbound.refusal? kind payload = none :=
          Outbound.refusal?_eq_none_iff.mpr ⟨serving.attached, serving.flag ▸ closing,
            fun control => Nat.not_lt.mp fun long => fits ⟨control, long⟩⟩
        rw [admitted] at refused
        cases refused
      have dropped : admissible [(kind, payload)] = [] := if_pos long
      rw [dropped, List.append_nil] at joined
      rw [serving.trySend_of_refused refused]
      exact ⟨serving, put.admitted.trans joined.symm, put.closing.trans (by rw [joined])⟩
    | none =>
      obtain ⟨-, -, small⟩ := Outbound.refusal?_eq_none_iff.mp refused
      have kept : admissible [(kind, payload)] = [(kind, payload)] := by
        have fits : ¬ (kind.isControl = true ∧ Error.maxControlPayload < payload.length) :=
          fun long => Nat.not_lt.mpr (small long.1) long.2
        simp only [admissible, if_neg fits, ite_self]
      rw [kept] at joined
      refine ⟨serving.perform none (.trySend kind payload), ?_, ?_⟩
      · rw [serving.trySend_of_admitted refused, joined, ← put.admitted]
        exact Array.toList_push
      · rw [serving.trySend_of_admitted refused, joined, hasClose_append, ← put.closing, closing]
        exact (Bool.or_false _).symm

theorem Put.perform (put : server.Put messages) (delivery : Option Delivery) (call : Call) :
    (server.perform delivery call).2.Put (messages ++ (call.message? delivery).toList) := by
  cases message : call.message? delivery with
  | some message' =>
    rw [perform_of_message message]
    exact put.trySend _ _
  | none =>
    have serving := put.serving.perform delivery call
    obtain ⟨chosen, extra, same⟩ := perform_of_no_message server message
    rw [same] at serving ⊢
    rw [Option.toList_none, List.append_nil]
    exact ⟨serving, put.admitted, put.closing⟩

theorem Put.performAll (put : server.Put messages) (delivery : Option Delivery)
    (calls : List Call) :
    (server.performAll delivery calls).2.Put
      (messages ++ calls.filterMap (·.message? delivery)) := by
  induction calls generalizing server messages with
  | nil => rwa [List.filterMap_nil, List.append_nil, performAll_nil]
  | cons call calls ih =>
    have made := ih (put.perform delivery call)
    rw [performAll_cons, List.filterMap_cons]
    cases message : call.message? delivery with
    | none => simpa [message] using made
    | some message' => simpa [message] using made

end Server

namespace Conversation

variable {handler : Handler} {settings : Settings} {request : Request} {number : Nat}
  {conversation : Conversation} {events : List Event}

/-- **Events make a session send what is put to its output on them**, as far as it is admitted,
and the session has closed exactly if a close frame is part of that. -/
theorem Listens.dispatch (listens : conversation.Listens request number)
    (put : conversation.server.Put messages) (handler : Handler) (settings : Settings)
    (events : List Event) :
    (conversation.dispatch handler settings events).2.server.Put
      (messages ++ handler.puts request number events) := by
  induction events generalizing conversation number messages with
  | nil => rwa [Handler.puts, List.append_nil]
  | cons event events ih =>
    cases event with
    | message kind payload =>
      obtain ⟨heard, made⟩ := listens.hear handler kind payload
      have next := put.performAll (some (kind, payload))
        (handler.reply request number (kind, payload))
      rw [← made] at next
      rw [Handler.puts, ← List.append_assoc]
      simp only [Conversation.dispatch]
      split
      · next closing => exact next.append_of_closing closing _
      · exact ih heard next
    | ping payload =>
      have answered := put.trySend .pong payload
      have heard : { conversation with
          server := (conversation.server.send .pong payload).2 }.Listens request number :=
        listens.answer payload
      rw [← Server.send_snd] at answered
      have later := ih heard answered
      rwa [List.append_assoc] at later
    | close payload => rwa [Handler.puts, List.append_nil]

/-- Events without a close frame of the peer end a session only if it has closed. -/
theorem dispatch_fst (marked : conversation.server.Marked)
    (further : conversation.server.closing = false)
    (quiet : ∀ payload, .close payload ∉ events) :
    (conversation.dispatch handler settings events).1 =
      if (conversation.dispatch handler settings events).2.server.closing then some .localClosed
      else none := by
  cases acted : conversation.dispatch handler settings events with
  | mk outcome next =>
    cases outcome with
    | none => rw [(dispatch_eq_none marked further acted).2]; rfl
    | some outcome =>
      rcases dispatch_eq_some marked further acted with ⟨rfl, closing⟩ | ⟨-, payload, member, -⟩
      · rw [closing]; rfl
      · exact absurd member (quiet payload)

end Conversation

namespace Session

open Conversation

variable {handler : Handler} {settings : Settings} {request : Request} {inbound : Inbound}
  {sink : Sink}

theorem Opens.put_opened (opens : Opens handler request sink) :
    (opened handler request sink).server.Put [] := by
  obtain ⟨chosen, extra, same⟩ := opens.server_opened
  exact ⟨opens.serving_opened, by rw [same]; rfl, opens.closing_opened⟩

/-- If the peer has not closed, the session ends with its own close frame, or else as its input
says. -/
theorem Opens.conversed_of_unclosed (opens : Opens handler request sink)
    (quiet : ∀ payload, .close payload ∉ (inbound.heard settings).events.toList) :
    let next := ((opened handler request sink).dispatch handler settings
      (inbound.heard settings).events.toList).2
    conversed handler settings request inbound sink =
      if next.server.closing then (some .localClosed, next)
      else
        match (inbound.heard settings).violation, inbound.ending with
        | some error, _ => (some (.protocolError error), next)
        | none, .eof => (some .endOfStream, next)
        | none, .fails error => (some (.io error), next)
        | none, .silent => next.await handler := by
  have first : ((opened handler request sink).dispatch handler settings
      (inbound.heard settings).events.toList).1 = _ :=
    dispatch_fst opens.serving_opened.marked opens.closing_opened quiet
  rw [opens.conversed_eq]
  cases acted : (opened handler request sink).dispatch handler settings
      (inbound.heard settings).events.toList with
  | mk outcome next =>
    rw [acted] at first
    dsimp only at first ⊢
    cases closing : next.server.closing with
    | true =>
      rw [closing] at first
      obtain rfl : outcome = some .localClosed := first
      rfl
    | false =>
      rw [closing] at first
      obtain rfl : outcome = none := first
      rfl

/-- When the stream of a peer that has broken nothing and has not closed comes to its end, the
session closes, if it has not done so already. -/
theorem Opens.serve_of_eof (opens : Opens handler request sink) (ended : inbound.ending = .eof)
    (quiet : ∀ payload, .close payload ∉ (inbound.heard settings).events.toList)
    (unbroken : (inbound.heard settings).violation = none) :
    let run := serve handler settings request inbound sink
    let puts := handler.puts request 0 (inbound.heard settings).events.toList
    run.verdict = .returned (.ok (if hasClose (admissible puts) then .localClosed
      else .endOfStream)) ∧
      run.outbound.admitted.toList = admissible (puts ++ [(.close, [])]) := by
  intro run puts
  have put := (listens_opened opens).dispatch opens.put_opened handler settings
    (inbound.heard settings).events.toList
  have conversed := opens.conversed_of_unclosed quiet
  rw [unbroken, ended] at conversed
  dsimp only at conversed
  rw [List.nil_append] at put
  rw [← put.closing]
  split at conversed
  · next closing =>
    have returned : run = _ := opens.serve_eq conversed
    rw [returned, outbound_finish_tearDown, if_pos closing]
    exact ⟨rfl, (put.append_of_closing closing _).admitted⟩
  · next further =>
    have returned : run = _ := opens.serve_eq conversed
    have closed := put.trySend .close []
    rw [← Server.send_snd] at closed
    rw [returned, outbound_finish_tearDown, if_neg further]
    exact ⟨rfl, closed.admitted⟩

end Session

end WebSocket
