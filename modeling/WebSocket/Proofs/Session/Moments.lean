import WebSocket.Proofs.Session.Lifecycle

/-!
# The moments at which a session is looked at

A handler looks at its session between the calls that it makes: while it is being asked, on each
message, when it is told of the end, and in the tasks that it starts, which may run until long
after the session is over. `Session.Occurs` gives the conversations through which sessions pass,
whatever the peer sends; `Session.Acts` says which calls are made in them, and `Session.Looks`
takes the servers between these calls. Every entry of a journal comes of calls made in this way
(`Session.told_serve`), so that no moment is missed.
-/

namespace WebSocket

namespace Conversation

variable {handler : Handler} {conversation : Conversation} {delivery : Option Delivery}
  {calls : List Call} {entry : List Answer → Entry}

/-- The calls of a callback make no entry but their own. -/
theorem mem_journal_callback {told : Entry}
    (member : told ∈ (conversation.callback handler delivery calls entry).2.journal.toList) :
    told ∈ conversation.journal.toList ∨
      told = entry (conversation.server.performAll delivery calls).1.toList := by
  unfold callback perform at member
  by_cases all : (conversation.reach delivery calls).length = calls.length
  · simp only [reach_of_length_eq all, if_true, note] at member
    split at member
    · simpa using member
    · exact .inl member
  · simp only [all, if_false] at member
    exact .inl member

end Conversation

namespace Session

open Conversation

variable {handler : Handler} {settings : Settings} {request : Request} {inbound : Inbound}
  {sink : Sink} {conversation : Conversation}

/-- The conversation in which a handler is asked. -/
def asking (request : Request) (sink : Sink) : Conversation :=
  { server := (Server.ofRequest request sink).advance .connecting, holdsOutput := true }

/-- What can become of a conversation once the handler has been asked: all that happens in a
session, in an order that is left open except for the beginning. -/
inductive Occurs (handler : Handler) (request : Request) (sink : Sink) : Conversation → Prop where
  | greeted (valid : request.validate = .ok ()) :
    Occurs handler request sink (greeted handler request sink).2
  | turnedAway (valid : request.validate = .ok ())
      (refuses : (handler.greet request).accepts = false) :
    Occurs handler request sink (Session.greeted handler request sink).2.turnedAway
  | answered (welcomes : Welcomes handler request sink) :
    Occurs handler request sink (answered handler request sink)
  | opened (opens : Opens handler request sink) :
    Occurs handler request sink (opened handler request sink)
  | task {conversation : Conversation} {task : Task} {rest : List Task}
      (occurs : Occurs handler request sink conversation)
      (waits : conversation.pending = task :: rest) :
    Occurs handler request sink (runTask handler { conversation with pending := rest } task)
  | message {conversation : Conversation} (occurs : Occurs handler request sink conversation)
      (kind : MessageKind) (payload : Bytes) :
    Occurs handler request sink (conversation.deliver handler kind payload)
  | pong {conversation : Conversation} (occurs : Occurs handler request sink conversation)
      (payload : Bytes) :
    Occurs handler request sink
      { conversation with server := (conversation.server.send .pong payload).2 }
  | parted {conversation : Conversation} (occurs : Occurs handler request sink conversation)
      (outcome : Outcome) :
    Occurs handler request sink (parted conversation outcome)
  | closedDown {conversation : Conversation}
      (occurs : Occurs handler request sink conversation) :
    Occurs handler request sink conversation.closedDown
  | told {conversation : Conversation} (occurs : Occurs handler request sink conversation) :
    Occurs handler request sink
      (conversation.callback handler none handler.part
        (.disconnect conversation.server.state)).2
  | shutDown {conversation : Conversation} (occurs : Occurs handler request sink conversation) :
    Occurs handler request sink { conversation with server := conversation.server.shutDown }

/-- A callback or a task makes these calls in a conversation, and this is the entry that tells of
the answers. -/
inductive Acts (handler : Handler) (request : Request) (sink : Sink) :
    Conversation → Option Delivery → List Call → (List Answer → Entry) → Prop where
  | greeting (valid : request.validate = .ok ()) :
    Acts handler request sink (asking request sink) none (handler.greet request).calls
      (.connect .connecting)
  | task {conversation : Conversation} {delivery : Option Delivery} {calls : List Call}
      {rest : List Task} (occurs : Occurs handler request sink conversation)
      (waits : conversation.pending = .script delivery calls :: rest) :
    Acts handler request sink conversation delivery calls .spawned
  | message {conversation : Conversation} (occurs : Occurs handler request sink conversation)
      (kind : MessageKind) (payload : Bytes) :
    Acts handler request sink conversation (some (kind, payload))
      (handler.reply conversation.server.request conversation.delivered (kind, payload))
      (.message kind payload conversation.server.state)
  | parting {conversation : Conversation} (occurs : Occurs handler request sink conversation) :
    Acts handler request sink conversation none handler.part
      (.disconnect conversation.server.state)

/-- A handler, or a task of it, looks at this server: it has made some of its calls and may make
the next. -/
def Looks (handler : Handler) (request : Request) (sink : Sink) (server : Server) : Prop :=
  ∃ conversation delivery calls entry, Acts handler request sink conversation delivery calls entry ∧
    ∃ made, made <+: calls ∧ server = (conversation.server.performAll delivery made).2

/-- What holds of the server when a handler is asked, and what everything that happens to it in a
session keeps. -/
structure Lasting (handler : Handler) (request : Request) (sink : Sink) (P : Server → Prop) :
    Prop where
  asking : P (asking request sink).server
  calls : ∀ server delivery call, P server → P (server.perform delivery call).2
  detached : (handler.greet request).accepts = false → ∀ server, P server →
    P ({ server with outbound := server.outbound.detach }.advance .disconnected)
  answered : ∀ server, P server → P server.sendHead.2
  opened : ∀ server, P server → P (server.advance .opened)
  closedDown : ∀ server, P server → P (server.detach.advance .disconnected)
  shutDown : ∀ server, P server → P server.shutDown

variable {P : Server → Prop}

theorem Lasting.greeted (lasting : Lasting handler request sink P) :
    P (greeted handler request sink).2.server := by
  rw [Session.greeted, server_callback]
  exact Server.performAll_induction (fun server call => lasting.calls server none call)
    lasting.asking _

theorem Lasting.occurs (lasting : Lasting handler request sink P)
    (occurs : Occurs handler request sink conversation) : P conversation.server := by
  have kept : Kept handler fun conversation => P conversation.server := .ofServer lasting.calls
  induction occurs with
  | greeted valid => exact lasting.greeted
  | turnedAway valid refuses =>
    exact lasting.shutDown _ (lasting.detached refuses _ lasting.greeted)
  | answered welcomes => exact lasting.answered _ lasting.greeted
  | opened opens => exact lasting.opened _ (lasting.answered _ lasting.greeted)
  | task occurs waits ih => exact kept.task _ _ _ waits ih
  | message occurs kind payload ih => exact kept.message _ kind payload ih
  | pong occurs payload ih => exact kept.pong _ payload ih
  | parted occurs outcome ih => exact closeFor_induction lasting.calls ih outcome
  | closedDown occurs ih => exact lasting.closedDown _ ih
  | told occurs ih =>
    rw [server_callback]
    exact Server.performAll_induction (fun server call => lasting.calls server none call) ih _
  | shutDown occurs ih => exact lasting.shutDown _ ih

theorem Lasting.looks (lasting : Lasting handler request sink P)
    {server : Server} (looks : Looks handler request sink server) : P server := by
  obtain ⟨conversation, delivery, calls, entry, acts, made, -, rfl⟩ := looks
  refine Server.performAll_induction (fun server call => lasting.calls server delivery call) ?_ made
  cases acts with
  | greeting valid => exact lasting.asking
  | task occurs waits => exact lasting.occurs occurs
  | message occurs kind payload => exact lasting.occurs occurs
  | parting occurs => exact lasting.occurs occurs

/-! ## Journals -/

/-- The entry tells of calls that are made in a conversation of the session. -/
def Told (handler : Handler) (request : Request) (sink : Sink) (entry : Entry) : Prop :=
  ∃ conversation delivery calls tell, Acts handler request sink conversation delivery calls tell ∧
    entry = tell (conversation.server.performAll delivery calls).1.toList

/-- A conversation that occurs, with a journal of what has happened in the session. -/
structure Tracked (handler : Handler) (request : Request) (sink : Sink)
    (conversation : Conversation) : Prop where
  occurs : Occurs handler request sink conversation
  told : ∀ entry ∈ conversation.journal.toList, Told handler request sink entry

theorem tracked_greeted (valid : request.validate = .ok ()) :
    Tracked handler request sink (greeted handler request sink).2 where
  occurs := .greeted valid
  told entry member := by
    rcases mem_journal_callback member with before | rfl
    · cases before
    · exact ⟨_, _, _, _, .greeting valid, rfl⟩

theorem tracked_kept (handler : Handler) (request : Request) (sink : Sink) :
    Kept handler (Tracked handler request sink) where
  task conversation task rest waits tracked := by
    refine ⟨tracked.occurs.task waits, fun entry member => ?_⟩
    cases task with
    | worker messages => exact tracked.told entry member
    | script delivery calls =>
      rcases mem_journal_callback member with before | rfl
      · exact tracked.told entry before
      · exact ⟨_, _, _, _, .task tracked.occurs waits, rfl⟩
  message conversation kind payload tracked := by
    refine ⟨tracked.occurs.message kind payload, fun entry member => ?_⟩
    rcases mem_journal_callback member with before | rfl
    · exact tracked.told entry before
    · exact ⟨_, _, _, _, .message tracked.occurs kind payload, rfl⟩
  pong conversation payload tracked := ⟨tracked.occurs.pong payload, tracked.told⟩

theorem Tracked.settle (tracked : Tracked handler request sink conversation) :
    Tracked handler request sink (conversation.settle handler) :=
  (tracked_kept handler request sink).settle tracked

theorem Tracked.tearDown (tracked : Tracked handler request sink conversation) :
    Tracked handler request sink (conversation.tearDown handler) := by
  have closed : Tracked handler request sink conversation.closedDown :=
    ⟨tracked.occurs.closedDown, tracked.told⟩
  have ready : Tracked handler request sink (if handler.workers.isEmpty then
      conversation.closedDown else conversation.closedDown.settle handler) := by
    split
    · exact closed
    · exact closed.settle
  refine ⟨ready.occurs.told.shutDown, fun entry member => ?_⟩
  rcases mem_journal_callback member with before | rfl
  · exact ready.told entry before
  · exact ⟨_, _, _, _, .parting ready.occurs, rfl⟩

theorem tracked_conversed (opens : Opens handler request sink) (settings : Settings)
    (inbound : Inbound) :
    Tracked handler request sink (conversed handler settings request inbound sink).2 :=
  (tracked_kept handler request sink).converse
    ⟨.opened opens, (tracked_greeted opens.valid).told⟩ _

/-- Every entry of a journal tells of calls that are made in the session. -/
theorem told_serve (handler : Handler) (settings : Settings) (request : Request)
    (inbound : Inbound) (sink : Sink) :
    ∀ entry ∈ (serve handler settings request inbound sink).journal,
      Told handler request sink entry := by
  have course := course_serve handler settings request inbound sink
  generalize serve handler settings request inbound sink = run at course
  cases course with
  | declined h =>
    cases h with
    | invalid error invalid => nofun
    | blocked valid blocked => exact (tracked_greeted valid).settle.told
    | refused valid returned refuses =>
      have away : Tracked handler request sink (greeted handler request sink).2.turnedAway :=
        ⟨.turnedAway valid refuses, (tracked_greeted valid).told⟩
      exact away.settle.told
  | unanswered error welcomes failed same =>
    subst same
    have answered : Tracked handler request sink (answered handler request sink) :=
      ⟨.answered welcomes, (tracked_greeted welcomes.valid).told⟩
    exact answered.tearDown.settle.told
  | served opens h =>
    have tracked := tracked_conversed opens settings inbound
    cases h with
    | waiting conversation h =>
      rw [h] at tracked
      exact tracked.told
    | ended outcome conversation h =>
      rw [h] at tracked
      have parted : Tracked handler request sink (parted conversation outcome) :=
        ⟨tracked.occurs.parted outcome, tracked.told⟩
      exact parted.tearDown.settle.told

end Session

end WebSocket
