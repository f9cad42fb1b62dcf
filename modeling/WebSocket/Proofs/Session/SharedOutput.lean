import WebSocket.Proofs.Session.Admission

/-!
# Sharing the output

A handler, its tasks and the connection itself send through one output, each message under a lock
that is held for the whole frame. What the parties do is therefore a list of turns, in the order
in which they get the lock; nothing is assumed about that order. Detaching the output takes the
connection two turns: it raises the flag after it has given the lock back, and others may get
their turn between the two.

Whatever the order, the wire carries the frames of the sends that succeeded, in the order of
their turns, and from the first close frame or the detaching on every send is turned down
(`sent_takeAll`).
-/

namespace WebSocket

/-- What a party does with the output while it has the lock. -/
inductive Turn where
  /-- A call on any handle of the session. -/
  | call (delivery : Option Delivery) (call : Call)
  | detach
  /-- The second half of detaching. -/
  | raise
  deriving Repr

/-- What a call is answered that finds the output closed, if it is one that sends. -/
def Call.turnedDown? : Call → Option Answer
  | .send .. | .echo | .close => some (.count 0)
  | .trySend .. => some (.failed .connectionClosed)
  | .closeWith frame =>
    match frame.encode with
    | .error error => some (.failed error)
    | .ok _ => some (.failed .connectionClosed)
  | _ => none

namespace Server

variable {server : Server} {turn : Turn} {turns : List Turn}

def take (server : Server) : Turn → Server
  | .call delivery call => (server.perform delivery call).2
  | .detach => { server with outbound := server.outbound.detach }
  | .raise => server.markClosing

def takeAll (server : Server) (turns : List Turn) : Server := turns.foldl take server

/-- The message that is put to the output in a turn, if sending it succeeds. -/
def sent? (server : Server) : Turn → Option (MessageKind × Bytes)
  | .call delivery call =>
    (call.message? delivery).filter fun message => (server.trySend message.1 message.2).1.isOk
  | .detach | .raise => none

/-- The messages whose sending succeeds, in the order of the turns. -/
def sent (server : Server) : List Turn → List (MessageKind × Bytes)
  | [] => []
  | turn :: turns => (server.sent? turn).toList ++ (server.take turn).sent turns

/-- The session's own detaching is two turns without another one between. -/
theorem detach_eq_takeAll (server : Server) : server.detach = server.takeAll [.detach, .raise] :=
  rfl

/-! ## One turn -/

theorem perform_of_turnedDown {delivery : Option Delivery} {call : Call} {answer : Answer}
    (closed : server.outbound.closing = true) (down : call.turnedDown? = some answer) :
    (server.perform delivery call).1 = answer := by
  have refused (kind : MessageKind) (payload : Bytes) : (server.send kind payload).1 = 0 := by
    simp only [send, trySend_of_closing closed]
  cases call with
  | send kind payload =>
    cases down
    exact congrArg Answer.count (refused kind payload)
  | trySend kind payload =>
    cases down
    simp only [perform, trySend_of_closing closed, Answer.ofCount]
  | echo =>
    cases down
    cases delivery with
    | none => rfl
    | some message => exact congrArg Answer.count (refused message.1 message.2)
  | close =>
    cases down
    exact congrArg Answer.count (refused .close [])
  | closeWith frame =>
    simp only [Call.turnedDown?] at down
    split at down
    · next error encoded =>
      cases down
      simp only [perform, closeWith, encoded, Answer.ofCount]
    · next payload encoded =>
      cases down
      simp only [perform, closeWith, encoded, trySend_of_closing closed, Answer.ofCount]
  | _ => cases down

/-- The first to be turned down raises the flag, if the connection has not done so yet. -/
theorem closing_perform_of_message {delivery : Option Delivery} {call : Call}
    (closed : server.outbound.closing = true) (sends : (call.message? delivery).isSome) :
    (server.perform delivery call).2.closing = true := by
  obtain ⟨⟨kind, payload⟩, h⟩ := Option.isSome_iff_exists.mp sends
  rw [perform_of_message h, trySend_of_closing closed]
  exact closing_markClosing server

theorem closing_trySend_of_closing (up : server.closing = true) (kind : MessageKind)
    (payload : Bytes) : (server.trySend kind payload).2.closing = true := by
  simp only [trySend]
  split
  · exact closing_markClosing _
  · exact up

/-- A flag that is up stays up. -/
theorem closing_take (up : server.closing = true) (turn : Turn) :
    (server.take turn).closing = true := by
  cases turn with
  | call delivery call =>
    exact perform_induction (P := fun after => after.closing = true)
      (fun kind payload _ => closing_trySend_of_closing up kind payload) (fun _ _ _ => up)
  | detach => exact up
  | raise => exact closing_markClosing server

theorem sent?_of_closing (closed : server.outbound.closing = true) (turn : Turn) :
    server.sent? turn = none := by
  cases turn with
  | call delivery call =>
    simp [sent?, trySend_of_closing closed, Except.isOk, Except.toBool]
  | _ => rfl

/-- The sink of a closed output gets nothing more. -/
theorem take_of_closing (closed : server.outbound.closing = true) (turn : Turn) :
    (server.take turn).outbound.closing = true ∧
      (server.take turn).outbound.sink = server.outbound.sink := by
  cases turn with
  | call delivery call =>
    have same := outbound_perform_of_closing closed delivery call
    simp only [take, same, closed, and_self]
  | detach => exact ⟨rfl, rfl⟩
  | raise =>
    simp only [take, outbound_markClosing, closed, and_self]

/-- What a turn does to an output that is open and takes all: nothing, or it closes it without
sending, or it sends one message. -/
inductive Taken (server : Server) (turn : Turn) : Prop where
  | nothing (unsent : server.sent? turn = none) (further : turn ≠ .detach)
      (same : (server.take turn).outbound = server.outbound)
  | detached (detaches : turn = .detach)
  | message (kind : MessageKind) (payload : Bytes)
      (sends : server.sent? turn = some (kind, payload))
      (admitted : (server.take turn).outbound = server.outbound.push kind payload)
      (marks : kind = .close → (server.take turn).closing = true)

theorem taken (takes : server.outbound.sink.TakesAll) (turn : Turn) : Taken server turn := by
  cases turn with
  | detach => exact .detached rfl
  | raise => exact .nothing rfl nofun (outbound_markClosing server)
  | call delivery call =>
    cases message : call.message? delivery with
    | none =>
      obtain ⟨chosen, extra, same⟩ := perform_of_no_message server message
      exact .nothing (by simp [sent?, message]) nofun (congrArg (·.outbound) same)
    | some put =>
      obtain ⟨kind, payload⟩ := put
      have performed : server.take (.call delivery call) = (server.trySend kind payload).2 :=
        perform_of_message message
      cases refused : server.outbound.refusal? kind payload with
      | some error =>
        have unsent : (server.trySend kind payload).1 = .error error := by
          simp only [trySend, Outbound.send_of_refused refused]
        refine .nothing ?_ nofun ?_
        · simp [sent?, message, unsent, Except.isOk, Except.toBool]
        · rw [performed, outbound_trySend, Outbound.send_of_refused refused]
      | none =>
        have through := Outbound.send_of_admitted refused
        have succeeded : (server.trySend kind payload).1 = .ok payload.length := by
          simp only [trySend, through, Sink.send_of_takesAll takes]
          rfl
        refine .message kind payload ?_ ?_ ?_
        · simp [sent?, message, succeeded, Except.isOk, Except.toBool]
        · rw [performed, outbound_trySend, through]
        · rintro rfl
          rw [performed]
          refine marked_trySend server .close payload ?_
          rw [outbound_trySend, through]
          exact Bool.or_true _

/-! ## Many turns -/

theorem closing_takeAll (up : server.closing = true) (turns : List Turn) :
    (server.takeAll turns).closing = true := by
  induction turns generalizing server with
  | nil => exact up
  | cons turn turns ih => exact ih (closing_take up turn)

theorem closing_takeAll_of_raise (raised : Turn.raise ∈ turns) :
    (server.takeAll turns).closing = true := by
  induction turns generalizing server with
  | nil => cases raised
  | cons turn turns ih =>
    rcases List.mem_cons.mp raised with rfl | later
    · exact closing_takeAll (closing_markClosing server) turns
    · exact ih later

theorem takeAll_of_closing (closed : server.outbound.closing = true) (turns : List Turn) :
    (server.takeAll turns).outbound.closing = true ∧
      (server.takeAll turns).outbound.sink = server.outbound.sink ∧ server.sent turns = [] := by
  induction turns generalizing server with
  | nil => exact ⟨closed, rfl, rfl⟩
  | cons turn turns ih =>
    obtain ⟨still, same⟩ := take_of_closing closed turn
    obtain ⟨closed', same', nothing⟩ := ih still
    refine ⟨closed', same'.trans same, ?_⟩
    simp only [sent, sent?_of_closing closed, Option.toList_none, List.nil_append, nothing]

/-- What turns come to, one after another. -/
structure Shared (server : Server) (turns : List Turn) : Prop where
  written : (server.takeAll turns).outbound.sink.written.toList =
    server.outbound.sink.written.toList ++ Frame.encodeAll (server.sent turns)
  last : LastIfClose (server.sent turns)
  closed : (Turn.detach ∈ turns ∨ ∃ payload, (.close, payload) ∈ server.sent turns) →
    (server.takeAll turns).outbound.closing = true
  marked : (∃ payload, (.close, payload) ∈ server.sent turns) →
    (server.takeAll turns).closing = true

/-- A turn that closes the output is the last one that does anything. -/
theorem Shared.ofClosing {message : Option (MessageKind × Bytes)}
    (sends : server.sent? turn = message)
    (written : (server.take turn).outbound.sink.written.toList =
      server.outbound.sink.written.toList ++ Frame.encodeAll message.toList)
    (closed : (server.take turn).outbound.closing = true)
    (marks : ∀ final, message = some final → (server.take turn).closing = true)
    (turns : List Turn) : Shared server (turn :: turns) := by
  obtain ⟨still, same, nothing⟩ := takeAll_of_closing closed turns
  have only : server.sent (turn :: turns) = message.toList := by
    simp only [sent, sends, nothing, List.append_nil]
  have after : server.takeAll (turn :: turns) = (server.take turn).takeAll turns := rfl
  refine ⟨?_, ?_, fun _ => still, ?_⟩
  · rw [after, same, only, written]
  · intro front final back split _
    rw [only] at split
    have count := congrArg List.length split
    have short : message.toList.length ≤ 1 := by cases message <;> simp
    simp only [List.length_append, List.length_cons] at count
    exact List.eq_nil_of_length_eq_zero (by omega)
  · rintro ⟨payload, member⟩
    rw [only, Option.mem_toList] at member
    exact closing_takeAll (marks _ member) turns

/-- A turn that leaves the output open. -/
theorem Shared.cons {message : Option (MessageKind × Bytes)} (sends : server.sent? turn = message)
    (written : (server.take turn).outbound.sink.written.toList =
      server.outbound.sink.written.toList ++ Frame.encodeAll message.toList)
    (further : ∀ next, message = some next → next.1 ≠ .close) (other : turn ≠ .detach)
    (rest : Shared (server.take turn) turns) : Shared server (turn :: turns) := by
  have all : server.sent (turn :: turns) = message.toList ++ (server.take turn).sent turns := by
    simp only [sent, sends]
  have later {payload : Bytes} (member : (.close, payload) ∈ server.sent (turn :: turns)) :
      (.close, payload) ∈ (server.take turn).sent turns := by
    rw [all, List.mem_append, Option.mem_toList] at member
    exact member.resolve_left fun now => further _ now rfl
  refine ⟨?_, ?_, ?_, fun ⟨payload, member⟩ => rest.marked ⟨payload, later member⟩⟩
  · have behind : (server.takeAll (turn :: turns)).outbound.sink.written.toList =
        (server.take turn).outbound.sink.written.toList ++
          Frame.encodeAll ((server.take turn).sent turns) := rest.written
    rw [behind, written, all]
    simp [Frame.encodeAll]
  · rw [all]
    cases message with
    | none => exact rest.last
    | some next =>
      intro front final back split close
      cases front with
      | nil =>
        obtain ⟨rfl, -⟩ := List.cons.inj split
        exact absurd close (further next rfl)
      | cons first front => exact rest.last front final back (List.cons.inj split).2 close
  · rintro (detached | ⟨payload, member⟩)
    · exact rest.closed (.inl ((List.mem_cons.mp detached).resolve_left other.symm))
    · exact rest.closed (.inr ⟨payload, later member⟩)

theorem Shared.nil (server : Server) : Shared server [] where
  written := by simp [takeAll, sent, Frame.encodeAll]
  last front message back split := by simp [sent] at split
  closed := by simp [sent]
  marked := by simp [sent]

theorem shared (takes : server.outbound.sink.TakesAll) (turns : List Turn) :
    Shared server turns := by
  induction turns generalizing server with
  | nil => exact .nil server
  | cons turn turns ih =>
    cases taken takes turn with
    | detached detaches =>
      subst detaches
      have unsent : server.sent? .detach = none := rfl
      exact .ofClosing unsent (List.append_nil _).symm rfl nofun turns
    | nothing unsent other same =>
      refine .cons unsent ?_ nofun other (ih (same ▸ takes))
      rw [same]
      exact (List.append_nil _).symm
    | message kind payload sends admitted marks =>
      have frame : (server.take turn).outbound.sink =
          { server.outbound.sink with
            written := server.outbound.sink.written ++ Frame.encode kind payload } := by
        rw [admitted, Outbound.push, Sink.send_of_takesAll takes]
      have written : (server.take turn).outbound.sink.written.toList =
          server.outbound.sink.written.toList ++ Frame.encodeAll [(kind, payload)] := by
        simp [frame, Frame.encodeAll]
      by_cases close : kind = .close
      · have closed : (server.take turn).outbound.closing = true := by
          simp [admitted, Outbound.push, close]
        exact .ofClosing sends written closed (fun _ _ => marks close) turns
      · have other : turn ≠ .detach := by
          rintro rfl
          cases sends
        have takes : (server.take turn).outbound.sink.TakesAll := by
          rw [frame]
          exact takes
        refine .cons sends written ?_ other (ih takes)
        rintro next same
        cases same
        exact close

/-- **Nothing follows a close frame, whatever the order of the senders.** Over a sink that takes
all, the wire carries the frames of exactly the sends that succeeded, in the order of their
turns, and a close frame only as the last. From the first close frame or the detaching on, no
call writes anything, each call that sends is turned down, and the flag is up: it is raised
together with the close frame, by the connection after it has detached, or by whoever is turned
down before that. -/
theorem sent_takeAll (server : Server) (takes : server.outbound.sink.TakesAll)
    (turns : List Turn) :
    let after := server.takeAll turns
    let sent := server.sent turns
    let closed := ∃ payload, (.close, payload) ∈ sent
    after.outbound.sink.written.toList =
        server.outbound.sink.written.toList ++ Frame.encodeAll sent ∧
      LastIfClose sent ∧
      (Turn.detach ∈ turns ∨ closed → ∀ delivery call,
        (after.perform delivery call).2.outbound = after.outbound ∧
          (∀ answer, call.turnedDown? = some answer →
            (after.perform delivery call).1 = answer) ∧
          ((call.message? delivery).isSome → (after.perform delivery call).2.closing = true)) ∧
      (Turn.raise ∈ turns ∨ closed → after.closing = true) := by
  have h := shared takes turns
  refine ⟨h.written, h.last, ?_, ?_⟩
  · intro closes delivery call
    have closed := h.closed closes
    exact ⟨outbound_perform_of_closing closed delivery call,
      fun _ down => perform_of_turnedDown closed down, closing_perform_of_message closed⟩
  · rintro (raised | sent)
    · exact closing_takeAll_of_raise raised
    · exact h.marked sent

/-- A close frame that is too large is no close frame; what comes behind one that is sent, or
behind the detaching, is turned down. -/
theorem sent_takeAll_closed :
    let server := Server.ofRequest { method := "GET", path := "/", headers := {} } {}
    let turns : List Turn :=
      [.call none (.send .text [72]), .call none (.trySend .close (List.replicate 126 0)),
        .call none (.closeWith ⟨.normal, ""⟩), .call none (.send .text [73]), .detach,
        .call none .close]
    let after := server.takeAll turns
    server.outbound.sink.TakesAll ∧
      after.outbound.sink.written.toList = [0x81, 1, 72, 0x88, 2, 3, 232] ∧
      (after.perform none (.trySend .pong [1])).1 = .failed .connectionClosed ∧
      after.closing = true := by
  intro server turns after
  have takes : server.outbound.sink.TakesAll := ⟨rfl, rfl⟩
  obtain ⟨written, -, down, up⟩ := sent_takeAll server takes turns
  have sent : server.sent turns = [(.text, [72]), (.close, [3, 232])] := by decide +kernel
  have closed : ∃ payload, (.close, payload) ∈ server.sent turns := ⟨[3, 232], by simp [sent]⟩
  refine ⟨takes, ?_, ?_, up (.inr closed)⟩
  · have frames : server.outbound.sink.written.toList ++
        Frame.encodeAll [(.text, [72]), (.close, [3, 232])] =
          [0x81, 1, 72, 0x88, 2, 3, 232] := by decide +kernel
    rw [written, sent, frames]
  · exact (down (.inr closed) none (.trySend .pong [1])).2.1 _ rfl

end Server

end WebSocket
