import WebSocket.Proofs.Reassembly.Conformance
import WebSocket.Proofs.Reassembly.Reports
import WebSocket.Proofs.Session.OpenSession

/-!
# What the journal tells

A callback that comes to its end makes one entry, and a task that runs makes one of its own
(`Conversation.journal_settle`). While a session is open, the entries are those of the messages
that its handler hears: each that the peer sends, up to the first on which the handler closes
the session (`Conversation.journal_dispatch`).
-/

namespace WebSocket

namespace Entry

def isTask : Entry → Bool
  | .spawned _ => true
  | _ => false

/-- The message that an entry tells of, and the state in which its callback began. -/
def message? : Entry → Option (Delivery × SessionState)
  | .message kind payload state _ => some ((kind, payload), state)
  | _ => none

end Entry

/-! ## Entries -/

namespace Conversation

variable {handler : Handler} {conversation next last : Conversation}
  {delivery : Option Delivery} {calls : List Call} {entry : List Answer → Entry}

theorem reach_of_length_eq (returned : (conversation.reach delivery calls).length = calls.length) :
    conversation.reach delivery calls = calls := by
  unfold reach at returned ⊢
  split
  · next held =>
    rw [if_pos held] at returned
    exact (List.takeWhile_prefix _).eq_of_length returned
  · rfl

/-- A callback that comes to its end gets through its calls. -/
theorem reach_of_returned
    (returned : (conversation.callback handler delivery calls entry).1 = true) :
    conversation.reach delivery calls = calls := by
  unfold callback perform at returned
  by_cases all : (conversation.reach delivery calls).length = calls.length
  · exact reach_of_length_eq all
  · simp [all] at returned

/-- A callback that comes to its end has made all of its calls and an entry. -/
theorem callback_of_returned (keeps : handler.keepsJournal = true)
    (returned : (conversation.callback handler delivery calls entry).1 = true) :
    (conversation.callback handler delivery calls entry).2 =
      { conversation with
        server := (conversation.server.performAll delivery calls).2
        pending := conversation.pending ++ Call.spawned delivery calls
        journal := conversation.journal.push
          (entry (conversation.server.performAll delivery calls).1.toList) } := by
  have all := reach_of_returned returned
  unfold callback perform
  simp only [all, if_true, note, keeps]

theorem callback_of_free (free : conversation.holdsOutput = false) :
    (conversation.callback handler delivery calls entry).1 = true :=
  returned_callback_of_reach (reach_of_free free _ _)

/-- The journal has got entries of this kind, and nothing else has happened to it. -/
def Adds (P : Entry → Prop) (conversation next : Conversation) : Prop :=
  ∃ entries, next.journal.toList = conversation.journal.toList ++ entries ∧
    ∀ entry ∈ entries, P entry

variable {P : Entry → Prop}

theorem Adds.refl (conversation : Conversation) : Adds P conversation conversation :=
  ⟨[], (List.append_nil _).symm, nofun⟩

theorem Adds.trans (first : Adds P conversation next) (second : Adds P next last) :
    Adds P conversation last := by
  obtain ⟨entries, same, all⟩ := first
  obtain ⟨more, same', all'⟩ := second
  refine ⟨entries ++ more, by rw [same', same, List.append_assoc], fun entry member => ?_⟩
  rcases List.mem_append.mp member with before | after
  · exact all entry before
  · exact all' entry after

theorem adds_callback (h : ∀ answers, P (entry answers)) :
    Adds P conversation (conversation.callback handler delivery calls entry).2 := by
  unfold callback perform
  split
  · next answers after performed =>
    obtain ⟨-, rfl⟩ := Prod.mk.inj performed
    unfold note
    split
    · exact ⟨[entry answers], Array.toList_push, by simpa using h answers⟩
    · exact ⟨[], (List.append_nil _).symm, nofun⟩
  · next after performed =>
    obtain ⟨-, rfl⟩ := Prod.mk.inj performed
    exact ⟨[], (List.append_nil _).symm, nofun⟩

/-- What runs while a session waits, or when it is over, are tasks. -/
theorem journal_settle (handler : Handler) (conversation : Conversation) :
    Adds (·.isTask = true) conversation (conversation.settle handler) := by
  refine settle_induction (P := Adds (·.isTask = true) conversation) ?_ (Adds.refl conversation)
  intro next task rest _ added
  have same : Adds (·.isTask = true) conversation { next with pending := rest } := added
  cases task with
  | script delivery calls => exact same.trans (adds_callback fun _ => rfl)
  | worker messages => exact same

end Conversation

/-! ## What the handler hears -/

def Event.message? : Event → Option Delivery
  | .message kind payload => some (kind, payload)
  | _ => none

/-- The messages that the peer sends, in order. -/
def Inbound.messages (inbound : Inbound) (settings : Settings) : List Delivery :=
  (inbound.heard settings).events.toList.filterMap Event.message?

/-- Of messages numbered from `number` on those that the handler gets to hear: up to the first on
which it makes a call that closes the session. -/
def Handler.hears (handler : Handler) (request : Request) (number : Nat) :
    List Delivery → List Delivery
  | [] => []
  | message :: messages =>
    message ::
      if (handler.reply request number message).any (·.closes (some message)) then []
      else handler.hears request (number + 1) messages

/-- What is heard is what the decoder takes from the bytes. -/
theorem Inbound.heard_eq_decode (inbound : Inbound) (settings : Settings) :
    let decoded := Grammar.decode settings.limits none inbound.blocks.flatten
    (inbound.heard settings).events.toList = decoded.events ∧
      (inbound.heard settings).violation = decoded.fault :=
  Reassembler.feedFrom_eq_decode Reassembler.atFrame_fresh #[]

theorem Inbound.closesLast_heard (inbound : Inbound) (settings : Settings) :
    ClosesLast (inbound.heard settings).events.toList := by
  rw [(inbound.heard_eq_decode settings).1]
  exact Grammar.closesLast_decode settings.limits none inbound.blocks.flatten

theorem Inbound.within_heard (inbound : Inbound) (settings : Settings) :
    ∀ event ∈ (inbound.heard settings).events.toList, event.Within settings.limits := by
  rw [(inbound.heard_eq_decode settings).1]
  exact Grammar.within_decode nofun

namespace Conversation

variable {handler : Handler} {request : Request} {conversation : Conversation}

theorem deliver_of_free (keeps : handler.keepsJournal = true)
    (free : conversation.holdsOutput = false) (kind : MessageKind) (payload : Bytes) :
    let calls := handler.reply conversation.server.request conversation.delivered (kind, payload)
    let made := conversation.server.performAll (some (kind, payload)) calls
    conversation.deliver handler kind payload =
      { conversation with
        server := made.2
        delivered := conversation.delivered + 1
        pending := conversation.pending ++ Call.spawned (some (kind, payload)) calls
        journal := conversation.journal.push
          (.message kind payload conversation.server.state made.1.toList) } :=
  callback_of_returned keeps (callback_of_free free)

/-- The conversation of an open session that has heard `number` messages. -/
structure Listens (request : Request) (number : Nat) (conversation : Conversation) : Prop where
  free : conversation.holdsOutput = false
  serving : conversation.server.Serving
  asked : conversation.server.request = request
  heard : conversation.delivered = number

/-- A message is heard whatever the journal tells of it. -/
theorem Listens.hear {number : Nat} (listens : conversation.Listens request number)
    (handler : Handler) (kind : MessageKind) (payload : Bytes) :
    let calls := handler.reply request number (kind, payload)
    let next := conversation.deliver handler kind payload
    next.Listens request (number + 1) ∧
      next.server = (conversation.server.performAll (some (kind, payload)) calls).2 := by
  obtain ⟨free, serving, rfl, rfl⟩ := listens
  have all (calls : List Call) : ({ conversation with
      delivered := conversation.delivered + 1 } : Conversation).reach (some (kind, payload)) calls =
        calls := reach_of_free free _ _
  dsimp only
  rw [deliver, callback_snd, all]
  exact ⟨⟨free, serving.performAll _ _, Server.request_performAll .., rfl⟩, rfl⟩

/-- While the flag is down a message is heard in an open session. -/
theorem Listens.deliver (keeps : handler.keepsJournal = true) {number : Nat}
    (listens : conversation.Listens request number)
    (further : conversation.server.closing = false) (kind : MessageKind) (payload : Bytes) :
    let calls := handler.reply request number (kind, payload)
    let next := conversation.deliver handler kind payload
    next.Listens request (number + 1) ∧
      next.server.closing = calls.any (·.closes (some (kind, payload))) ∧
      ∃ answers, next.journal.toList =
        conversation.journal.toList ++ [.message kind payload .opened answers] := by
  obtain ⟨heard, made⟩ := listens.hear handler kind payload
  have now : conversation.server.state = .opened := by rw [listens.serving.state, further]; rfl
  refine ⟨heard, ?_, ?_⟩
  · rw [made, listens.serving.closing_performAll, further, Bool.false_or]
  · rw [deliver_of_free keeps listens.free, now]
    exact ⟨_, Array.toList_push⟩

/-- Answering a ping changes nothing of this. -/
theorem Listens.answer {number : Nat} (listens : conversation.Listens request number)
    (payload : Bytes) :
    { conversation with server := (conversation.server.send .pong payload).2 }.Listens request
      number where
  free := listens.free
  serving := listens.serving.perform none (.send .pong payload)
  asked := (Server.request_perform _ none (.send .pong payload)).trans listens.asked
  heard := listens.heard

theorem Listens.pong {number : Nat} (listens : conversation.Listens request number)
    (further : conversation.server.closing = false) (payload : Bytes) :
    let next := { conversation with server := (conversation.server.send .pong payload).2 }
    next.Listens request number ∧ next.server.closing = false := by
  refine ⟨listens.answer payload, ?_⟩
  dsimp only
  rw [Server.send_snd, Server.closing_trySend listens.serving.marked (by decide), further]

/-- The entries are those of the messages that the handler hears, each in an open session. -/
theorem journal_dispatch (settings : Settings) (keeps : handler.keepsJournal = true)
    {events : List Event} {number : Nat} (last : ClosesLast events)
    (listens : conversation.Listens request number)
    (further : conversation.server.closing = false) :
    ∃ entries, (conversation.dispatch handler settings events).2.journal.toList =
        conversation.journal.toList ++ entries ∧
      entries.map Entry.message? =
        (handler.hears request number (events.filterMap Event.message?)).map
          fun message => some (message, .opened) := by
  induction events generalizing conversation number with
  | nil => exact ⟨[], (List.append_nil _).symm, rfl⟩
  | cons event events ih =>
    cases event with
    | message kind payload =>
      obtain ⟨listens, closes, answers, entered⟩ := listens.deliver keeps further kind payload
      simp only [dispatch, Event.message?, List.filterMap_cons, Handler.hears, closes]
      cases done : (handler.reply request number (kind, payload)).any
          (·.closes (some (kind, payload))) with
      | true => exact ⟨_, entered, rfl⟩
      | false =>
        obtain ⟨entries, same, heard⟩ := ih last.tail listens (closes.trans done)
        refine ⟨.message kind payload .opened answers :: entries, ?_, congrArg (_ :: ·) heard⟩
        exact same.trans (by rw [entered, List.append_assoc, List.singleton_append])
    | ping payload =>
      obtain ⟨answered, still⟩ := listens.pong further payload
      exact ih last.tail answered still
    | close payload =>
      obtain rfl := last [] payload events rfl
      exact ⟨[], (List.append_nil _).symm, rfl⟩

end Conversation

namespace Session

open Conversation

variable {handler : Handler} {request : Request} {sink : Sink}

/-- A handler that comes to the end of its calls while it is being asked sends nothing. -/
theorem silent_of_returned (returned : (greeted handler request sink).1 = true) :
    ∀ call ∈ (handler.greet request).calls, call.message? none = none := by
  intro call member
  rw [← reach_of_returned returned] at member
  exact message?_of_mem_reach rfl member

theorem server_greeted_of_returned (returned : (greeted handler request sink).1 = true) :
    (greeted handler request sink).2.server =
      (((Server.ofRequest request sink).advance .connecting).performAll none
        (handler.greet request).calls).2 := by
  have all := reach_of_returned returned
  rw [greeted, server_callback, all]

theorem listens_opened (opens : Opens handler request sink) :
    (opened handler request sink).Listens request 0 where
  free := rfl
  serving := opens.serving_opened
  asked := by
    obtain ⟨chosen, extra, same⟩ := opens.server_opened
    rw [same]
    rfl
  heard := by
    have counted : (opened handler request sink).delivered =
        (greeted handler request sink).2.delivered := rfl
    rw [counted, greeted, callback_snd]

end Session

end WebSocket
