import WebSocket.Proofs.Session.FieldCalls
import WebSocket.Proofs.Session.Lifecycle

/-!
# The announced subprotocol

What the head announces and what the session takes for its subprotocol are two things that calls
set. While the handler is being asked the last value set for the field is what the head shows, and
without one it is the subprotocol that was chosen last (`Session.Opens.announced_head`). A session
tells a handler at any time what was chosen last (`TellChoice`), also when this was after the head
was written. So the two agree as long as no call after the opening chooses another subprotocol and
none before it sets the field by hand (`Session.serve_announcement`).
-/

namespace WebSocket

/-! ## Choices -/

namespace Call

/-- The subprotocol that a call chooses. -/
def chooses? : Call → Option String
  | .setProtocol name => if breaksLine name then none else some name
  | _ => none

/-- The value that a call sets for the field with this name. -/
def sets? (name : String) : Call → Option String
  | .setHeader other value =>
    if (checkField other value).isOk && Text.equalsIgnoringCase name other then some value else none
  | _ => none

/-- What is chosen when calls have been made. -/
def chosenAfter (chosen : Option String) (calls : List Call) : Option String :=
  calls.foldl (fun chosen call => call.chooses?.or chosen) chosen

/-- The values that are set for a name are those of the fields that are set. -/
theorem valuesOf_filterMap_field? (name : String) (calls : List Call) :
    valuesOf name (calls.filterMap field?) = calls.filterMap (·.sets? name) := by
  induction calls with
  | nil => rfl
  | cons call calls ih =>
    cases call with
    | setHeader other value =>
      by_cases unbroken : Unbroken (other, value)
      · have fit : checkField other value = .ok () := checkField_eq_ok_iff.mpr unbroken
        simp only [List.filterMap_cons, field?, sets?, if_pos unbroken, fit, valuesOf_cons, ih]
        cases Text.equalsIgnoringCase name other <;> rfl
      · have unfit := checkField_of_not_unbroken unbroken
        simp only [List.filterMap_cons, field?, sets?, if_neg unbroken, unfit]
        exact ih
    | _ => exact ih

theorem chosenAfter_append (chosen : Option String) (calls others : List Call) :
    chosenAfter chosen (calls ++ others) = chosenAfter (chosenAfter chosen calls) others :=
  List.foldl_append

/-- Calls that choose nothing leave the choice as it is. -/
theorem chosenAfter_of_none {calls : List Call} (settled : ∀ call ∈ calls, call.chooses? = none)
    (chosen : Option String) : chosenAfter chosen calls = chosen := by
  induction calls with
  | nil => rfl
  | cons call calls ih =>
    obtain ⟨first, others⟩ := List.forall_mem_cons.mp settled
    rw [chosenAfter, List.foldl_cons, first]
    exact ih others

end Call

namespace Server

variable {server : Server} {delivery : Option Delivery} {call : Call} {calls : List Call}
  {name : String}

theorem chosen_setProtocol (server : Server) (name : String) :
    (server.setProtocol name).2.chosen =
      if breaksLine name then server.chosen else some name := by
  have fit : breaksLine "Sec-WebSocket-Protocol" = false := by decide
  cases breaks : breaksLine name <;> simp [setProtocol, checkField, fit, breaks]

/-- A call chooses a subprotocol, or it leaves the choice as it is. -/
theorem chosen_perform (server : Server) (delivery : Option Delivery) (call : Call) :
    (server.perform delivery call).2.chosen = call.chooses?.or server.chosen := by
  cases message : call.message? delivery with
  | some put =>
    rw [perform_of_message message, (announced_trySend ..).1]
    cases call with
    | setProtocol name => cases message
    | _ => rfl
  | none =>
    cases call with
    | setProtocol name =>
      refine (chosen_setProtocol server name).trans ?_
      rw [Call.chooses?]
      split <;> rfl
    | setHeader name value =>
      simp only [perform, setHeader]
      split
      · rfl
      · split <;> rfl
    | send | trySend | close => cases message
    | echo =>
      cases message
      rfl
    | closeWith frame =>
      simp only [perform, closeWith]
      split
      · rfl
      · exact (announced_trySend ..).1
    | _ => rfl

theorem chosen_performAll (server : Server) (delivery : Option Delivery) (calls : List Call) :
    (server.performAll delivery calls).2.chosen = Call.chosenAfter server.chosen calls := by
  induction calls generalizing server with
  | nil => rfl
  | cons call calls ih =>
    rw [performAll_cons, Call.chosenAfter, List.foldl_cons, ← server.chosen_perform delivery call]
    exact ih _

theorem length_performAll (server : Server) (delivery : Option Delivery) (calls : List Call) :
    (server.performAll delivery calls).1.toList.length = calls.length := by
  induction calls generalizing server with
  | nil => rfl
  | cons call calls ih => simp [performAll_cons, ih]

end Server

/-! ## Answers -/

/-- Calls with their answers, where each that asks for the choice is told it as it stands, when
`chosen` is the choice at first. -/
def TellChoice (chosen : Option String) : List (Call × Answer) → Prop
  | [] => True
  | (call, answer) :: exchanges =>
    (call = .chosenProtocol → answer = .ofText? chosen) ∧
      TellChoice (call.chooses?.or chosen) exchanges

theorem tellChoice_append_iff {chosen : Option String} {front back : List (Call × Answer)} :
    TellChoice chosen (front ++ back) ↔
      TellChoice chosen front ∧ TellChoice (Call.chosenAfter chosen (front.map (·.1))) back := by
  induction front generalizing chosen with
  | nil => exact ⟨fun tell => ⟨trivial, tell⟩, And.right⟩
  | cons exchange front ih =>
    rw [List.cons_append, TellChoice, ih, TellChoice, and_assoc]
    rfl

/-- An answer tells what the calls before it have chosen. -/
theorem TellChoice.answer_eq {chosen : Option String} {front back : List (Call × Answer)}
    {answer : Answer} (tell : TellChoice chosen (front ++ (.chosenProtocol, answer) :: back)) :
    answer = .ofText? (Call.chosenAfter chosen (front.map (·.1))) :=
  (tellChoice_append_iff.mp tell).2.1 rfl

theorem Server.tellChoice_performAll (server : Server) (delivery : Option Delivery)
    (calls : List Call) :
    TellChoice server.chosen (calls.zip (server.performAll delivery calls).1.toList) := by
  induction calls generalizing server with
  | nil => trivial
  | cons call calls ih =>
    rw [performAll_cons, Array.toList_append, List.singleton_append, List.zip_cons_cons, TellChoice,
      ← server.chosen_perform delivery call]
    refine ⟨?_, ih _⟩
    rintro rfl
    rfl

/-! ## What was called and answered -/

namespace Entry

def answers : Entry → List Answer
  | .connect _ answers | .message _ _ _ answers => answers
  | .disconnect _ answers | .spawned answers => answers

/-- The calls that an entry tells the answers to, when this is known of the entries before it. -/
def calls (handler : Handler) (request : Request) (chronicle : Chronicle) : Entry → List Call
  | .connect .. => (handler.greet request).calls
  | .message kind payload .. => handler.reply request chronicle.received (kind, payload)
  | .disconnect .. => handler.part
  | .spawned _ => chronicle.waiting.headD []

def exchangesFrom (handler : Handler) (request : Request) :
    Chronicle → List Entry → List (Call × Answer)
  | _, [] => []
  | chronicle, entry :: journal =>
    (entry.calls handler request chronicle).zip entry.answers ++
      exchangesFrom handler request (chronicle.follow handler request entry) journal

/-- All calls that a journal tells of, in order, with their answers. -/
def exchanges (handler : Handler) (request : Request) (journal : List Entry) :
    List (Call × Answer) :=
  exchangesFrom handler request {} journal

variable {handler : Handler} {request : Request}

theorem exchangesFrom_append (chronicle : Chronicle) (journal others : List Entry) :
    exchangesFrom handler request chronicle (journal ++ others) =
      exchangesFrom handler request chronicle journal ++
        exchangesFrom handler request (journal.foldl (Chronicle.follow handler request) chronicle)
          others := by
  induction journal generalizing chronicle with
  | nil => rfl
  | cons entry journal ih =>
    rw [List.cons_append, exchangesFrom, ih, exchangesFrom, List.append_assoc]
    rfl

theorem exchanges_push (journal : Array Entry) (entry : Entry) :
    exchanges handler request (journal.push entry).toList =
      exchanges handler request journal.toList ++
        (entry.calls handler request (.ofJournal handler request journal.toList)).zip
          entry.answers := by
  rw [exchanges, Array.toList_push, exchangesFrom_append, exchangesFrom, exchangesFrom,
    List.append_nil]
  rfl

end Entry

namespace Conversation

variable {handler : Handler} {request : Request} {conversation next : Conversation}
  {asked : List (Call × Answer)} {chosen : Option String} {delivery : Option Delivery}
  {calls : List Call} {entry : List Answer → Entry}

/-- Behind what was asked at first, with the choice as it was then, the journal tells each choice
as it stood, and the session as it stands. -/
def Recounts (handler : Handler) (request : Request) (asked : List (Call × Answer))
    (chosen : Option String) (conversation : Conversation) : Prop :=
  ∃ later, Entry.exchanges handler request conversation.journal.toList = asked ++ later ∧
    TellChoice chosen later ∧
    conversation.server.chosen = Call.chosenAfter chosen (later.map (·.1))

theorem Recounts.of_eq (recounts : conversation.Recounts handler request asked chosen)
    (journal : next.journal = conversation.journal)
    (same : next.server.chosen = conversation.server.chosen) :
    next.Recounts handler request asked chosen := by
  unfold Recounts
  rw [journal, same]
  exact recounts

/-- A callback is told of by the entry that it makes. -/
theorem Recounts.callback (keeps : handler.keepsJournal = true)
    (recounts : conversation.Recounts handler request asked chosen)
    (returned : (conversation.callback handler delivery calls entry).1 = true)
    (made : ∀ answers, (entry answers).calls handler request
      (.ofJournal handler request conversation.journal.toList) = calls)
    (told : ∀ answers, (entry answers).answers = answers) :
    (conversation.callback handler delivery calls entry).2.Recounts handler request asked
      chosen := by
  obtain ⟨later, exchanged, tell, stands⟩ := recounts
  have firsts : (calls.zip (conversation.server.performAll delivery calls).1.toList).map (·.1) =
      calls := List.map_fst_zip (Server.length_performAll ..).ge
  rw [callback_of_returned keeps returned]
  refine ⟨later ++ calls.zip (conversation.server.performAll delivery calls).1.toList, ?_, ?_, ?_⟩
  · rw [Entry.exchanges_push, made, told, exchanged, List.append_assoc]
  · rw [tellChoice_append_iff, ← stands]
    exact ⟨tell, conversation.server.tellChoice_performAll delivery calls⟩
  · rw [List.map_append, firsts, Call.chosenAfter_append, ← stands]
    exact Server.chosen_performAll ..

theorem recounts_kept (keeps : handler.keepsJournal = true) (request : Request)
    (asked : List (Call × Answer)) (chosen : Option String) :
    Kept handler fun conversation =>
      (conversation.holdsOutput = false ∧ Chronicled handler request conversation) ∧
        conversation.Recounts handler request asked chosen where
  task conversation task rest waits h := by
    obtain ⟨⟨free, chronicled⟩, recounts⟩ := h
    refine ⟨(chronicled_kept keeps request).task _ _ _ waits ⟨free, chronicled⟩, ?_⟩
    have queue := chronicled.agrees.waiting
    rw [waits, List.map_cons] at queue
    obtain ⟨calls, waiting, known, first, -⟩ := List.map_eq_cons_iff.mp queue.symm
    cases task with
    | worker messages => cases first
    | script delivery calls =>
      cases first
      have ready : Recounts handler request asked chosen { conversation with pending := rest } :=
        recounts
      refine ready.callback keeps (callback_of_free free) (fun answers => ?_) fun _ => rfl
      simp only [Entry.calls, known, List.headD_cons]
  message conversation kind payload h := by
    obtain ⟨⟨free, chronicled⟩, recounts⟩ := h
    refine ⟨(chronicled_kept keeps request).message _ kind payload ⟨free, chronicled⟩, ?_⟩
    have counted : Recounts handler request asked chosen
        { conversation with delivered := conversation.delivered + 1 } := recounts
    refine counted.callback keeps (callback_of_free free) (fun answers => ?_) fun _ => rfl
    rw [chronicled.asked, chronicled.agrees.received]
    rfl
  pong conversation payload h :=
    ⟨(chronicled_kept keeps request).pong _ payload h.1,
      h.2.of_eq rfl (conversation.server.chosen_perform none (.send .pong payload))⟩

theorem chosen_closeFor (server : Server) (outcome : Outcome) :
    (closeFor server outcome).chosen = server.chosen := by
  unfold closeFor
  split
  · split
    · next code _ => exact server.chosen_perform none (.closeWith ⟨code, ""⟩)
    · rfl
  · next frame => exact server.chosen_perform none (.send .close _)
  · exact server.chosen_perform none .close
  · exact server.chosen_perform none .close
  · exact server.chosen_perform none .close
  · rfl
  · rfl

theorem chosen_detach (server : Server) : server.detach.chosen = server.chosen := by
  unfold Server.detach Server.markClosing
  split <;> rfl

theorem chosen_sendHead (server : Server) : server.sendHead.2.chosen = server.chosen := by
  unfold Server.sendHead
  split <;> rfl

theorem Recounts.tearDown (keeps : handler.keepsJournal = true) (idle : handler.workers = [])
    (free : conversation.holdsOutput = false)
    (recounts : conversation.Recounts handler request asked chosen) :
    (conversation.tearDown handler).Recounts handler request asked chosen := by
  have down : conversation.closedDown.Recounts handler request asked chosen :=
    recounts.of_eq rfl (chosen_detach conversation.server)
  have free : conversation.closedDown.holdsOutput = false := free
  rw [tearDown_of_idle idle]
  have told : (conversation.closedDown.callback handler none handler.part
      (.disconnect .disconnected)).2.Recounts handler request asked chosen :=
    down.callback keeps (callback_of_free free) (fun _ => rfl) fun _ => rfl
  exact told.of_eq rfl rfl

end Conversation

namespace Session

open Conversation

variable {handler : Handler} {settings : Settings} {request : Request} {inbound : Inbound}
  {sink : Sink}

/-- The head of a session that opens announces the last value that was set for the field while the
handler was being asked, or else what was chosen last. -/
theorem Opens.announced_head (opens : Opens handler request sink) :
    let calls := (handler.greet request).calls
    ∃ fields, (head handler request sink).1 = Head.ofLines (Response.headLines fields) ∧
      valuesOf Response.protocolHeader fields =
        ((calls.filterMap (·.sets? Response.protocolHeader)).getLast?.or
          (Call.chosenAfter request.protocols.head? calls)).toList := by
  have server := server_greeted_of_returned opens.returned
  have unset : ((Server.ofRequest request sink).advance .connecting).extra = lastOfEach [] := rfl
  refine ⟨_, Response.write_of_ok opens.head_ok, ?_⟩
  rw [Response.valuesOf_protocolHeader, Server.response, server, Server.chosen_performAll,
    Server.extra_performAll rfl (silent_of_returned opens.returned) unset, List.nil_append,
    getLast?_valuesOf_lastOfEach, Call.valuesOf_filterMap_field?]
  rfl

theorem Opens.recounts_opened (keeps : handler.keepsJournal = true)
    (opens : Opens handler request sink) :
    let calls := (handler.greet request).calls
    ∃ asked, asked.map (·.1) = calls ∧
      (opened handler request sink).Recounts handler request asked
        (Call.chosenAfter request.protocols.head? calls) := by
  intro calls
  let server := (Server.ofRequest request sink).advance .connecting
  have entered : (opened handler request sink).journal =
      #[].push (.connect .connecting (server.performAll none calls).1.toList) := by
    have same : (opened handler request sink).journal =
        (greeted handler request sink).2.journal := rfl
    rw [same, greeted, callback_of_returned keeps opens.returned]
    rfl
  have stands : (opened handler request sink).server.chosen =
      Call.chosenAfter request.protocols.head? calls := by
    have same : (opened handler request sink).server.chosen =
        (greeted handler request sink).2.server.sendHead.2.chosen := rfl
    rw [same, chosen_sendHead, server_greeted_of_returned opens.returned,
      Server.chosen_performAll]
    rfl
  refine ⟨calls.zip (server.performAll none calls).1.toList,
    List.map_fst_zip (Server.length_performAll ..).ge, [], ?_, trivial, stands⟩
  rw [entered, Entry.exchanges_push, List.append_nil]
  rfl

/-- The journal of a session that opens tells each choice as it stood. -/
theorem Opens.recounts_serve (keeps : handler.keepsJournal = true) (idle : handler.workers = [])
    (opens : Opens handler request sink) (settings : Settings) (inbound : Inbound) :
    let calls := (handler.greet request).calls
    ∃ asked later, asked.map (·.1) = calls ∧
      Entry.exchanges handler request (serve handler settings request inbound sink).journal =
        asked ++ later ∧
      TellChoice (Call.chosenAfter request.protocols.head? calls) later := by
  intro calls
  -- Which calls an entry stands for is known of the chronicle, so that both are kept together.
  obtain ⟨asked, firsts, start⟩ := opens.recounts_opened keeps
  have kept := recounts_kept keeps request asked
    (Call.chosenAfter request.protocols.head? calls)
  have recounts : (conversed handler settings request inbound sink).2.Recounts handler request asked
      (Call.chosenAfter request.protocols.head? calls) :=
    (kept.converse ⟨⟨rfl, chronicled_opened keeps idle opens.returned⟩, start⟩ _).2
  have ⟨free, chronicled⟩ := chronicled_conversed keeps idle opens settings inbound
  have served := served_serve opens settings inbound
  generalize serve handler settings request inbound sink = run at served ⊢
  cases served with
  | waiting conversation h =>
    rw [h] at recounts
    obtain ⟨later, exchanged, tell, -⟩ := recounts
    exact ⟨asked, later, firsts, exchanged, tell⟩
  | ended outcome conversation h =>
    rw [h] at recounts free chronicled
    have parting : (parted conversation outcome).holdsOutput = false := free
    have parted : (parted conversation outcome).Recounts handler request asked _ :=
      recounts.of_eq rfl (chosen_closeFor conversation.server outcome)
    have torn := parted.tearDown keeps idle parting
    have ended := (chronicled_parted chronicled outcome).tearDown keeps idle parting
    obtain ⟨later, exchanged, tell, -⟩ := (kept.settle
      ⟨⟨(holdsOutput_tearDown idle _).trans parting, ended⟩, torn⟩).2
    exact ⟨asked, later, firsts, exchanged, tell⟩

/-- **The subprotocol that is announced and the one that is told.** In every run of a scripted
handler whose session opens, the head has one field for the subprotocol or none. Its value is the
last one that the handler set for the field while it was being asked, or else the subprotocol that
was chosen last until then, at first the first one that the client offers. Behind what was called
then, the journal tells at each call that asks for the subprotocol the one that was chosen last up
to this call. So what is told is what was announced, as long as the field was not set by hand and
no call after the opening chooses another subprotocol. -/
theorem serve_announcement (script : Script) (settings : Settings) (inbound : Inbound)
    (opens : Opens (.scripted script) request sink) :
    let handler := Handler.scripted script
    let run := serve handler settings request inbound sink
    let chosen := Call.chosenAfter request.protocols.head? script.connect
    let set := (script.connect.filterMap (·.sets? Response.protocolHeader)).getLast?
    ∃ fields rest asked later,
      run.sink.written.toList =
        sink.written.toList ++ Head.ofLines (Response.headLines fields) ++ rest ∧
      valuesOf Response.protocolHeader fields = (set.or chosen).toList ∧
      Entry.exchanges handler request run.journal = asked ++ later ∧
      asked.map (·.1) = script.connect ∧
      (∀ front answer back, later = front ++ (Call.chosenProtocol, answer) :: back →
        answer = .ofText? (Call.chosenAfter chosen (front.map (·.1)))) ∧
      (set = none → (∀ exchange ∈ later, exchange.1.chooses? = none) →
        ∀ answer, (Call.chosenProtocol, answer) ∈ later → answer = .ofText? (set.or chosen)) := by
  intro handler run chosen set
  obtain ⟨fields, written, announced⟩ := opens.announced_head
  obtain ⟨rest, all⟩ := opens.written_serve settings inbound
  obtain ⟨asked, later, firsts, exchanged, tell⟩ := opens.recounts_serve rfl rfl settings inbound
  rw [written] at all
  have told (front : List (Call × Answer)) (answer : Answer) (back : List (Call × Answer))
      (split : later = front ++ (.chosenProtocol, answer) :: back) :
      answer = .ofText? (Call.chosenAfter chosen (front.map (·.1))) :=
    TellChoice.answer_eq (split ▸ tell)
  refine ⟨fields, rest, asked, later, all, announced, exchanged, firsts, told, ?_⟩
  intro unset settled answer member
  obtain ⟨front, back, split⟩ := List.append_of_mem member
  have before : ∀ call ∈ front.map (·.1), call.chooses? = none := by
    intro call among
    obtain ⟨exchange, first, rfl⟩ := List.mem_map.mp among
    exact settled exchange (by simp [split, first])
  rw [told front answer back split, Call.chosenAfter_of_none before, unset]
  rfl

/-- A handler chooses another subprotocol than the first one that is offered. Setting the field when
the session is open has no effect. -/
theorem serve_announcement_chosen :
    let request := Request.ofParts "GET" "/chat"
      [("Upgrade", "websocket"), ("Connection", "Upgrade"), ("Sec-WebSocket-Version", "7"),
        ("Sec-WebSocket-Key", "AQIDBAUGBwgJCgsMDQ4PEA=="), ("Sec-WebSocket-Protocol", "a, b")]
    let script : Script :=
      { connect := [.setProtocol "b"],
        messages := [[.setHeader "Sec-WebSocket-Protocol" "a", .chosenProtocol]] }
    let inbound : Inbound := { blocks := [[0x81, 0x80, 1, 2, 3, 4]], ending := .eof }
    Opens (.scripted script) request {} ∧
      ∃ fields rest asked later,
        (serve (.scripted script) {} request inbound {}).sink.written.toList =
          Head.ofLines (Response.headLines fields) ++ rest ∧
        valuesOf Response.protocolHeader fields = ["b"] ∧
        Entry.exchanges (.scripted script) request
            (serve (.scripted script) {} request inbound {}).journal = asked ++ later ∧
        (∃ answer, (Call.chosenProtocol, answer) ∈ later) ∧
        ∀ answer, (Call.chosenProtocol, answer) ∈ later → answer = .text "b" := by
  intro request script inbound
  have ⟨returns, entered⟩ :
      (serve (.scripted script) {} request inbound {}).verdict = .returned (.ok .endOfStream) ∧
        (serve (.scripted script) {} request inbound {}).journal =
          [.connect .connecting [.done], .message .text [] .opened [.done, .text "b"],
            .disconnect .disconnected []] := by decide +kernel
  have opens : Opens (.scripted script) request {} := opens_of_returned returns nofun
  obtain ⟨fields, rest, asked, later, written, announced, exchanged, firsts, -, told⟩ :=
    serve_announcement script {} inbound opens
  have chosen : Call.chosenAfter request.protocols.head? script.connect = some "b" := by
    decide +kernel
  have count : asked.length = 1 := (List.length_map ..).symm.trans (congrArg List.length firsts)
  have behind : later = [(.setHeader "Sec-WebSocket-Protocol" "a", .done),
      (.chosenProtocol, .text "b")] := by
    have all : [(.setProtocol "b", .done)] ++ [(.setHeader "Sec-WebSocket-Protocol" "a", .done),
        (.chosenProtocol, .text "b")] = asked ++ later := by
      rw [← exchanged, entered]
      rfl
    exact (List.append_inj_right all count.symm).symm
  have settled : ∀ exchange ∈ later, exchange.1.chooses? = none := by
    simp [behind, Call.chooses?]
  have unset : (script.connect.filterMap (·.sets? Response.protocolHeader)).getLast? = none := rfl
  rw [unset, chosen] at announced told
  exact ⟨opens, fields, rest, asked, later, written, announced, exchanged,
    ⟨_, by rw [behind]; exact .tail _ (.head _)⟩, told rfl settled⟩

/-- A handler that chooses a subprotocol in an open session is told this one from then on, although
the head has announced the one that the client offers. -/
theorem told_of_late_choice :
    let request := Request.ofParts "GET" "/chat"
      [("Upgrade", "websocket"), ("Connection", "Upgrade"), ("Sec-WebSocket-Version", "7"),
        ("Sec-WebSocket-Key", "AQIDBAUGBwgJCgsMDQ4PEA=="), ("Sec-WebSocket-Protocol", "a")]
    let handler := Handler.scripted { messages := [[.setProtocol "b", .chosenProtocol]] }
    let inbound : Inbound := { blocks := [[0x81, 0x80, 1, 2, 3, 4]], ending := .eof }
    Opens handler request {} ∧
      (∃ fields, (head handler request {}).1 = Head.ofLines (Response.headLines fields) ∧
        valuesOf Response.protocolHeader fields = ["a"]) ∧
      (serve handler {} request inbound {}).journal =
        [.connect .connecting [], .message .text [] .opened [.done, .text "b"],
          .disconnect .disconnected []] := by
  intro request handler inbound
  have ⟨returns, entered⟩ :
      (serve handler {} request inbound {}).verdict = .returned (.ok .endOfStream) ∧
        (serve handler {} request inbound {}).journal =
          [.connect .connecting [], .message .text [] .opened [.done, .text "b"],
            .disconnect .disconnected []] := by decide +kernel
  have opens : Opens handler request {} := opens_of_returned returns nofun
  have chosen : Call.chosenAfter request.protocols.head? [] = some "a" := by decide +kernel
  obtain ⟨fields, written, announced⟩ := opens.announced_head
  exact ⟨opens, ⟨fields, written, announced.trans (congrArg Option.toList chosen)⟩, entered⟩

end Session

end WebSocket
