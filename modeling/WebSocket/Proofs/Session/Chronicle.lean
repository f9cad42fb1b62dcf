import WebSocket.Proofs.Session.Journal

/-!
# The states that a journal shows

Who knows the calls that a handler makes can follow its journal (`Chronicle`): the entries of
callbacks say what was called, and the entries of tasks come in the order in which the tasks were
started. So the journal shows states of the session, those in which callbacks began and those
that calls were answered. No call moves a session back, and so what a journal shows never
decreases (`Conversation.Chronicled`).
-/

namespace WebSocket

theorem SessionState.ofName?_name (state : SessionState) : ofName? state.name = some state := by
  cases state <;> decide

theorem SessionState.rank_le_advance (state target : SessionState) :
    state.rank ≤ (state.advance target).rank := by
  unfold advance
  split
  · next earlier => exact earlier.le
  · exact Nat.le_refl _

theorem SessionState.rank_le_disconnected (state : SessionState) :
    state.rank ≤ disconnected.rank := by
  cases state <;> decide

/-- States in the order in which a session passes through them, some maybe more than once. -/
def InOrder (states : List SessionState) : Prop :=
  states.Pairwise fun earlier later => earlier.rank ≤ later.rank

/-! ## What calls show -/

/-- The state that a call is answered. -/
def Call.shown? : Call → Answer → Option SessionState
  | .state, .text name => SessionState.ofName? name
  | _, _ => none

/-- The states that these calls are answered. -/
def Call.shown (calls : List Call) (answers : List Answer) : List SessionState :=
  (calls.zip answers).filterMap fun (call, answer) => call.shown? answer

theorem Call.shown_cons (call : Call) (calls : List Call) (answer : Answer)
    (answers : List Answer) :
    shown (call :: calls) (answer :: answers) =
      (call.shown? answer).toList ++ shown calls answers := by
  simp only [shown, List.zip_cons_cons, List.filterMap_cons]
  cases call.shown? answer <;> rfl

/-- The calls of the tasks that these calls start. -/
def Call.started (calls : List Call) : List (List Call) :=
  calls.filterMap fun call =>
    match call with
    | .spawn calls => some calls
    | _ => none

namespace Server

variable {server : Server}

theorem rank_trySend (server : Server) (kind : MessageKind) (payload : Bytes) :
    server.state.rank ≤ (server.trySend kind payload).2.state.rank := by
  simp only [trySend, markClosing]
  split
  · split
    · exact Nat.le_refl _
    · exact SessionState.rank_le_advance _ _
  · exact Nat.le_refl _

/-- No call moves a session back. -/
theorem rank_perform (server : Server) (delivery : Option Delivery) (call : Call) :
    server.state.rank ≤ (server.perform delivery call).2.state.rank :=
  perform_induction (P := fun after => server.state.rank ≤ after.state.rank)
    (fun kind payload _ => rank_trySend server kind payload) (fun _ _ _ => Nat.le_refl _)

theorem shown?_perform {delivery : Option Delivery} {call : Call} {state : SessionState}
    (shown : call.shown? (server.perform delivery call).1 = some state) :
    state = server.state := by
  cases call with
  | state =>
    have named : SessionState.ofName? server.state.name = some state := shown
    rw [SessionState.ofName?_name] at named
    exact (Option.some.inj named).symm
  | _ => cases shown

/-- What calls show are states between the first and the last, in order. -/
theorem shown_performAll (server : Server) (delivery : Option Delivery) (calls : List Call) :
    let after := server.performAll delivery calls
    let states := Call.shown calls after.1.toList
    InOrder states ∧ server.state.rank ≤ after.2.state.rank ∧
      ∀ state ∈ states, server.state.rank ≤ state.rank ∧ state.rank ≤ after.2.state.rank := by
  induction calls generalizing server with
  | nil => exact ⟨.nil, Nat.le_refl _, nofun⟩
  | cons call calls ih =>
    have step := server.rank_perform delivery call
    obtain ⟨ordered, later, between⟩ := ih (server.perform delivery call).2
    have since {state : SessionState} (member : state ∈ Call.shown calls
        ((server.perform delivery call).2.performAll delivery calls).1.toList) :
        server.state.rank ≤ state.rank := step.trans (between state member).1
    simp only [performAll_cons, Array.toList_append, List.cons_append, List.nil_append,
      Call.shown_cons]
    cases shown : call.shown? (server.perform delivery call).1 with
    | none =>
      exact ⟨ordered, step.trans later,
        fun state member => ⟨since member, (between state member).2⟩⟩
    | some state =>
      obtain rfl := shown?_perform shown
      refine ⟨List.pairwise_cons.mpr ⟨fun state member => since member, ordered⟩,
        step.trans later, fun state member => ?_⟩
      rcases List.mem_cons.mp member with rfl | member
      · exact ⟨Nat.le_refl _, step.trans later⟩
      · exact ⟨since member, (between state member).2⟩

end Server

/-! ## Following a journal -/

/-- What is known of a session by following its journal. -/
structure Chronicle where
  /-- The calls of the tasks that have started and not run, in order. -/
  waiting : List (List Call) := []
  /-- How many messages have been received. -/
  received : Nat := 0
  /-- The states that the journal has shown. -/
  states : List SessionState := []

namespace Chronicle

/-- These calls have been made, with these answers. -/
def make (chronicle : Chronicle) (calls : List Call) (answers : List Answer) : Chronicle :=
  { chronicle with
    waiting := chronicle.waiting ++ Call.started calls
    states := chronicle.states ++ Call.shown calls answers }

/-- The session was seen in this state. -/
def see (chronicle : Chronicle) (state : SessionState) : Chronicle :=
  { chronicle with states := chronicle.states ++ [state] }

def follow (handler : Handler) (request : Request) (chronicle : Chronicle) : Entry → Chronicle
  | .connect state answers => (chronicle.see state).make (handler.greet request).calls answers
  | .message kind payload state answers =>
    { chronicle.see state with received := chronicle.received + 1 }.make
      (handler.reply request chronicle.received (kind, payload)) answers
  | .disconnect state answers => (chronicle.see state).make handler.part answers
  | .spawned answers =>
    match chronicle.waiting with
    | [] => chronicle
    | calls :: waiting => { chronicle with waiting }.make calls answers

def ofJournal (handler : Handler) (request : Request) (journal : List Entry) : Chronicle :=
  journal.foldl (follow handler request) {}

theorem ofJournal_push (handler : Handler) (request : Request) (journal : Array Entry)
    (entry : Entry) :
    ofJournal handler request (journal.push entry).toList =
      (ofJournal handler request journal.toList).follow handler request entry := by
  rw [ofJournal, Array.toList_push, List.foldl_append]
  rfl

end Chronicle

/-- The states that a journal shows, in the order in which they were seen. -/
def Entry.shown (handler : Handler) (request : Request) (journal : List Entry) :
    List SessionState :=
  (Chronicle.ofJournal handler request journal).states

/-- The calls of a task that is not a worker. -/
def Task.calls? : Task → Option (List Call)
  | .script _ calls => some calls
  | .worker _ => none

namespace Conversation

variable {handler : Handler} {request : Request} {conversation : Conversation}
  {chronicle : Chronicle} {delivery : Option Delivery} {calls : List Call}

/-- What the chronicle knows is so. -/
structure Agrees (chronicle : Chronicle) (conversation : Conversation) : Prop where
  waiting : conversation.pending.map Task.calls? = chronicle.waiting.map some
  received : conversation.delivered = chronicle.received
  ordered : InOrder chronicle.states
  past : ∀ state ∈ chronicle.states, state.rank ≤ conversation.server.state.rank

theorem calls?_spawned (delivery : Option Delivery) (calls : List Call) :
    (Call.spawned delivery calls).map Task.calls? = (Call.started calls).map some := by
  simp only [Call.spawned, Call.started, List.map_filterMap]
  congr 1
  funext call
  cases call <;> rfl

/-- A session that moves on, and nothing else. -/
theorem Agrees.later {next : Conversation} (agrees : Agrees chronicle conversation)
    (waiting : next.pending = conversation.pending)
    (received : next.delivered = conversation.delivered)
    (later : conversation.server.state.rank ≤ next.server.state.rank) :
    Agrees chronicle next where
  waiting := waiting ▸ agrees.waiting
  received := received.trans agrees.received
  ordered := agrees.ordered
  past state member := (agrees.past state member).trans later

theorem Agrees.see (agrees : Agrees chronicle conversation) :
    Agrees (chronicle.see conversation.server.state) conversation where
  waiting := agrees.waiting
  received := agrees.received
  ordered := List.pairwise_append.mpr ⟨agrees.ordered, List.pairwise_singleton _ _,
    fun state member last same => List.mem_singleton.mp same ▸ agrees.past state member⟩
  past state member := by
    rcases List.mem_append.mp member with before | now
    · exact agrees.past state before
    · exact (List.mem_singleton.mp now ▸ Nat.le_refl _)

theorem Agrees.make (agrees : Agrees chronicle conversation) (delivery : Option Delivery)
    (calls : List Call) (journal : Array Entry) :
    let made := conversation.server.performAll delivery calls
    Agrees (chronicle.make calls made.1.toList)
      { conversation with
        server := made.2, pending := conversation.pending ++ Call.spawned delivery calls
        journal } := by
  obtain ⟨ordered, later, between⟩ := conversation.server.shown_performAll delivery calls
  refine ⟨?_, agrees.received, ?_, fun state member => ?_⟩
  · simp only [Chronicle.make, List.map_append, agrees.waiting, calls?_spawned]
  · refine List.pairwise_append.mpr ⟨agrees.ordered, ordered, fun state member shown among => ?_⟩
    exact (agrees.past state member).trans (between shown among).1
  · rcases List.mem_append.mp member with before | now
    · exact (agrees.past state before).trans later
    · exact (between state now).2

/-- The journal tells how things stand. -/
structure Chronicled (handler : Handler) (request : Request) (conversation : Conversation) :
    Prop where
  asked : conversation.server.request = request
  agrees : Agrees (Chronicle.ofJournal handler request conversation.journal.toList) conversation

/-- A callback is followed by the entry that it makes. -/
theorem chronicled_callback (keeps : handler.keepsJournal = true)
    (agrees : Agrees chronicle conversation) (asked : conversation.server.request = request)
    {entry : List Answer → Entry}
    (returned : (conversation.callback handler delivery calls entry).1 = true)
    (follows : ∀ answers,
      (Chronicle.ofJournal handler request conversation.journal.toList).follow handler request
        (entry answers) = chronicle.make calls answers) :
    Chronicled handler request (conversation.callback handler delivery calls entry).2 := by
  rw [callback_of_returned keeps returned]
  refine ⟨(Server.request_performAll ..).trans asked, ?_⟩
  dsimp only
  rw [Chronicle.ofJournal_push, follows]
  exact agrees.make delivery calls _

theorem Chronicled.later {next : Conversation}
    (chronicled : Chronicled handler request conversation)
    (asked : next.server.request = conversation.server.request)
    (journal : next.journal = conversation.journal)
    (waiting : next.pending = conversation.pending)
    (received : next.delivered = conversation.delivered)
    (later : conversation.server.state.rank ≤ next.server.state.rank) :
    Chronicled handler request next :=
  ⟨asked.trans chronicled.asked, journal ▸ chronicled.agrees.later waiting received later⟩

theorem Chronicled.deliver (keeps : handler.keepsJournal = true)
    (free : conversation.holdsOutput = false)
    (chronicled : Chronicled handler request conversation) (kind : MessageKind)
    (payload : Bytes) : Chronicled handler request (conversation.deliver handler kind payload) := by
  obtain ⟨rfl, agrees⟩ := chronicled
  let counted := { conversation with delivered := conversation.delivered + 1 }
  let known := Chronicle.ofJournal handler conversation.server.request conversation.journal.toList
  have seen := agrees.see
  have next : Agrees { known.see conversation.server.state with received := known.received + 1 }
      counted :=
    ⟨seen.waiting, congrArg (· + 1) seen.received, seen.ordered, seen.past⟩
  refine chronicled_callback keeps next rfl (callback_of_free free) fun answers => ?_
  rw [agrees.received]
  rfl

theorem Chronicled.runTask (keeps : handler.keepsJournal = true)
    (free : conversation.holdsOutput = false)
    (chronicled : Chronicled handler request conversation) {task : Task} {rest : List Task}
    (waits : conversation.pending = task :: rest) :
    Chronicled handler request
      (Conversation.runTask handler { conversation with pending := rest } task) := by
  obtain ⟨asked, agrees⟩ := chronicled
  have queue := agrees.waiting
  rw [waits, List.map_cons] at queue
  obtain ⟨calls, waiting, known, first, others⟩ := List.map_eq_cons_iff.mp queue.symm
  cases task with
  | worker messages => cases first
  | script delivery calls =>
    cases first
    have next : Agrees
        { Chronicle.ofJournal handler request conversation.journal.toList with waiting }
        { conversation with pending := rest } :=
      ⟨others.symm, agrees.received, agrees.ordered, agrees.past⟩
    refine chronicled_callback keeps next asked (callback_of_free free) fun answers => ?_
    simp only [Chronicle.follow, known]

/-- What happens in a conversation is followed by the journal. -/
theorem chronicled_kept (keeps : handler.keepsJournal = true) (request : Request) :
    Kept handler fun conversation =>
      conversation.holdsOutput = false ∧ Chronicled handler request conversation where
  task conversation task rest waits h := by
    refine ⟨?_, h.2.runTask keeps h.1 waits⟩
    cases task with
    | script delivery calls => exact (holdsOutput_callback ..).trans h.1
    | worker messages => exact h.1
  message conversation kind payload h :=
    ⟨(holdsOutput_callback ..).trans h.1, h.2.deliver keeps h.1 kind payload⟩
  pong conversation payload h := by
    refine ⟨h.1, h.2.later ?_ rfl rfl rfl ?_⟩
    · exact Server.request_perform _ none (.send .pong payload)
    · exact Server.rank_perform _ none (.send .pong payload)

end Conversation

end WebSocket
