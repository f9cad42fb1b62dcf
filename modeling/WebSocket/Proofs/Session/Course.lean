import WebSocket.Proofs.Session.Admission
import WebSocket.Proofs.Session.Cuts

/-!
# The course of a session

What happens in a conversation is of three kinds: a task runs, a message is delivered, a ping is
answered. What these keep (`Conversation.Kept`), waiting and conversing keep. A run as a whole
takes one of a few courses (`Session.course_serve`), and once the output is closed nothing changes
it any more, so that the course says what a run leaves behind.
-/

namespace WebSocket

/-- The calls that a task makes, with the message at hand. -/
def Task.Makes (handler : Handler) (task : Task) (delivery : Option Delivery) (call : Call) :
    Prop :=
  match task with
  | .script heard calls => delivery = heard ∧ call ∈ calls
  | .worker messages =>
    delivery = none ∧
      ((∃ message ∈ messages, call = .send message.1 message.2) ∨
        call = .closeWith handler.farewell)

theorem Call.mem_spawned_iff {delivery : Option Delivery} {calls : List Call} {task : Task} :
    task ∈ spawned delivery calls ↔
      ∃ inner, .spawn inner ∈ calls ∧ task = .script delivery inner := by
  rw [spawned, List.mem_filterMap]
  constructor
  · rintro ⟨call, member, spawns⟩
    cases call with
    | spawn inner => exact ⟨inner, member, (Option.some.inj spawns).symm⟩
    | _ => cases spawns
  · rintro ⟨inner, member, rfl⟩
    exact ⟨_, member, rfl⟩

namespace Conversation

variable {handler : Handler} {settings : Settings} {ending : Ending} {machine : Reassembler}
  {conversation : Conversation} {delivery : Option Delivery} {calls : List Call}
  {entry : List Answer → Entry}

theorem mem_of_mem_reach {call : Call} (member : call ∈ conversation.reach delivery calls) :
    call ∈ calls := by
  unfold reach at member
  split at member
  · exact (List.takeWhile_prefix _).subset member
  · exact member

theorem reach_of_free (free : conversation.holdsOutput = false) (delivery : Option Delivery)
    (calls : List Call) : conversation.reach delivery calls = calls := by
  rw [reach, free]
  rfl

/-- What a callback adds to the tasks that wait are lists of calls. -/
theorem scripts_callback
    (scripts : ∀ task ∈ conversation.pending, ∃ delivery calls, task = .script delivery calls) :
    ∀ task ∈ (conversation.callback handler delivery calls entry).2.pending,
      ∃ delivery calls, task = .script delivery calls := by
  intro task member
  rw [pending_callback, List.mem_append] at member
  rcases member with before | started
  · exact scripts task before
  · obtain ⟨inner, -, same⟩ := Call.mem_spawned_iff.mp started
    exact ⟨delivery, inner, same⟩

/-! ## What happens in a conversation -/

/-- What tasks, deliveries and pongs keep. -/
structure Kept (handler : Handler) (P : Conversation → Prop) : Prop where
  task : ∀ conversation task rest, conversation.pending = task :: rest → P conversation →
    P (runTask handler { conversation with pending := rest } task)
  message : ∀ conversation kind payload, P conversation →
    P (conversation.deliver handler kind payload)
  pong : ∀ conversation payload, P conversation →
    P { conversation with server := (conversation.server.send .pong payload).2 }

theorem settle_of_nil (none : conversation.pending = []) :
    conversation.settle handler = conversation := by
  rw [settle]
  split
  · rfl
  · next task rest waits => rw [none] at waits; cases waits

theorem settle_of_cons {task : Task} {rest : List Task}
    (waits : conversation.pending = task :: rest) :
    conversation.settle handler =
      (Conversation.runTask handler { conversation with pending := rest } task).settle handler := by
  rw [settle]
  split
  · next none => rw [none] at waits; cases waits
  · next task rest waits' =>
    rw [waits] at waits'
    obtain ⟨rfl, rfl⟩ := List.cons.inj waits'
    rfl

theorem settle_induction {P : Conversation → Prop}
    (step : ∀ conversation task rest, conversation.pending = task :: rest → P conversation →
      P (runTask handler { conversation with pending := rest } task))
    (start : P conversation) : P (conversation.settle handler) := by
  fun_induction settle handler conversation with
  | case1 => exact start
  | case2 conversation task rest waits ih => exact ih (step _ _ _ waits start)

theorem Kept.settle {P : Conversation → Prop} (kept : Kept handler P) (start : P conversation) :
    P (conversation.settle handler) :=
  settle_induction kept.task start

theorem dispatch_induction {P : Conversation → Prop}
    (message : ∀ conversation kind payload, P conversation →
      P (conversation.deliver handler kind payload))
    (pong : ∀ conversation payload, P conversation →
      P { conversation with server := (conversation.server.send .pong payload).2 })
    (start : P conversation) (events : List Event) :
    P (conversation.dispatch handler settings events).2 := by
  induction events generalizing conversation with
  | nil => exact start
  | cons event events ih =>
    cases event with
    | message kind payload =>
      have delivered := message _ kind payload start
      simp only [dispatch]
      split
      · exact delivered
      · exact ih delivered
    | ping payload => exact ih (pong _ payload start)
    | close payload => exact start

theorem Kept.dispatch {P : Conversation → Prop} (kept : Kept handler P) (start : P conversation)
    (events : List Event) : P (conversation.dispatch handler settings events).2 :=
  dispatch_induction kept.message kept.pong start events

theorem Kept.converse {P : Conversation → Prop} (kept : Kept handler P) (start : P conversation)
    (blocks : List Bytes) :
    P (conversation.converse handler settings ending blocks machine).2 := by
  induction blocks generalizing machine conversation with
  | nil =>
    unfold Conversation.converse
    split
    · exact start
    · cases ending with
      | eof | fails => exact start
      | silent => exact kept.settle start
  | cons block blocks ih =>
    cases closing : conversation.server.closing with
    | true =>
      rw [converse_of_closing closing]
      exact start
    | false =>
      have acted : P (conversation.dispatch handler settings
        (machine.feed settings.limits block).events.toList).2 := kept.dispatch start _
      rw [converse_cons closing]
      dsimp only
      split
      · next outcome next dispatched =>
        rw [dispatched] at acted
        exact acted
      · next next dispatched =>
        rw [dispatched] at acted
        split
        · exact acted
        · exact ih acted

/-- What the calls of a task keep, the task keeps. -/
theorem server_runTask_induction {P : Server → Prop} {task : Task}
    (calls : ∀ server delivery call, task.Makes handler delivery call → P server →
      P (server.perform delivery call).2)
    (start : P conversation.server) : P (runTask handler conversation task).server := by
  cases task with
  | script delivery list =>
    simp only [runTask, server_callback]
    exact Server.performAll_induction_mem
      (fun server call member => calls server delivery call ⟨rfl, mem_of_mem_reach member⟩) start
  | worker messages =>
    have sends (some : List Delivery) (among : some ⊆ messages) (server : Server) (h : P server) :
        P (some.foldl (fun server message => (server.send message.1 message.2).2) server) := by
      induction some generalizing server with
      | nil => exact h
      | cons message some ih =>
        obtain ⟨member, among⟩ := List.cons_subset.mp among
        exact ih among _
          (calls server none (.send message.1 message.2) ⟨rfl, .inl ⟨message, member, rfl⟩⟩ h)
    have sent : P (if conversation.stopping then conversation.server
        else messages.foldl (fun server message => (server.send message.1 message.2).2)
          conversation.server) := by
      split
      · exact start
      · exact sends messages (List.Subset.refl _) _ start
    simp only [runTask, runWorker]
    split
    · exact calls _ none (.closeWith handler.farewell) ⟨rfl, .inr rfl⟩ sent
    · exact sent

/-- What every call keeps of a server. -/
theorem Kept.ofServer {P : Server → Prop}
    (calls : ∀ server delivery call, P server → P (server.perform delivery call).2) :
    Kept handler fun conversation => P conversation.server where
  task conversation task rest _ h :=
    have waits : P { conversation with pending := rest }.server := h
    server_runTask_induction (fun server delivery call _ => calls server delivery call) waits
  message conversation kind payload h := by
    simp only [deliver, server_callback]
    exact Server.performAll_induction (fun server call => calls server _ call) h _
  pong conversation payload h := calls _ none (.send .pong payload) h

theorem closeFor_induction {P : Server → Prop} {server : Server}
    (calls : ∀ server delivery call, P server → P (server.perform delivery call).2)
    (start : P server) (outcome : Outcome) : P (closeFor server outcome) := by
  unfold closeFor
  split
  · split
    · next code _ => exact calls server none (.closeWith ⟨code, ""⟩) start
    · exact start
  · next frame => exact calls server none (.send .close _) start
  · exact calls server none .close start
  · exact calls server none .close start
  · exact calls server none .close start
  · exact start
  · exact start

theorem holdsOutput_callback (handler : Handler) (conversation : Conversation)
    (delivery : Option Delivery) (calls : List Call) (entry : List Answer → Entry) :
    (conversation.callback handler delivery calls entry).2.holdsOutput =
      conversation.holdsOutput := by
  rw [callback_snd]

/-! ## A closed output -/

/-- No call, task or message does anything to an output that is closed. -/
theorem Kept.outbound_of_closing {out : Outbound} (closed : out.closing = true) :
    Kept handler fun conversation => conversation.server.outbound = out :=
  .ofServer (P := fun server => server.outbound = out) fun server delivery call h => by
    rw [← h] at closed
    exact (Server.outbound_perform_of_closing closed delivery call).trans h

theorem outbound_settle_of_closing (closed : conversation.server.outbound.closing = true) :
    (conversation.settle handler).server.outbound = conversation.server.outbound :=
  (Kept.outbound_of_closing closed).settle rfl

theorem outbound_callback_of_closing (closed : conversation.server.outbound.closing = true) :
    (conversation.callback handler delivery calls entry).2.server.outbound =
      conversation.server.outbound := by
  rw [server_callback]
  exact Server.performAll_induction
    (P := fun server => server.outbound = conversation.server.outbound)
    (fun server call h =>
      (Server.outbound_perform_of_closing (h ▸ closed) delivery call).trans h) rfl _

end Conversation

/-- The output when its session is over. -/
def Outbound.retire (out : Outbound) : Outbound := { out.detach with sink := out.sink.shutDown.2 }

namespace Conversation

variable {handler : Handler} {conversation : Conversation}

/-- The session is over for everybody but the handler, which has not been told. -/
def closedDown (conversation : Conversation) : Conversation :=
  { conversation with
    server := conversation.server.detach.advance .disconnected, stopping := true }

/-- The output is detached, and workers are stopped and awaited. -/
def halted (handler : Handler) (conversation : Conversation) : Conversation :=
  let stopped :=
    { conversation with
      server := conversation.server.detach.advance .disconnected, stopping := true }
  if handler.workers.isEmpty then stopped else stopped.settle handler

theorem tearDown_eq (handler : Handler) (conversation : Conversation) :
    conversation.tearDown handler =
      let halted := conversation.halted handler
      let told :=
        (halted.callback handler none handler.part (.disconnect halted.server.state)).2
      { told with server := told.server.shutDown } := rfl

theorem outbound_halted (handler : Handler) (conversation : Conversation) :
    (conversation.halted handler).server.outbound = conversation.server.outbound.detach := by
  have detached : conversation.closedDown.server.outbound = conversation.server.outbound.detach :=
    Server.outbound_markClosing _
  unfold halted
  dsimp only
  split
  · exact detached
  · refine Eq.trans ?_ detached
    exact outbound_settle_of_closing (by rw [← closedDown, detached]; rfl)

theorem outbound_tearDown (handler : Handler) (conversation : Conversation) :
    (conversation.tearDown handler).server.outbound = conversation.server.outbound.retire := by
  have same := outbound_halted handler conversation
  rw [tearDown_eq]
  simp only [Server.shutDown, Outbound.retire]
  rw [outbound_callback_of_closing (by rw [same]; rfl), same]
  rfl

theorem outbound_finish (closed : conversation.server.outbound.closing = true)
    (result : Except Error Outcome) :
    (conversation.finish handler result).outbound = conversation.server.outbound :=
  outbound_settle_of_closing closed

theorem outbound_finish_tearDown (handler : Handler) (conversation : Conversation)
    (result : Except Error Outcome) :
    ((conversation.tearDown handler).finish handler result).outbound =
      conversation.server.outbound.retire := by
  rw [outbound_finish, outbound_tearDown]
  rw [outbound_tearDown]
  rfl

theorem outbound_refuse (handler : Handler) (conversation : Conversation) :
    (conversation.refuse handler).outbound = conversation.server.outbound.retire :=
  outbound_finish rfl _

end Conversation

/-! ## Runs -/

namespace Session

open Conversation

variable {handler : Handler} {settings : Settings} {request : Request} {inbound : Inbound}
  {sink : Sink}

/-- The conversation when the handler has been asked, and whether the handler came to the end of
its calls: it does not if one of them needs the output. -/
def greeted (handler : Handler) (request : Request) (sink : Sink) : Bool × Conversation :=
  let server := (Server.ofRequest request sink).advance .connecting
  callback handler { server, holdsOutput := true } none (handler.greet request).calls
    (.connect server.state)

/-- What is written of the head that answers the request, and whether that is all of it. -/
def head (handler : Handler) (request : Request) (sink : Sink) : Bytes × Except Error Unit :=
  (greeted handler request sink).2.server.response.write

/-- The conversation when an accepted request has been answered, as far as that went. -/
def answered (handler : Handler) (request : Request) (sink : Sink) : Conversation :=
  let conversation := (greeted handler request sink).2
  { conversation with
    server := conversation.server.sendHead.2, holdsOutput := false,
    pending := conversation.pending ++ handler.workers.map Task.worker,
    activeWorkers := handler.workers.length }

/-- The conversation when the session opens. -/
def opened (handler : Handler) (request : Request) (sink : Sink) : Conversation :=
  let conversation := answered handler request sink
  { conversation with server := conversation.server.advance .opened }

/-- The handler is asked, comes to the end of its calls and accepts. -/
structure Welcomes (handler : Handler) (request : Request) (sink : Sink) : Prop where
  valid : request.validate = .ok ()
  returned : (greeted handler request sink).1 = true
  accepts : (handler.greet request).accepts = true

/-- The session opens: the client is accepted, and all of the answer's head is written and
flushed. -/
structure Opens (handler : Handler) (request : Request) (sink : Sink) : Prop
    extends Welcomes handler request sink where
  answers : (greeted handler request sink).2.server.sendHead.1 = .ok ()

/-- The conversation of an open session, up to what ends it. -/
def conversed (handler : Handler) (settings : Settings) (request : Request) (inbound : Inbound)
    (sink : Sink) : Option Outcome × Conversation :=
  (opened handler request sink).converse handler settings inbound.ending
    (inbound.reads settings.readBlock) {}

/-- The conversation of a session that has come to an outcome, with its close frame sent. -/
def parted (conversation : Conversation) (outcome : Outcome) : Conversation :=
  { conversation with server := closeFor conversation.server outcome }

/-- Runs in which no head is written: the request is not fit, the handler waits for the output
while it is being asked, or it refuses. -/
inductive Declined (handler : Handler) (request : Request) (sink : Sink) : Run → Prop where
  | invalid (error : Error) (h : request.validate = .error error) :
    Declined handler request sink { verdict := .returned (.error error), outbound := { sink } }
  | blocked (valid : request.validate = .ok ()) (h : (greeted handler request sink).1 = false) :
    Declined handler request sink ((greeted handler request sink).2.settle handler).abandon
  | refused (valid : request.validate = .ok ())
      (returned : (greeted handler request sink).1 = true)
      (h : (handler.greet request).accepts = false) :
    Declined handler request sink ((greeted handler request sink).2.refuse handler)

/-- Runs of a session that opens: it waits forever, or it comes to an outcome. -/
inductive Served (handler : Handler) (settings : Settings) (request : Request)
    (inbound : Inbound) (sink : Sink) : Run → Prop where
  | waiting (conversation : Conversation)
      (h : conversed handler settings request inbound sink = (none, conversation)) :
    Served handler settings request inbound sink conversation.abandon
  | ended (outcome : Outcome) (conversation : Conversation)
      (h : conversed handler settings request inbound sink = (some outcome, conversation)) :
    Served handler settings request inbound sink
      (((parted conversation outcome).tearDown handler).finish handler (.ok outcome))

/-- The courses that a run can take. -/
inductive Course (handler : Handler) (settings : Settings) (request : Request)
    (inbound : Inbound) (sink : Sink) (run : Run) : Prop where
  | declined (h : Declined handler request sink run)
  /-- The answer's head could not be written or flushed. -/
  | unanswered (error : Error) (welcomes : Welcomes handler request sink)
      (failed : (greeted handler request sink).2.server.sendHead.1 = .error error)
      (same : run =
        ((answered handler request sink).tearDown handler).finish handler (.error error))
  | served (opens : Opens handler request sink)
      (h : Served handler settings request inbound sink run)

theorem Declined.unwelcome {run : Run} (declined : Declined handler request sink run) :
    ¬ Welcomes handler request sink := by
  intro welcomes
  cases declined with
  | invalid error h => simp [welcomes.valid] at h
  | blocked valid h => simp [welcomes.returned] at h
  | refused valid returned h => simp [welcomes.accepts] at h

theorem course_accept (settings : Settings) (inbound : Inbound)
    (welcomes : Welcomes handler request sink) :
    Course handler settings request inbound sink
      ((greeted handler request sink).2.accept handler settings inbound) := by
  unfold Conversation.accept
  cases sent : (greeted handler request sink).2.server.sendHead with
  | mk result server =>
    obtain rfl : server = (greeted handler request sink).2.server.sendHead.2 := by rw [sent]
    cases result with
    | error error => exact .unanswered error welcomes (by rw [sent]) rfl
    | ok =>
      refine .served ⟨welcomes, by rw [sent]⟩ ?_
      dsimp only
      split
      · next conversation h => exact .waiting conversation h
      · next outcome conversation h => exact .ended outcome conversation h

/-- A run takes one of these courses. -/
theorem course_serve (handler : Handler) (settings : Settings) (request : Request)
    (inbound : Inbound) (sink : Sink) :
    Course handler settings request inbound sink
      (serve handler settings request inbound sink) := by
  unfold serve
  split
  · next error invalid => exact .declined (.invalid error invalid)
  · next valid =>
    dsimp only
    split
    · next conversation called =>
      have asked : greeted handler request sink = (false, conversation) := called
      obtain rfl : conversation = (greeted handler request sink).2 := by rw [asked]
      exact .declined (.blocked valid (by rw [asked]))
    · next conversation called =>
      have asked : greeted handler request sink = (true, conversation) := called
      obtain rfl : conversation = (greeted handler request sink).2 := by rw [asked]
      split
      · next accepts => exact course_accept settings inbound ⟨valid, by rw [asked], accepts⟩
      · next refuses =>
        exact .declined (.refused valid (by rw [asked]) (Bool.eq_false_iff.mpr refuses))

/-- A session that opens is served. -/
theorem served_serve (opens : Opens handler request sink) (settings : Settings)
    (inbound : Inbound) :
    Served handler settings request inbound sink
      (serve handler settings request inbound sink) := by
  cases course_serve handler settings request inbound sink with
  | declined h => exact absurd opens.toWelcomes h.unwelcome
  | unanswered error welcomes failed same => simp [opens.answers] at failed
  | served opens h => exact h

/-- What is left of a session that has come to an outcome. -/
theorem Opens.serve_eq {outcome : Outcome} {conversation : Conversation}
    (opens : Opens handler request sink)
    (h : conversed handler settings request inbound sink = (some outcome, conversation)) :
    serve handler settings request inbound sink =
      ((parted conversation outcome).tearDown handler).finish handler (.ok outcome) := by
  have served := served_serve opens settings inbound
  generalize serve handler settings request inbound sink = run at served
  cases served with
  | waiting conversation h' =>
    rw [h] at h'
    cases h'
  | ended outcome conversation h' =>
    rw [h] at h'
    cases h'
    rfl

/-- Only a session that has opened comes to an outcome other than a refusal. -/
theorem opens_of_returned {outcome : Outcome}
    (returned : (serve handler settings request inbound sink).verdict = .returned (.ok outcome))
    (further : outcome ≠ .refused) : Opens handler request sink := by
  have course := course_serve handler settings request inbound sink
  generalize serve handler settings request inbound sink = run at course returned
  cases course with
  | served opens h => exact opens
  | unanswered error welcomes failed same =>
    subst same
    cases returned
  | declined h =>
    cases h with
    | refused valid asked refuses =>
      cases returned
      exact absurd rfl further
    | _ => cases returned

end Session

end WebSocket
