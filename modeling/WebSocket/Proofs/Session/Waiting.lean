import WebSocket.Handler.Scripted
import WebSocket.Proofs.Session.Journal

/-!
# Sessions that wait forever

A run gets stuck in two ways only (`Session.Stuck`). The handler makes a call that needs the output
while it is being asked, when the session itself holds it; or the peer falls silent, and neither
its bytes nor any call that the handler or a task of it makes ends the session. Since tasks run
while the session waits, the second is a matter of all the calls that a session comes to
(`Handler.Makes`): one of them that sends a close frame wakes the session, whatever the stream makes
of the frame (`Session.serve_waiting_iff`).
-/

namespace WebSocket

/-- The calls that a task comes to: its own, and those of the tasks that it starts. -/
inductive Task.Leads : Task → Option Delivery → Call → Prop where
  | made {delivery : Option Delivery} {calls : List Call} {call : Call} (member : call ∈ calls) :
    Leads (.script delivery calls) delivery call
  | started {task : Task} {delivery : Option Delivery} {calls : List Call} {call : Call}
      (starts : Leads task delivery (.spawn calls)) (member : call ∈ calls) :
    Leads task delivery call

/-- A task that sends a close frame, or that starts one that does. -/
def Task.Closes (task : Task) : Prop :=
  ∃ delivery call, task.Leads delivery call ∧ call.closes delivery = true

namespace Task

variable {delivery heard : Option Delivery} {calls inner : List Call} {call : Call}

theorem Leads.ofSpawn (starts : .spawn inner ∈ calls)
    (leads : (script delivery inner).Leads heard call) :
    (script delivery calls).Leads heard call := by
  generalize same : script delivery inner = task at leads
  induction leads with
  | made member =>
    cases same
    exact .started (.made starts) member
  | started leads member ih => exact .started (ih same) member

/-- What a task comes to it does itself, or one of the tasks does that it starts. -/
theorem leads_script_iff :
    (script delivery calls).Leads heard call ↔
      heard = delivery ∧ call ∈ calls ∨
        ∃ task ∈ Call.spawned delivery calls, task.Leads heard call := by
  constructor
  · intro leads
    generalize same : script delivery calls = task at leads
    induction leads with
    | made member =>
      cases same
      exact .inl ⟨rfl, member⟩
    | started leads member ih =>
      rcases ih same with ⟨rfl, spawns⟩ | ⟨task, among, leads⟩
      · exact .inr ⟨_, Call.mem_spawned_iff.mpr ⟨_, spawns, rfl⟩, .made member⟩
      · exact .inr ⟨task, among, .started leads member⟩
  · rintro (⟨rfl, member⟩ | ⟨task, among, leads⟩)
    · exact .made member
    · obtain ⟨inner, starts, rfl⟩ := Call.mem_spawned_iff.mp among
      exact leads.ofSpawn starts

theorem closes_script_iff :
    (script delivery calls).Closes ↔
      calls.any (·.closes delivery) = true ∨ ∃ task ∈ Call.spawned delivery calls, task.Closes := by
  simp only [Closes, leads_script_iff, List.any_eq_true]
  constructor
  · rintro ⟨heard, call, ⟨rfl, member⟩ | ⟨task, among, leads⟩, closes⟩
    · exact .inl ⟨call, member, closes⟩
    · exact .inr ⟨task, among, heard, call, leads, closes⟩
  · rintro (⟨call, member, closes⟩ | ⟨task, among, heard, call, leads, closes⟩)
    · exact ⟨delivery, call, .inl ⟨rfl, member⟩, closes⟩
    · exact ⟨heard, call, .inr ⟨task, among, leads⟩, closes⟩

end Task

/-! ## Messages -/

/-- Some reply to these messages, numbered from `number` on, sends a close frame, or starts a task
that sends one. -/
def Handler.RepliesClose (handler : Handler) (request : Request) (number : Nat)
    (messages : List Delivery) : Prop :=
  ∃ index message, messages[index]? = some message ∧
    (Task.script (some message) (handler.reply request (number + index) message)).Closes

theorem Handler.repliesClose_cons_iff {handler : Handler} {request : Request} {number : Nat}
    {message : Delivery} {messages : List Delivery} :
    handler.RepliesClose request number (message :: messages) ↔
      (Task.script (some message) (handler.reply request number message)).Closes ∨
        handler.RepliesClose request (number + 1) messages := by
  constructor
  · rintro ⟨index, heard, found, closes⟩
    cases index with
    | zero =>
      cases found
      exact .inl closes
    | succ index =>
      rw [Nat.add_comm index, ← Nat.add_assoc] at closes
      exact .inr ⟨index, heard, found, closes⟩
  · rintro (closes | ⟨index, heard, found, closes⟩)
    · exact ⟨0, message, rfl, closes⟩
    · rw [Nat.add_assoc, Nat.add_comm 1] at closes
      exact ⟨index + 1, heard, found, closes⟩

namespace Conversation

variable {handler : Handler} {settings : Settings} {request : Request} {number : Nat}
  {conversation : Conversation}

/-! ## Waiting for tasks -/

/-- An open session beside which only tasks run that a list of calls has started. -/
structure Attended (conversation : Conversation) : Prop where
  free : conversation.holdsOutput = false
  serving : conversation.server.Serving
  scripts : ∀ task ∈ conversation.pending, ∃ delivery calls, task = .script delivery calls

/-- A close frame has been sent, or a task that waits is going to send one. -/
def Wakes (conversation : Conversation) : Prop :=
  conversation.server.closing = true ∨ ∃ task ∈ conversation.pending, task.Closes

theorem Attended.callback (attended : conversation.Attended) (delivery : Option Delivery)
    (calls : List Call) (entry : List Answer → Entry) :
    (conversation.callback handler delivery calls entry).2.Attended where
  free := (holdsOutput_callback ..).trans attended.free
  serving := by
    rw [server_callback]
    exact attended.serving.performAll _ _
  scripts := scripts_callback attended.scripts

/-- The task that comes next is a list of calls, and so are the others. -/
theorem Attended.next {task : Task} {rest : List Task} (attended : conversation.Attended)
    (waits : conversation.pending = task :: rest) :
    (∃ delivery calls, task = .script delivery calls) ∧
      { conversation with pending := rest }.Attended :=
  ⟨attended.scripts task (waits ▸ List.mem_cons_self), attended.free, attended.serving,
    fun other member => attended.scripts other (waits ▸ List.mem_cons_of_mem _ member)⟩

theorem attended_kept (handler : Handler) : Kept handler Attended where
  task conversation task rest waits attended := by
    obtain ⟨⟨delivery, calls, rfl⟩, ready⟩ := attended.next waits
    exact ready.callback delivery calls .spawned
  message conversation kind payload attended := by
    have counted : { conversation with delivered := conversation.delivered + 1 }.Attended :=
      ⟨attended.free, attended.serving, attended.scripts⟩
    exact counted.callback _ _ _
  pong conversation payload attended :=
    ⟨attended.free, attended.serving.perform none (.send .pong payload), attended.scripts⟩

/-- A callback wakes a session exactly if its calls, or those of tasks that they start, send a
close frame. -/
theorem Attended.wakes_callback (attended : conversation.Attended) (delivery : Option Delivery)
    (calls : List Call) (entry : List Answer → Entry) :
    (conversation.callback handler delivery calls entry).2.Wakes ↔
      conversation.Wakes ∨ (Task.script delivery calls).Closes := by
  have closing : (conversation.callback handler delivery calls entry).2.server.closing =
      (conversation.server.closing || calls.any (·.closes delivery)) := by
    rw [server_callback, reach_of_free attended.free]
    exact attended.serving.closing_performAll delivery calls
  simp only [Wakes, closing, pending_callback, reach_of_free attended.free, Bool.or_eq_true,
    List.mem_append, or_and_right, exists_or, Task.closes_script_iff, or_assoc, or_left_comm]

theorem closing_settle_iff (attended : conversation.Attended) :
    (conversation.settle handler).server.closing = true ↔ conversation.Wakes := by
  fun_induction settle handler conversation with
  | case1 conversation idle => simp [Wakes, idle]
  | case2 conversation task rest waits ih =>
    rw [ih ((attended_kept handler).task _ _ _ waits attended)]
    obtain ⟨⟨delivery, calls, rfl⟩, ready⟩ := attended.next waits
    rw [runTask, ready.wakes_callback]
    simp only [Wakes, waits, List.mem_cons, or_and_right, exists_or, exists_eq_left, or_comm]
    exact or_left_comm

/-! ## Messages -/

theorem Attended.wakes_deliver (attended : conversation.Attended)
    (listens : conversation.Listens request number) (kind : MessageKind) (payload : Bytes) :
    (conversation.deliver handler kind payload).Wakes ↔
      conversation.Wakes ∨
        (Task.script (some (kind, payload))
          (handler.reply request number (kind, payload))).Closes := by
  obtain ⟨-, -, rfl, rfl⟩ := listens
  have counted : { conversation with delivered := conversation.delivered + 1 }.Attended :=
    ⟨attended.free, attended.serving, attended.scripts⟩
  exact counted.wakes_callback _ _ _

/-- Events without a close frame of the peer wake a session exactly if one of the replies does. -/
theorem Attended.wakes_dispatch {events : List Event}
    (attended : conversation.Attended) (listens : conversation.Listens request number)
    (further : conversation.server.closing = false)
    (quiet : ∀ payload, .close payload ∉ events) :
    (conversation.dispatch handler settings events).2.Wakes ↔
      conversation.Wakes ∨
        handler.RepliesClose request number (events.filterMap Event.message?) := by
  induction events generalizing conversation number with
  | nil => simp [dispatch, Handler.RepliesClose]
  | cons event events ih =>
    have later payload : .close payload ∉ events :=
      fun member => quiet payload (List.mem_cons_of_mem _ member)
    cases event with
    | message kind payload =>
      have heard := (listens.hear handler kind payload).1
      have woken : (conversation.deliver handler kind payload).Wakes ↔ _ :=
        attended.wakes_deliver listens kind payload
      have answered := (attended_kept handler).message _ kind payload attended
      simp only [dispatch, Event.message?, List.filterMap_cons, Handler.repliesClose_cons_iff,
        ← or_assoc, ← woken]
      -- Behind a reply that closes nothing more is delivered, and the session is awake already.
      split
      · next closing => exact iff_of_true (.inl closing) (.inl (.inl closing))
      · next still => exact ih answered heard (Bool.eq_false_iff.mpr still) later
    | ping payload =>
      obtain ⟨heard, still⟩ := listens.pong further payload
      have same : { conversation with
          server := (conversation.server.send .pong payload).2 }.Wakes ↔ conversation.Wakes := by
        rw [Wakes, Wakes, still, further]
      rw [← same]
      exact ih ((attended_kept handler).pong _ payload attended) heard still later
    | close payload => exact absurd List.mem_cons_self (quiet payload)

/-- A close frame of the peer ends a session, unless something has ended it before. -/
theorem close_notMem_of_dispatch {next : Conversation} {events : List Event}
    (further : conversation.dispatch handler settings events = (none, next)) (payload : Bytes) :
    .close payload ∉ events := by
  intro member
  obtain ⟨front, back, rfl⟩ := List.append_of_mem member
  rw [dispatch_append] at further
  split at further <;> cases further

end Conversation

/-! ## Waiting for the peer -/

/-- Nothing that the peer does ends a session. -/
structure Inbound.Quiet (inbound : Inbound) (settings : Settings) : Prop where
  silent : inbound.ending = .silent
  closes : ∀ payload, .close payload ∉ (inbound.heard settings).events.toList
  violation : (inbound.heard settings).violation = none

/-- A call that the handler makes in a session in which it hears these messages, or that a task
makes which these calls start, sends a close frame. -/
def Handler.EndsSession (handler : Handler) (request : Request) (messages : List Delivery) :
    Prop :=
  (Task.script none (handler.greet request).calls).Closes ∨ handler.RepliesClose request 0 messages

namespace Session

open Conversation

variable {handler : Handler} {settings : Settings} {request : Request} {inbound : Inbound}
  {sink : Sink}

/-- A session that its peer does not leave alone ends without its tasks having run. -/
theorem Opens.conversed_of_unquiet (opens : Opens handler request sink)
    (unquiet : ¬ inbound.Quiet settings) :
    ∃ outcome, conversed handler settings request inbound sink =
      (some outcome, ((opened handler request sink).dispatch handler settings
        (inbound.heard settings).events.toList).2) := by
  rw [opens.conversed_eq]
  cases acted : (opened handler request sink).dispatch handler settings
      (inbound.heard settings).events.toList with
  | mk first next =>
    cases first with
    | some first => exact ⟨first, rfl⟩
    | none =>
      cases broken : (inbound.heard settings).violation with
      | some error => exact ⟨_, rfl⟩
      | none =>
        cases ended : inbound.ending with
        | eof => exact ⟨_, rfl⟩
        | fails error => exact ⟨_, rfl⟩
        | silent => exact absurd ⟨ended, close_notMem_of_dispatch acted, broken⟩ unquiet

/-- The runs that get stuck. -/
inductive Stuck (handler : Handler) (settings : Settings) (request : Request)
    (inbound : Inbound) (sink : Sink) : Prop where
  /-- The handler needs the output while it is being asked. -/
  | asking (call : Call) (valid : request.validate = .ok ())
    (member : call ∈ (handler.greet request).calls) (needs : call.needsOutput none = true)
  /-- The peer falls silent in an open session, and the session has no end of its own. -/
  | listening (opens : Opens handler request sink) (quiet : inbound.Quiet settings)
    (endless : ¬ handler.EndsSession request (inbound.messages settings))

/-- The handler comes to the end of its calls exactly if none of them needs the output. -/
theorem returned_greeted_iff :
    (greeted handler request sink).1 = true ↔
      ∀ call ∈ (handler.greet request).calls, call.needsOutput none = false := by
  constructor
  · intro returned call member
    rw [Server.needsOutput_eq, silent_of_returned returned call member]
    rfl
  · exact fun silent => returned_callback_of_reach (reach_of_silent silent)

theorem Opens.pending_opened (idle : handler.workers = []) (opens : Opens handler request sink) :
    (opened handler request sink).pending =
      Call.spawned none (handler.greet request).calls := by
  have waiting : (opened handler request sink).pending =
      (greeted handler request sink).2.pending ++ handler.workers.map Task.worker := rfl
  rw [waiting, idle, greeted, pending_callback, reach_of_returned opens.returned]
  simp

theorem Opens.attended_opened (idle : handler.workers = []) (opens : Opens handler request sink) :
    (opened handler request sink).Attended where
  free := rfl
  serving := opens.serving_opened
  scripts task member := by
    rw [opens.pending_opened idle] at member
    obtain ⟨inner, -, same⟩ := Call.mem_spawned_iff.mp member
    exact ⟨_, inner, same⟩

/-- Of what the handler has done while it was being asked, only its tasks can end the session. -/
theorem Opens.wakes_opened_iff (idle : handler.workers = [])
    (opens : Opens handler request sink) :
    (opened handler request sink).Wakes ↔
      (Task.script none (handler.greet request).calls).Closes := by
  have none_closes : (handler.greet request).calls.any (·.closes none) = false := by
    refine List.any_eq_false.mpr fun call member => ?_
    simp [Call.closes, silent_of_returned opens.returned call member]
  rw [Wakes, opens.closing_opened, opens.pending_opened idle, Task.closes_script_iff, none_closes]

/-- A session is left without an outcome exactly if neither its peer nor its handler ends it. -/
theorem Opens.conversed_eq_none_iff (idle : handler.workers = [])
    (opens : Opens handler request sink) :
    (conversed handler settings request inbound sink).1 = none ↔
      inbound.Quiet settings ∧ ¬ handler.EndsSession request (inbound.messages settings) := by
  have attended := opens.attended_opened idle
  have listens := listens_opened opens
  have further := opens.closing_opened
  have woken (closes : ∀ payload, .close payload ∉ (inbound.heard settings).events.toList) :
      ((opened handler request sink).dispatch handler settings
          (inbound.heard settings).events.toList).2.Wakes ↔
        handler.EndsSession request (inbound.messages settings) := by
    rw [attended.wakes_dispatch listens further closes, opens.wakes_opened_iff idle]
    rfl
  have kept : ((opened handler request sink).dispatch handler settings
      (inbound.heard settings).events.toList).2.Attended :=
    (attended_kept handler).dispatch attended _
  rw [opens.conversed_eq]
  cases acted : (opened handler request sink).dispatch handler settings
      (inbound.heard settings).events.toList with
  | mk outcome next =>
    rw [acted] at woken kept
    cases outcome with
    | some outcome =>
      refine iff_of_false nofun fun ⟨quiet, endless⟩ => ?_
      rcases dispatch_eq_some listens.serving.marked further acted with
        ⟨-, closing⟩ | ⟨-, payload, member, -⟩
      · exact endless ((woken quiet.closes).mp (.inl closing))
      · exact quiet.closes payload member
    | none =>
      have closes := close_notMem_of_dispatch acted
      cases broken : (inbound.heard settings).violation with
      | some error => exact iff_of_false nofun fun ends => by simp [ends.1.violation] at broken
      | none =>
        cases ended : inbound.ending with
        | eof | fails => exact iff_of_false nofun fun ends => by simp [ends.1.silent] at ended
        | silent =>
          -- All tasks have run before the wait looks at the flag for the last time.
          have waits : (next.await handler).1 = none ↔
              ¬ (next.settle handler).server.closing = true := by
            unfold await
            dsimp only
            split <;> simp [*]
          rw [waits, closing_settle_iff kept, woken closes]
          exact ⟨fun endless => ⟨⟨ended, closes, broken⟩, endless⟩, And.right⟩

theorem Stuck.valid (stuck : Stuck handler settings request inbound sink) :
    request.validate = .ok () := by
  cases stuck with
  | asking call valid => exact valid
  | listening opens => exact opens.valid

/-- A run whose handler comes to the end of its calls can only get stuck in an open session. -/
theorem Stuck.listens (stuck : Stuck handler settings request inbound sink)
    (returned : (greeted handler request sink).1 = true) :
    Opens handler request sink ∧ inbound.Quiet settings ∧
      ¬ handler.EndsSession request (inbound.messages settings) := by
  cases stuck with
  | asking call valid member needs =>
    simp [returned_greeted_iff.mp returned call member] at needs
  | listening opens quiet endless => exact ⟨opens, quiet, endless⟩

theorem Opens.stuck_iff (opens : Opens handler request sink) :
    Stuck handler settings request inbound sink ↔
      inbound.Quiet settings ∧ ¬ handler.EndsSession request (inbound.messages settings) :=
  ⟨fun stuck => (stuck.listens opens.returned).2,
    fun ⟨quiet, endless⟩ => .listening opens quiet endless⟩

/-- The runs that never come to an end are those that get stuck. -/
theorem waiting_serve_iff (idle : handler.workers = []) :
    (serve handler settings request inbound sink).verdict = .waiting ↔
      Stuck handler settings request inbound sink := by
  have course := course_serve handler settings request inbound sink
  generalize serve handler settings request inbound sink = run at course
  cases course with
  | declined h =>
    cases h with
    | invalid error invalid =>
      exact iff_of_false nofun fun stuck => by simp [stuck.valid] at invalid
    | blocked valid blocked =>
      refine iff_of_true rfl ?_
      by_contra free
      have returned : (greeted handler request sink).1 = true :=
        returned_greeted_iff.mpr fun call member =>
          Bool.eq_false_iff.mpr fun needs => free (.asking call valid member needs)
      simp [returned] at blocked
    | refused valid returned refuses =>
      exact iff_of_false nofun fun stuck => by
        simp [(stuck.listens returned).1.accepts] at refuses
  | unanswered error welcomes failed same =>
    subst same
    exact iff_of_false nofun fun stuck => by
      simp [(stuck.listens welcomes.returned).1.answers] at failed
  | served opens served =>
    rw [opens.stuck_iff, ← opens.conversed_eq_none_iff idle]
    cases served with
    | waiting conversation h => exact iff_of_true rfl (congrArg Prod.fst h)
    | ended outcome conversation h => exact iff_of_false nofun (by simp [h])

/-- A session that only its handler ends is closed by it. -/
theorem Opens.localClosed_serve (idle : handler.workers = [])
    (opens : Opens handler request sink)
    (quiet : inbound.Quiet settings)
    (ends : handler.EndsSession request (inbound.messages settings)) :
    let run := serve handler settings request inbound sink
    run.verdict = .returned (.ok .localClosed) ∧
      ∃ payload, (.close, payload) ∈ run.outbound.admitted.toList := by
  have served := served_serve opens settings inbound
  dsimp only
  generalize serve handler settings request inbound sink = run at served
  cases served with
  | waiting conversation h =>
    have endless := (opens.conversed_eq_none_iff idle).mp (congrArg Prod.fst h)
    exact absurd ends endless.2
  | ended outcome conversation h =>
    have serving := opens.serving_conversed settings inbound
    rw [h] at serving
    rcases opens.ends_conversed h with ⟨rfl, closing⟩ | ⟨-, ends⟩
    · refine ⟨rfl, ?_⟩
      rw [outbound_finish_tearDown]
      exact serving.sent (serving.flag ▸ closing)
    · cases ends with
      | breach error broken => simp [quiet.violation] at broken
      | closed payload member => exact absurd member (quiet.closes payload)
      | eof ended => simp [quiet.silent] at ended
      | failed error ended => simp [quiet.silent] at ended

/-- **A run gets stuck in two ways only.** A run of a scripted handler waits forever exactly if the
handler needs the output while it is being asked, or the peer falls silent in an open session, its
bytes hold neither a close frame nor a breach, and no close frame is sent by a call that the handler
makes in the session or by a task that comes of its calls, at whatever depth. Every other run
returns. In particular one such close frame ends a session that waits on a silent peer, whatever
the stream makes of the frame. -/
theorem serve_waiting_iff (script : Script) (settings : Settings) (request : Request)
    (inbound : Inbound) (sink : Sink) :
    let handler := Handler.scripted script
    let run := serve handler settings request inbound sink
    (run.verdict = .waiting ↔ Stuck handler settings request inbound sink) ∧
      (¬ Stuck handler settings request inbound sink → ∃ result, run.verdict = .returned result) ∧
      (Opens handler request sink → inbound.Quiet settings →
        handler.EndsSession request (inbound.messages settings) →
          run.verdict = .returned (.ok .localClosed) ∧
            ∃ payload, (.close, payload) ∈ run.outbound.admitted.toList) := by
  intro handler run
  have waits : run.verdict = .waiting ↔ Stuck handler settings request inbound sink :=
    waiting_serve_iff rfl
  refine ⟨waits, fun free => ?_, fun opens quiet ends => opens.localClosed_serve rfl quiet ends⟩
  cases verdict : run.verdict with
  | returned result => exact ⟨result, rfl⟩
  | waiting => exact absurd (waits.mp verdict) free

/-- A task of a task closes a session that waits on a silent peer. The stream takes the 129 bytes of
the head and nothing of the close frame. -/
theorem serve_waiting_iff_closing :
    let request := Request.ofParts "GET" "/chat"
      [("Upgrade", "websocket"), ("Connection", "Upgrade"), ("Sec-WebSocket-Version", "7"),
        ("Sec-WebSocket-Key", "AQIDBAUGBwgJCgsMDQ4PEA==")]
    let script : Script := { connect := [.spawn [.isClosing, .spawn [.close]]] }
    let inbound : Inbound := { blocks := [[0x81, 0x82, 1, 2, 3, 4, 73, 107]], ending := .silent }
    let sink : Sink := { room := some 129 }
    Opens (.scripted script) request sink ∧ inbound.Quiet {} ∧
      (serve (.scripted script) {} request inbound sink).verdict = .returned (.ok .localClosed) ∧
      (∃ payload, (.close, payload) ∈
        (serve (.scripted script) {} request inbound sink).outbound.admitted.toList) ∧
      (serve (.scripted script) {} request inbound sink).sink.written.size = 129 := by
  intro request script inbound sink
  have ⟨ended, written⟩ :
      (serve (.scripted script) {} request inbound sink).verdict = .returned (.ok .localClosed) ∧
        (serve (.scripted script) {} request inbound sink).sink.written.size = 129 := by
    decide +kernel
  have opens : Opens (.scripted script) request sink := opens_of_returned ended nofun
  have heard : (inbound.heard {}).events.toList = [.message .text [72, 105]] ∧
      (inbound.heard {}).violation = none := by decide +kernel
  have quiet : inbound.Quiet {} := ⟨rfl, by simp [heard.1], heard.2⟩
  have ends : (Handler.scripted script).EndsSession request (inbound.messages {}) :=
    .inl ⟨none, .close, .started (.started (.made (.head _)) (.tail _ (.head _))) (.head _), rfl⟩
  obtain ⟨-, -, wakes⟩ := serve_waiting_iff script {} request inbound sink
  obtain ⟨returned, closed⟩ := wakes opens quiet ends
  exact ⟨opens, quiet, returned, closed, written⟩

end Session

end WebSocket
