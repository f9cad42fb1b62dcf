import Mathlib.Data.List.Forall2
import WebSocket.Proofs.Session.Chronicle
import WebSocket.Proofs.Session.Output

/-!
# Fields set too late

Once the head is written, setting a field of it has no effect. Two handlers that differ only in
such calls, those of tasks included, take a session through the same course: what is written, what
is admitted and what the run comes to are the same (`Session.serve_of_differsLate`). Only the
answers to the calls tell the two apart.
-/

namespace WebSocket

variable {calls others : List Call} {delivery : Option Delivery} {server : Server}

/-- Two lists of calls that differ in the setting of fields only, by themselves or in the tasks
that they start. -/
inductive DifferInFields : List Call → List Call → Prop where
  | nil : DifferInFields [] []
  | same (call : Call) {calls others : List Call} (further : DifferInFields calls others) :
    DifferInFields (call :: calls) (call :: others)
  | spawn {inner inner' calls others : List Call} (within : DifferInFields inner inner')
      (further : DifferInFields calls others) :
    DifferInFields (.spawn inner :: calls) (.spawn inner' :: others)
  | here (name value : String) {calls others : List Call} (further : DifferInFields calls others) :
    DifferInFields (.setHeader name value :: calls) others
  | there (name value : String) {calls others : List Call}
      (further : DifferInFields calls others) :
    DifferInFields calls (.setHeader name value :: others)

theorem DifferInFields.refl (calls : List Call) : DifferInFields calls calls := by
  induction calls with
  | nil => exact .nil
  | cons call calls ih => exact .same call ih

/-- Two tasks that differ in this way. -/
inductive Task.Differ : Task → Task → Prop where
  | script (delivery : Option Delivery) {calls others : List Call}
      (differ : DifferInFields calls others) :
    Differ (.script delivery calls) (.script delivery others)
  | worker (messages : List Delivery) : Differ (.worker messages) (.worker messages)

theorem Task.Differ.refl (task : Task) : task.Differ task := by
  cases task with
  | script delivery calls => exact .script delivery (.refl calls)
  | worker messages => exact .worker messages

/-- Two calls that differ, if at all, in the tasks that they start. -/
inductive Call.Differ : Call → Call → Prop where
  | same (call : Call) : Differ call call
  | spawn {inner inner' : List Call} (within : DifferInFields inner inner') :
    Differ (.spawn inner) (.spawn inner')

/-- Two handlers that differ in the fields that they set after they have been asked. -/
structure Handler.DiffersLate (handler other : Handler) : Prop where
  accepts : ∀ request, (handler.greet request).accepts = (other.greet request).accepts
  greet : ∀ request, List.Forall₂ Call.Differ (handler.greet request).calls
    (other.greet request).calls
  reply : ∀ request number message,
    DifferInFields (handler.reply request number message) (other.reply request number message)
  part : DifferInFields handler.part other.part
  workers : handler.workers = other.workers
  farewell : handler.farewell = other.farewell

/-! ## Calls -/

namespace Server

/-- The handler has been asked. -/
def Late (server : Server) : Prop := SessionState.connecting.rank < server.state.rank

theorem Late.perform (late : server.Late) (delivery : Option Delivery) (call : Call) :
    (server.perform delivery call).2.Late :=
  Nat.lt_of_lt_of_le late (server.rank_perform delivery call)

theorem late_advance {state : SessionState} (further : SessionState.connecting.rank < state.rank)
    (server : Server) : (server.advance state).Late := by
  simp only [Late, Server.advance, SessionState.advance]
  split
  · exact further
  · exact Nat.lt_of_lt_of_le further (Nat.not_lt.mp ‹_›)

/-- A field that is set late is checked, and nothing else happens. -/
theorem perform_setHeader_of_late (late : server.Late) (name value : String) :
    server.perform delivery (.setHeader name value) =
      (.ofUnit (checkField name value), server) := by
  have ignored : server.state.rank > SessionState.connecting.rank := late
  simp only [perform, setHeader, if_pos ignored]
  cases checkField name value <;> rfl

theorem performAll_of_differ (differ : DifferInFields calls others) (late : server.Late) :
    (server.performAll delivery calls).2 = (server.performAll delivery others).2 := by
  induction differ generalizing server with
  | nil => rfl
  | same call _ ih =>
    rw [performAll_cons, performAll_cons]
    exact ih (late.perform delivery call)
  | spawn _ _ _ ih =>
    rw [performAll_cons, performAll_cons]
    exact ih late
  | here name value _ ih =>
    rw [performAll_cons, perform_setHeader_of_late late]
    exact ih late
  | there name value _ ih =>
    rw [performAll_cons, perform_setHeader_of_late late]
    exact ih late

end Server

/-- The tasks that are started differ no more than that. -/
theorem DifferInFields.spawned (differ : DifferInFields calls others)
    (delivery : Option Delivery) :
    List.Forall₂ Task.Differ (Call.spawned delivery calls) (Call.spawned delivery others) := by
  induction differ with
  | nil => exact .nil
  | same call _ ih =>
    cases call with
    | spawn inner => exact .cons (.script delivery (.refl inner)) ih
    | _ => exact ih
  | spawn within _ _ ih => exact .cons (.script delivery within) ih
  | here _ _ _ ih => exact ih
  | there _ _ _ ih => exact ih

/-! ## Conversations -/

namespace Conversation

variable {handler other : Handler} {settings : Settings} {ending : Ending}
  {conversation shadow : Conversation}

/-- Two conversations that differ in their journals and in the tasks that wait. -/
structure Shadows (conversation shadow : Conversation) : Prop where
  server : conversation.server = shadow.server
  free : conversation.holdsOutput = false
  free' : shadow.holdsOutput = false
  pending : List.Forall₂ Task.Differ conversation.pending shadow.pending
  delivered : conversation.delivered = shadow.delivered
  activeWorkers : conversation.activeWorkers = shadow.activeWorkers
  stopping : conversation.stopping = shadow.stopping

theorem Shadows.withServer (shadows : conversation.Shadows shadow) (server : Server) :
    ({ conversation with server } : Conversation).Shadows { shadow with server } :=
  { shadows with server := rfl }

theorem Shadows.callback (shadows : conversation.Shadows shadow) (handler other : Handler)
    (late : conversation.server.Late) (differ : DifferInFields calls others)
    (delivery : Option Delivery) (entry entry' : List Answer → Entry) :
    (conversation.callback handler delivery calls entry).2.Shadows
      (shadow.callback other delivery others entry').2 := by
  rw [callback_snd handler conversation, callback_snd other shadow, reach_of_free shadows.free,
    reach_of_free shadows.free']
  exact {
    server := by rw [← shadows.server, Server.performAll_of_differ differ late]
    free := shadows.free
    free' := shadows.free'
    pending := List.rel_append shadows.pending (differ.spawned delivery)
    delivered := shadows.delivered
    activeWorkers := shadows.activeWorkers
    stopping := shadows.stopping }

theorem Shadows.runTask (shadows : conversation.Shadows shadow) (late : conversation.server.Late)
    (differs : handler.DiffersLate other) {task task' : Task} (differ : task.Differ task') :
    (runTask handler conversation task).Shadows (runTask other shadow task') := by
  cases differ with
  | script delivery differ => exact shadows.callback _ _ late differ delivery _ _
  | worker messages =>
    simp only [Conversation.runTask, runWorker, shadows.server, shadows.stopping,
      shadows.activeWorkers, differs.farewell]
    exact { shadows with server := rfl, activeWorkers := rfl, stopping := rfl }

theorem kept_late (handler : Handler) : Kept handler fun conversation => conversation.server.Late :=
  .ofServer fun _ delivery call late => late.perform delivery call

theorem Shadows.settle (shadows : conversation.Shadows shadow) (late : conversation.server.Late)
    (differs : handler.DiffersLate other) :
    (conversation.settle handler).Shadows (shadow.settle other) := by
  have waiting := shadows.pending
  fun_induction Conversation.settle handler conversation generalizing shadow with
  | case1 conversation none =>
    rw [none] at waiting
    rw [settle_of_nil (List.forall₂_nil_left_iff.mp waiting)]
    exact shadows
  | case2 conversation task rest waits ih =>
    rw [waits] at waiting
    obtain ⟨task', rest', differ, others, waits'⟩ := List.forall₂_cons_left_iff.mp waiting
    rw [settle_of_cons waits']
    have turn : ({ conversation with pending := rest } : Conversation).Shadows
        { shadow with pending := rest' } := { shadows with pending := others }
    have next := turn.runTask late differs differ
    exact ih next ((kept_late handler).task conversation task rest waits late) next.pending

theorem Shadows.deliver (shadows : conversation.Shadows shadow) (late : conversation.server.Late)
    (differs : handler.DiffersLate other) (kind : MessageKind) (payload : Bytes) :
    (conversation.deliver handler kind payload).Shadows (shadow.deliver other kind payload) := by
  have counted : ({ conversation with delivered := conversation.delivered + 1 } :
      Conversation).Shadows { shadow with delivered := shadow.delivered + 1 } :=
    { shadows with delivered := by rw [shadows.delivered] }
  have replies : DifferInFields
      (handler.reply conversation.server.request conversation.delivered (kind, payload))
      (other.reply shadow.server.request shadow.delivered (kind, payload)) := by
    rw [shadows.server, shadows.delivered]
    exact differs.reply ..
  exact counted.callback _ _ late replies _ _ _

theorem Shadows.dispatch (shadows : conversation.Shadows shadow) (settings : Settings)
    (late : conversation.server.Late) (differs : handler.DiffersLate other)
    (events : List Event) :
    (conversation.dispatch handler settings events).1 =
        (shadow.dispatch other settings events).1 ∧
      (conversation.dispatch handler settings events).2.Shadows
        (shadow.dispatch other settings events).2 := by
  induction events generalizing conversation shadow with
  | nil => exact ⟨rfl, shadows⟩
  | cons event events ih =>
    cases event with
    | message kind payload =>
      have delivered := shadows.deliver late differs kind payload
      simp only [Conversation.dispatch, ← delivered.server]
      split
      · exact ⟨rfl, delivered⟩
      · exact ih delivered ((kept_late handler).message conversation kind payload late)
    | ping payload =>
      simp only [Conversation.dispatch, ← shadows.server]
      exact ih (shadows.withServer _) ((kept_late handler).pong conversation payload late)
    | close payload => exact ⟨rfl, shadows⟩

theorem Shadows.converse (shadows : conversation.Shadows shadow) (settings : Settings)
    (ending : Ending) (late : conversation.server.Late) (differs : handler.DiffersLate other)
    (blocks : List Bytes) (machine : Reassembler) :
    (conversation.converse handler settings ending blocks machine).1 =
        (shadow.converse other settings ending blocks machine).1 ∧
      (conversation.converse handler settings ending blocks machine).2.Shadows
        (shadow.converse other settings ending blocks machine).2 := by
  induction blocks generalizing conversation shadow machine with
  | nil =>
    have settled := shadows.settle late differs
    simp only [Conversation.converse, await, ← shadows.server, ← settled.server]
    split
    · exact ⟨rfl, shadows⟩
    · cases ending with
      | eof | fails => exact ⟨rfl, shadows⟩
      | silent => exact ⟨rfl, settled⟩
  | cons block blocks ih =>
    cases closing : conversation.server.closing with
    | true =>
      rw [converse_of_closing closing, converse_of_closing (shadows.server ▸ closing)]
      exact ⟨rfl, shadows⟩
    | false =>
      rw [converse_cons closing, converse_cons (shadows.server ▸ closing)]
      obtain ⟨same, acted⟩ := shadows.dispatch settings late differs
        (machine.feed settings.limits block).events.toList
      have late : (conversation.dispatch handler settings
          (machine.feed settings.limits block).events.toList).2.server.Late :=
        (kept_late handler).dispatch late _
      dsimp only
      cases first : conversation.dispatch handler settings
        (machine.feed settings.limits block).events.toList with
      | mk outcome next =>
        cases second : shadow.dispatch other settings
          (machine.feed settings.limits block).events.toList with
        | mk outcome' next' =>
          rw [first] at late
          rw [first, second] at same acted
          dsimp only at same acted late
          subst same
          cases outcome with
          | some outcome => exact ⟨rfl, acted⟩
          | none =>
            cases (machine.feed settings.limits block).violation with
            | some error => exact ⟨rfl, acted⟩
            | none => exact ih acted late _

theorem late_callback (late : conversation.server.Late) (entry : List Answer → Entry) :
    (conversation.callback handler delivery calls entry).2.server.Late := by
  rw [server_callback]
  exact Server.performAll_induction (P := Server.Late)
    (fun _ call late => late.perform delivery call) late _

theorem Shadows.halted (shadows : conversation.Shadows shadow)
    (differs : handler.DiffersLate other) :
    (conversation.halted handler).Shadows (shadow.halted other) ∧
      (conversation.halted handler).server.Late := by
  have stopped : ({ conversation with
        server := conversation.server.detach.advance .disconnected, stopping := true } :
      Conversation).Shadows
        { shadow with server := shadow.server.detach.advance .disconnected, stopping := true } :=
    { shadows with server := by rw [shadows.server], stopping := rfl }
  have late : (conversation.server.detach.advance .disconnected).Late :=
    Server.late_advance (by decide) _
  simp only [Conversation.halted, ← differs.workers]
  split
  · exact ⟨stopped, late⟩
  · exact ⟨stopped.settle late differs, (kept_late handler).settle late⟩

theorem Shadows.tearDown (shadows : conversation.Shadows shadow)
    (differs : handler.DiffersLate other) :
    (conversation.tearDown handler).Shadows (shadow.tearDown other) ∧
      (conversation.tearDown handler).server.Late := by
  obtain ⟨halted, late⟩ := shadows.halted differs
  have told := halted.callback handler other late differs.part none
    (.disconnect (conversation.halted handler).server.state)
    (.disconnect (shadow.halted other).server.state)
  rw [tearDown_eq, tearDown_eq]
  exact ⟨{ told with server := congrArg Server.shutDown told.server },
    late_callback late _⟩

end Conversation

/-- Two runs that only their journals tell apart. -/
structure Run.Alike (run other : Run) : Prop where
  verdict : run.verdict = other.verdict
  outbound : run.outbound = other.outbound

namespace Conversation

variable {handler other : Handler} {conversation shadow : Conversation}

theorem Shadows.finish (shadows : conversation.Shadows shadow) (late : conversation.server.Late)
    (differs : handler.DiffersLate other) (result : Except Error Outcome) :
    (conversation.finish handler result).Alike (shadow.finish other result) :=
  ⟨rfl, congrArg Server.outbound (shadows.settle late differs).server⟩

/-- When the session gives the output free, a client that was accepted is served alike. -/
theorem Shadows.accept
    (shadows : ({ conversation with holdsOutput := false } : Conversation).Shadows
      { shadow with holdsOutput := false })
    (differs : handler.DiffersLate other) (settings : Settings) (inbound : Inbound) :
    (conversation.accept handler settings inbound).Alike
      (shadow.accept other settings inbound) := by
  have same : conversation.server = shadow.server := shadows.server
  have pending : List.Forall₂ Task.Differ conversation.pending shadow.pending := shadows.pending
  have workers := List.forall₂_same.mpr fun task (_ : task ∈ handler.workers.map Task.worker) =>
    Task.Differ.refl task
  have answered (server : Server) :
      ({ conversation with
          server, holdsOutput := false,
          pending := conversation.pending ++ handler.workers.map Task.worker,
          activeWorkers := handler.workers.length } : Conversation).Shadows
        { shadow with
          server, holdsOutput := false,
          pending := shadow.pending ++ handler.workers.map Task.worker,
          activeWorkers := handler.workers.length } :=
    { shadows with
      server := rfl, pending := List.rel_append pending workers, activeWorkers := rfl }
  simp only [Conversation.accept, ← same, ← differs.workers]
  obtain ⟨result, server⟩ := conversation.server.sendHead
  cases result with
  | error error =>
    obtain ⟨down, late⟩ := (answered server).tearDown differs
    exact down.finish late differs _
  | ok =>
    have late : (server.advance .opened).Late := Server.late_advance (by decide) server
    obtain ⟨outcome, ended⟩ := (answered (server.advance .opened)).converse settings inbound.ending
      late differs (inbound.reads settings.readBlock) {}
    dsimp only
    generalize Conversation.converse handler settings inbound.ending
      (inbound.reads settings.readBlock) {} _ = run at outcome ended ⊢
    generalize Conversation.converse other settings inbound.ending
      (inbound.reads settings.readBlock) {} _ = run' at outcome ended ⊢
    obtain ⟨last, next⟩ := run
    obtain ⟨last', next'⟩ := run'
    dsimp only at outcome ended ⊢
    subst outcome
    cases last with
    | none => exact ⟨rfl, congrArg Server.outbound ended.server⟩
    | some outcome =>
      have closed : (Session.parted next outcome).Shadows (Session.parted next' outcome) :=
        { ended with server := by rw [Session.parted, Session.parted, ended.server] }
      obtain ⟨down, late⟩ := closed.tearDown differs
      exact down.finish late differs _

theorem Shadows.refuse
    (shadows : ({ conversation with holdsOutput := false } : Conversation).Shadows
      { shadow with holdsOutput := false })
    (differs : handler.DiffersLate other) :
    (conversation.refuse handler).Alike (shadow.refuse other) := by
  have same : conversation.server = shadow.server := shadows.server
  have down (server : Server) :
      ({ conversation with server, holdsOutput := false } : Conversation).Shadows
        { shadow with server, holdsOutput := false } := { shadows with server := rfl }
  simp only [Conversation.refuse, ← same]
  refine (down _).finish ?_ differs _
  exact Server.late_advance (by decide) _

end Conversation

/-! ## Asking the handler -/

namespace Call

variable {call call' : Call}

theorem Differ.needsOutput (differ : call.Differ call') (delivery : Option Delivery) :
    call.needsOutput delivery = call'.needsOutput delivery := by
  cases differ <;> rfl

theorem Differ.perform (differ : call.Differ call') (server : Server)
    (delivery : Option Delivery) :
    server.perform delivery call = server.perform delivery call' := by
  cases differ <;> rfl

theorem differInFields_of_differ (differ : List.Forall₂ Differ calls others) :
    DifferInFields calls others := by
  induction differ with
  | nil => exact .nil
  | cons first _ ih =>
    cases first with
    | same => exact .same _ ih
    | spawn within => exact .spawn within ih

theorem takeWhile_of_differ (differ : List.Forall₂ Differ calls others)
    (delivery : Option Delivery) :
    List.Forall₂ Differ (calls.takeWhile (!·.needsOutput delivery))
      (others.takeWhile (!·.needsOutput delivery)) := by
  induction differ with
  | nil => exact .nil
  | cons first _ ih =>
    rw [List.takeWhile_cons, List.takeWhile_cons, first.needsOutput]
    split
    · exact .cons first ih
    · exact .nil

end Call

theorem Server.performAll_of_forall₂ (differ : List.Forall₂ Call.Differ calls others)
    (server : Server) (delivery : Option Delivery) :
    (server.performAll delivery calls).2 = (server.performAll delivery others).2 := by
  induction differ generalizing server with
  | nil => rfl
  | cons first _ ih =>
    rw [performAll_cons, performAll_cons, first.perform]
    exact ih _

namespace Session

open Conversation

variable {handler other : Handler}

theorem callback_fst (handler : Handler) (conversation : Conversation)
    (delivery : Option Delivery) (calls : List Call) (entry : List Answer → Entry) :
    (conversation.callback handler delivery calls entry).1 =
      decide ((conversation.reach delivery calls).length = calls.length) := by
  unfold callback perform
  by_cases all : (conversation.reach delivery calls).length = calls.length <;> simp [all]

/-- The two handlers are asked alike. -/
theorem greeted_of_differsLate (differs : handler.DiffersLate other) (request : Request)
    (sink : Sink) :
    (greeted handler request sink).1 = (greeted other request sink).1 ∧
      ({ (greeted handler request sink).2 with holdsOutput := false } : Conversation).Shadows
        { (greeted other request sink).2 with holdsOutput := false } := by
  have calls := differs.greet request
  have reached := Call.takeWhile_of_differ calls none
  constructor
  · rw [greeted, greeted, callback_fst, callback_fst, ← calls.length_eq]
    exact congrArg (fun length => decide (length = _)) reached.length_eq
  · rw [greeted, greeted, callback_snd handler, callback_snd other]
    exact {
      server := Server.performAll_of_forall₂ reached _ none
      free := rfl
      free' := rfl
      pending := (Call.differInFields_of_differ reached).spawned none
      delivered := rfl
      activeWorkers := rfl
      stopping := rfl }

theorem serve_of_valid {request : Request} (valid : request.validate = .ok ())
    (handler : Handler) (settings : Settings) (inbound : Inbound) (sink : Sink) :
    serve handler settings request inbound sink =
      match greeted handler request sink with
      | (false, conversation) => (conversation.settle handler).abandon
      | (true, conversation) =>
        if (handler.greet request).accepts then conversation.accept handler settings inbound
        else conversation.refuse handler := by
  rw [serve, valid]
  rfl

/-- Handlers that differ in the fields that they set once they have been asked, in callbacks or
in tasks, put the same bytes on the wire, and their sessions come to the same. -/
theorem serve_of_differsLate (differs : handler.DiffersLate other) (settings : Settings)
    (request : Request) (inbound : Inbound) (sink : Sink) :
    (serve handler settings request inbound sink).Alike
      (serve other settings request inbound sink) := by
  cases valid : request.validate with
  | error error =>
    rw [serve, serve, valid]
    exact ⟨rfl, rfl⟩
  | ok =>
    obtain ⟨returned, shadows⟩ := greeted_of_differsLate differs request sink
    have out := ((held_greeted handler request sink).settle handler).outbound
    have out' := ((held_greeted other request sink).settle other).outbound
    rw [serve_of_valid valid, serve_of_valid valid, ← differs.accepts]
    generalize greeted handler request sink = first at returned shadows out ⊢
    generalize greeted other request sink = second at returned shadows out' ⊢
    obtain ⟨came, asked⟩ := first
    obtain ⟨came', asked'⟩ := second
    dsimp only at returned shadows out out' ⊢
    subst returned
    cases came with
    | false => exact ⟨rfl, out.trans out'.symm⟩
    | true =>
      dsimp only
      split
      · exact shadows.accept differs settings inbound
      · exact shadows.refuse differs

end Session

end WebSocket
