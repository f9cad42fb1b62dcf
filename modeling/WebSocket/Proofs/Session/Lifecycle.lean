import WebSocket.Handler.Scripted
import WebSocket.Proofs.Session.Chronicle

/-!
# The life of a session

A request that is fit is put to the handler once, before anything else happens; if the handler
accepts, it is told of the end once, whatever became of the session in between; and what it hears
in between are the messages of the peer, as long as the session is open (`Lifecycle`). Every run
of a scripted handler that comes to an end is such a life, shows the states of the session in
order, and shuts the stream down exactly if the handler was asked (`Session.serve_lifecycle`).
-/

namespace WebSocket

open Session in
/-- The life of a session as a journal tells it. -/
inductive Lifecycle (handler : Handler) (settings : Settings) (request : Request)
    (inbound : Inbound) (sink : Sink) : List Entry → Prop where
  /-- A request that is not fit is not put to the handler. -/
  | unfit (error : Error) (h : request.validate = .error error) :
    Lifecycle handler settings request inbound sink []
  | refused (answers : List Answer) (after : List Entry) (valid : request.validate = .ok ())
      (refuses : (handler.greet request).accepts = false)
      (tasks : ∀ entry ∈ after, entry.isTask = true) :
    Lifecycle handler settings request inbound sink (.connect .connecting answers :: after)
  | accepted (answers farewell : List Answer) (during after : List Entry)
      (valid : request.validate = .ok ()) (accepts : (handler.greet request).accepts = true)
      (between : ∀ entry ∈ during, entry.isTask = true ∨ entry.message?.isSome = true)
      (tasks : ∀ entry ∈ after, entry.isTask = true)
      (unopened : ¬ Opens handler request sink → during = [])
      (opened : Opens handler request sink →
        during.filterMap Entry.message? =
          (handler.hears request 0 (inbound.messages settings)).map (·, .opened)) :
    Lifecycle handler settings request inbound sink
      (.connect .connecting answers :: (during ++ .disconnect .disconnected farewell :: after))

namespace Server

theorem state_sendHead (server : Server) : server.sendHead.2.state = server.state := by
  unfold sendHead
  split <;> rfl

theorem request_sendHead (server : Server) : server.sendHead.2.request = server.request := by
  unfold sendHead
  split <;> rfl

theorem request_detach (server : Server) : server.detach.request = server.request := by
  unfold detach markClosing
  split <;> rfl

theorem state_advance_disconnected (server : Server) :
    (server.advance .disconnected).state = .disconnected := by
  simp only [advance]
  cases server.state <;> rfl

end Server

namespace Conversation

variable {handler : Handler} {request : Request} {conversation : Conversation}

/-- The client is turned away; what is left are tasks. -/
def turnedAway (conversation : Conversation) : Conversation :=
  let server := { conversation.server with outbound := conversation.server.outbound.detach }
  { conversation with
    server := (server.advance .disconnected).shutDown, holdsOutput := false }

/-- Without workers there is nobody to wait for. -/
theorem tearDown_of_idle (idle : handler.workers = []) (conversation : Conversation) :
    conversation.tearDown handler =
      let told := (conversation.closedDown.callback handler none handler.part
        (.disconnect .disconnected)).2
      { told with server := told.server.shutDown } := by
  simp only [tearDown, idle, List.isEmpty_nil, if_true, Server.state_advance_disconnected]
  rfl

theorem journal_tearDown (keeps : handler.keepsJournal = true) (idle : handler.workers = [])
    (free : conversation.holdsOutput = false) :
    ∃ farewell, (conversation.tearDown handler).journal.toList =
      conversation.journal.toList ++ [.disconnect .disconnected farewell] := by
  have free : conversation.closedDown.holdsOutput = false := free
  rw [tearDown_of_idle idle]
  dsimp only
  rw [callback_of_returned keeps (callback_of_free free)]
  exact ⟨_, Array.toList_push⟩

theorem Chronicled.closedDown (chronicled : Chronicled handler request conversation) :
    Chronicled handler request conversation.closedDown := by
  refine chronicled.later (Server.request_detach _) rfl rfl rfl ?_
  rw [Conversation.closedDown, Server.state_advance_disconnected]
  exact SessionState.rank_le_disconnected _

theorem Chronicled.tearDown (keeps : handler.keepsJournal = true) (idle : handler.workers = [])
    (free : conversation.holdsOutput = false)
    (chronicled : Chronicled handler request conversation) :
    Chronicled handler request (conversation.tearDown handler) := by
  obtain ⟨asked, agrees⟩ := chronicled.closedDown
  have seen := agrees.see
  rw [tearDown_of_idle idle]
  have told : Chronicled handler request (conversation.closedDown.callback handler none
      handler.part (.disconnect .disconnected)).2 := by
    refine chronicled_callback keeps seen asked (callback_of_free free) fun answers => ?_
    rw [Conversation.closedDown, Server.state_advance_disconnected]
    rfl
  exact told.later rfl rfl rfl rfl (Nat.le_refl _)

/-- What is left to run is followed to the end. -/
theorem Chronicled.settle (keeps : handler.keepsJournal = true)
    (free : conversation.holdsOutput = false)
    (chronicled : Chronicled handler request conversation) :
    Chronicled handler request (conversation.settle handler) :=
  ((chronicled_kept keeps request).settle ⟨free, chronicled⟩).2

theorem holdsOutput_tearDown (idle : handler.workers = []) (conversation : Conversation) :
    (conversation.tearDown handler).holdsOutput = conversation.holdsOutput := by
  rw [tearDown_of_idle idle]
  exact holdsOutput_callback ..

end Conversation

namespace Session

open Conversation

variable {handler : Handler} {settings : Settings} {request : Request} {inbound : Inbound}
  {sink : Sink} {outcome : Outcome}

/-- The handler has been asked in the state for it, and nothing else has been entered. -/
theorem journal_greeted (keeps : handler.keepsJournal = true)
    (returned : (greeted handler request sink).1 = true) :
    ∃ answers,
      (greeted handler request sink).2.journal.toList = [.connect .connecting answers] := by
  rw [greeted, callback_of_returned keeps returned]
  exact ⟨_, Array.toList_push⟩

theorem chronicled_greeted (keeps : handler.keepsJournal = true)
    (returned : (greeted handler request sink).1 = true) :
    Chronicled handler request (greeted handler request sink).2 := by
  let asking : Conversation :=
    { server := (Server.ofRequest request sink).advance .connecting, holdsOutput := true }
  have nothing : Agrees {} asking := ⟨rfl, rfl, .nil, nofun⟩
  exact chronicled_callback keeps nothing.see rfl returned fun answers => rfl

/-- While the handler is idle, answering the request adds no task. -/
theorem chronicled_answered (keeps : handler.keepsJournal = true) (idle : handler.workers = [])
    (returned : (greeted handler request sink).1 = true) :
    Chronicled handler request (answered handler request sink) := by
  refine (chronicled_greeted keeps returned).later (Server.request_sendHead _) rfl ?_ rfl ?_
  · simp only [answered, idle, List.map_nil, List.append_nil]
  · exact (Server.state_sendHead _ ▸ Nat.le_refl _)

theorem chronicled_opened (keeps : handler.keepsJournal = true) (idle : handler.workers = [])
    (returned : (greeted handler request sink).1 = true) :
    Chronicled handler request (opened handler request sink) :=
  (chronicled_answered keeps idle returned).later rfl rfl rfl rfl
    (SessionState.rank_le_advance _ _)

/-- What the handler hears in a session, with the tasks that run while the session waits. -/
theorem journal_conversed (keeps : handler.keepsJournal = true)
    (opens : Opens handler request sink) (settings : Settings) (inbound : Inbound) :
    ∃ entries tasks, (conversed handler settings request inbound sink).2.journal.toList =
        (opened handler request sink).journal.toList ++ (entries ++ tasks) ∧
      (∀ entry ∈ tasks, entry.isTask = true) ∧
      entries.map Entry.message? = (handler.hears request 0 (inbound.messages settings)).map
        fun message => some (message, .opened) := by
  obtain ⟨entries, same, heard⟩ := journal_dispatch settings keeps
    (inbound.closesLast_heard settings) (listens_opened opens) opens.closing_opened
  have quiet {next : Conversation} (same : next.journal.toList =
      (opened handler request sink).journal.toList ++ entries) :
      next.journal.toList = (opened handler request sink).journal.toList ++ (entries ++ []) := by
    rw [same, List.append_nil]
  rw [opens.conversed_eq]
  cases acted : (opened handler request sink).dispatch handler settings
      (inbound.heard settings).events.toList with
  | mk outcome next =>
    rw [acted] at same
    cases outcome with
    | some outcome => exact ⟨entries, [], quiet same, nofun, heard⟩
    | none =>
      cases (inbound.heard settings).violation with
      | some error => exact ⟨entries, [], quiet same, nofun, heard⟩
      | none =>
        cases inbound.ending with
        | eof | fails => exact ⟨entries, [], quiet same, nofun, heard⟩
        | silent =>
          obtain ⟨tasks, added, all⟩ := journal_settle handler next
          refine ⟨entries, tasks, ?_, all, heard⟩
          rw [← List.append_assoc, ← same]
          exact added

theorem chronicled_conversed (keeps : handler.keepsJournal = true)
    (idle : handler.workers = []) (opens : Opens handler request sink) (settings : Settings)
    (inbound : Inbound) :
    let conversation := (conversed handler settings request inbound sink).2
    conversation.holdsOutput = false ∧ Chronicled handler request conversation :=
  (chronicled_kept keeps request).converse ⟨rfl, chronicled_opened keeps idle opens.returned⟩ _

theorem chronicled_parted {conversation : Conversation}
    (chronicled : Chronicled handler request conversation) (outcome : Outcome) :
    Chronicled handler request (parted conversation outcome) := by
  have kept : (closeFor conversation.server outcome).request = conversation.server.request ∧
      conversation.server.state.rank ≤ (closeFor conversation.server outcome).state.rank :=
    closeFor_induction
      (P := fun server => server.request = conversation.server.request ∧
        conversation.server.state.rank ≤ server.state.rank)
      (fun server delivery call h =>
        ⟨(server.request_perform delivery call).trans h.1,
          h.2.trans (server.rank_perform delivery call)⟩)
      ⟨rfl, Nat.le_refl _⟩ outcome
  exact chronicled.later kept.1 rfl rfl rfl kept.2

/-! ## Whole runs -/

theorem journal_finish (handler : Handler) (conversation : Conversation)
    (result : Except Error Outcome) :
    ∃ after, (conversation.finish handler result).journal =
        conversation.journal.toList ++ after ∧ ∀ entry ∈ after, entry.isTask = true :=
  journal_settle handler conversation

theorem shown_finish (keeps : handler.keepsJournal = true) {conversation : Conversation}
    (free : conversation.holdsOutput = false)
    (chronicled : Chronicled handler request conversation) (result : Except Error Outcome) :
    InOrder (Entry.shown handler request (conversation.finish handler result).journal) :=
  (chronicled.settle keeps free).agrees.ordered

/-- The end of an accepted session: the handler is told, and then only tasks run. -/
theorem lifecycle_tearDown (keeps : handler.keepsJournal = true) (idle : handler.workers = [])
    {conversation : Conversation} (welcomes : Welcomes handler request sink)
    (free : conversation.holdsOutput = false) {answers : List Answer} {during : List Entry}
    (entered : conversation.journal.toList = .connect .connecting answers :: during)
    (between : ∀ entry ∈ during, entry.isTask = true ∨ entry.message?.isSome = true)
    (unopened : ¬ Opens handler request sink → during = [])
    (opened : Opens handler request sink →
      during.filterMap Entry.message? =
        (handler.hears request 0 (inbound.messages settings)).map (·, .opened))
    (result : Except Error Outcome) :
    Lifecycle handler settings request inbound sink
      ((conversation.tearDown handler).finish handler result).journal := by
  obtain ⟨farewell, told⟩ := journal_tearDown keeps idle free
  obtain ⟨after, ran, tasks⟩ := journal_finish handler (conversation.tearDown handler) result
  have whole : ((conversation.tearDown handler).finish handler result).journal =
      .connect .connecting answers :: (during ++ .disconnect .disconnected farewell :: after) := by
    simp [ran, told, entered]
  rw [whole]
  exact .accepted answers farewell during after welcomes.valid welcomes.accepts between tasks
    unopened opened

theorem isShutDown_retire (out : Outbound) : out.retire.sink.isShutDown = true := by
  rw [Outbound.retire, Sink.shutDown_snd]

/-- What is to be shown of a run. -/
structure Lived (handler : Handler) (settings : Settings) (request : Request)
    (inbound : Inbound) (sink : Sink) (run : Run) : Prop where
  life : Lifecycle handler settings request inbound sink run.journal
  ordered : InOrder (Entry.shown handler request run.journal)
  shutDown : run.sink.isShutDown = (sink.isShutDown || request.validate.isOk)

theorem lived_declined (keeps : handler.keepsJournal = true) (settings : Settings)
    (inbound : Inbound) {run : Run} {result : Except Error Outcome}
    (returns : run.verdict = .returned result) (declined : Declined handler request sink run) :
    Lived handler settings request inbound sink run := by
  cases declined with
  | invalid error invalid =>
    refine ⟨.unfit error invalid, .nil, ?_⟩
    rw [invalid]
    exact (Bool.or_false _).symm
  | blocked valid h => cases returns
  | refused valid returned refuses =>
    obtain ⟨answers, asked⟩ := journal_greeted keeps returned
    have chronicled : Chronicled handler request (greeted handler request sink).2.turnedAway :=
      (chronicled_greeted keeps returned).later rfl rfl rfl rfl
        (SessionState.rank_le_advance _ _)
    refine ⟨?_, shown_finish keeps rfl chronicled (.ok .refused), ?_⟩
    · obtain ⟨after, ran, tasks⟩ :=
        journal_finish handler (greeted handler request sink).2.turnedAway (.ok .refused)
      have whole : ((greeted handler request sink).2.refuse handler).journal =
          .connect .connecting answers :: after :=
        ran.trans (congrArg (· ++ after) asked)
      rw [whole]
      exact .refused answers after valid refuses tasks
    · rw [Run.sink, outbound_refuse, isShutDown_retire, valid]
      exact (Bool.or_true _).symm

/-- An accepted session, however it was brought to its end. -/
theorem lived_tearDown (keeps : handler.keepsJournal = true) (idle : handler.workers = [])
    (welcomes : Welcomes handler request sink) {conversation : Conversation}
    (free : conversation.holdsOutput = false)
    (chronicled : Chronicled handler request conversation) {result : Except Error Outcome}
    (life : Lifecycle handler settings request inbound sink
      ((conversation.tearDown handler).finish handler result).journal) :
    Lived handler settings request inbound sink
      ((conversation.tearDown handler).finish handler result) where
  life := life
  ordered := shown_finish keeps ((holdsOutput_tearDown idle conversation).trans free)
    (chronicled.tearDown keeps idle free) result
  shutDown := by
    rw [Run.sink, outbound_finish_tearDown, isShutDown_retire, welcomes.valid]
    exact (Bool.or_true _).symm

theorem lived_unanswered (keeps : handler.keepsJournal = true) (idle : handler.workers = [])
    (settings : Settings) (inbound : Inbound) (welcomes : Welcomes handler request sink)
    {error : Error} (failed : (greeted handler request sink).2.server.sendHead.1 = .error error) :
    Lived handler settings request inbound sink
      (((answered handler request sink).tearDown handler).finish handler (.error error)) := by
  obtain ⟨answers, asked⟩ := journal_greeted keeps welcomes.returned
  have began : (answered handler request sink).journal.toList = [.connect .connecting answers] :=
    asked
  refine lived_tearDown keeps idle welcomes rfl
    (chronicled_answered keeps idle welcomes.returned) ?_
  refine lifecycle_tearDown keeps idle welcomes rfl began nofun (fun _ => rfl) (fun opens => ?_) _
  simp [opens.answers] at failed

theorem lived_served (keeps : handler.keepsJournal = true) (idle : handler.workers = [])
    (opens : Opens handler request sink) {run : Run} {result : Except Error Outcome}
    (returns : run.verdict = .returned result)
    (served : Served handler settings request inbound sink run) :
    Lived handler settings request inbound sink run := by
  cases served with
  | waiting conversation h => cases returns
  | ended outcome conversation h =>
    obtain ⟨answers, asked⟩ := journal_greeted keeps opens.returned
    obtain ⟨entries, tasks, entered, all, heard⟩ := journal_conversed keeps opens settings inbound
    obtain ⟨free, chronicled⟩ := chronicled_conversed keeps idle opens settings inbound
    rw [h] at entered free chronicled
    have began : (opened handler request sink).journal.toList = [.connect .connecting answers] :=
      asked
    have parting : (parted conversation outcome).holdsOutput = false := free
    have whole : (parted conversation outcome).journal.toList =
        .connect .connecting answers :: (entries ++ tasks) :=
      entered.trans (congrArg (· ++ (entries ++ tasks)) began)
    refine lived_tearDown keeps idle opens.toWelcomes parting
      (chronicled_parted chronicled outcome) ?_
    refine lifecycle_tearDown keeps idle opens.toWelcomes parting whole (fun entry member => ?_)
      (fun unopened => absurd opens unopened) (fun _ => ?_) _
    · rcases List.mem_append.mp member with message | task
      · have told : entry.message? ∈ entries.map Entry.message? := List.mem_map_of_mem message
        rw [heard] at told
        obtain ⟨_, _, same⟩ := List.mem_map.mp told
        exact .inr (by rw [← same]; rfl)
      · exact .inl (all entry task)
    · have silent : tasks.filterMap Entry.message? = [] := by
        refine List.filterMap_eq_nil_iff.mpr fun entry member => ?_
        have task := all entry member
        cases entry with
        | spawned answers => rfl
        | _ => cases task
      have messages : entries.filterMap Entry.message? =
          (entries.map Entry.message?).filterMap id := by
        rw [List.filterMap_map]
        rfl
      rw [List.filterMap_append, silent, List.append_nil, messages, heard, List.filterMap_map]
      exact congrFun List.filterMap_eq_map _

/-- **The life of a session.** In every run of a scripted handler that comes to an end the
handler is asked once if the request is fit, first of all and while the session is connecting,
and not at all otherwise. If it accepts it is told of the end once, when the session is
disconnected and no message is left, also where the request could not be answered. It hears
nothing unless the answer was written and flushed; and then it hears, in an open session, each
message that the peer has sent whole, in order and once, up to the first on which it closes the
session. The states that it sees never decrease, and the stream is shut down exactly if it was
asked. -/
theorem serve_lifecycle (script : Script) (settings : Settings) (request : Request)
    (inbound : Inbound) (sink : Sink) {result : Except Error Outcome}
    (returns : (serve (.scripted script) settings request inbound sink).verdict =
      .returned result) :
    let handler := Handler.scripted script
    let run := serve handler settings request inbound sink
    Lifecycle handler settings request inbound sink run.journal ∧
      InOrder (Entry.shown handler request run.journal) ∧
      run.sink.isShutDown = (sink.isShutDown || request.validate.isOk) := by
  have course := course_serve (.scripted script) settings request inbound sink
  dsimp only
  generalize serve (.scripted script) settings request inbound sink = run at course returns ⊢
  have lived : Lived (.scripted script) settings request inbound sink run := by
    cases course with
    | declined h => exact lived_declined rfl settings inbound returns h
    | unanswered error welcomes failed same =>
      exact same ▸ lived_unanswered rfl rfl settings inbound welcomes failed
    | served opens h => exact lived_served rfl rfl opens returns h
  exact ⟨lived.life, lived.ordered, lived.shutDown⟩

/-- Of three messages in one block the handler closes on the second. A task that it starts while
it is being asked sees the end of the session. -/
theorem serve_lifecycle_closing :
    let request := Request.ofParts "GET" "/chat"
      [("Upgrade", "websocket"), ("Connection", "Upgrade"), ("Sec-WebSocket-Version", "7"),
        ("Sec-WebSocket-Key", "AQIDBAUGBwgJCgsMDQ4PEA==")]
    let script : Script :=
      { connect := [.state, .spawn [.state]], messages := [[.state], [.close, .state]] }
    let block : Bytes :=
      [0x81, 0x81, 0, 0, 0, 0, 65, 0x81, 0x81, 1, 2, 3, 4, 67, 0x82, 0x80, 0, 0, 0, 0]
    let inbound : Inbound := { blocks := [block], ending := .eof }
    let handler := Handler.scripted script
    (serve handler {} request inbound {}).verdict = .returned (.ok .localClosed) ∧
      (∃ answers farewell during after,
        (serve handler {} request inbound {}).journal =
            .connect .connecting answers ::
              (during ++ .disconnect .disconnected farewell :: after) ∧
          during.filterMap Entry.message? =
            [((.text, [65]), .opened), ((.text, [66]), .opened)]) ∧
      Entry.shown handler request (serve handler {} request inbound {}).journal =
        [.connecting, .connecting, .opened, .opened, .opened, .closing, .disconnected,
          .disconnected] ∧
      InOrder (Entry.shown handler request (serve handler {} request inbound {}).journal) ∧
      (serve handler {} request inbound {}).sink.isShutDown = true := by
  intro request script block inbound handler
  have ⟨returns, shown⟩ :
      (serve handler {} request inbound {}).verdict = .returned (.ok .localClosed) ∧
        Entry.shown handler request (serve handler {} request inbound {}).journal =
          [.connecting, .connecting, .opened, .opened, .opened, .closing, .disconnected,
            .disconnected] := by decide +kernel
  have valid : request.validate = .ok () := rfl
  have hears : (handler.hears request 0 (inbound.messages {})).map (·, SessionState.opened) =
      [((.text, [65]), .opened), ((.text, [66]), .opened)] := by decide +kernel
  obtain ⟨life, ordered, shut⟩ := serve_lifecycle script {} request inbound {} returns
  refine ⟨returns, ?_, shown, ordered, by rw [shut, valid]; rfl⟩
  generalize (serve handler {} request inbound {}).journal = journal at life
  cases life with
  | unfit error h =>
    rw [valid] at h
    cases h
  | refused answers after valid refuses tasks => cases refuses
  | accepted answers farewell during after valid accepts between tasks unopened opened =>
    have opens : Opens handler request {} := opens_of_returned returns nofun
    exact ⟨answers, farewell, during, after, rfl, (opened opens).trans hears⟩

end Session

end WebSocket
