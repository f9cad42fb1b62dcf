import Mathlib.Data.List.TakeWhile
import WebSocket.Proofs.Session.Course

/-!
# What a session writes

Whatever happens to the stream, what it takes in a run is the front of one byte string: the
answer's head and, behind it, the frames of the messages that the output admitted
(`serve_written`). While the handler is being asked nothing can be sent, and a head that fails is
followed by nothing.
-/

namespace WebSocket

namespace Conversation

variable {handler : Handler} {conversation : Conversation} {delivery : Option Delivery}
  {calls : List Call} {entry : List Answer → Entry}

/-! ## While the handler is being asked -/

theorem message?_of_mem_reach (held : conversation.holdsOutput = true) {call : Call}
    (member : call ∈ conversation.reach delivery calls) : call.message? delivery = none := by
  rw [reach, if_pos held] at member
  have silent := List.mem_takeWhile_imp member
  rw [Server.needsOutput_eq] at silent
  simpa using silent

/-- Calls that do not need the output are all made, also while the session holds it. -/
theorem reach_of_silent (silent : ∀ call ∈ calls, call.needsOutput delivery = false) :
    conversation.reach delivery calls = calls := by
  unfold reach
  split
  · exact List.takeWhile_eq_self_iff.mpr fun call member => by rw [silent call member]; rfl
  · rfl

/-- Calls that do not get the output change only what will be announced. -/
theorem server_callback_of_holdsOutput (held : conversation.holdsOutput = true) :
    ∃ chosen extra, (conversation.callback handler delivery calls entry).2.server =
      conversation.server.announce chosen extra := by
  rw [server_callback]
  refine Server.performAll_induction_mem
    (P := fun server => ∃ chosen extra, server = conversation.server.announce chosen extra)
    ?_ ⟨_, _, rfl⟩
  rintro server call member ⟨chosen, extra, rfl⟩
  obtain ⟨chosen', extra', same⟩ := Server.perform_of_no_message
    (conversation.server.announce chosen extra) (message?_of_mem_reach held member)
  exact ⟨chosen', extra', same⟩

/-- The session holds the output, and what waits to run are tasks that need it to send. -/
structure Held (out : Outbound) (conversation : Conversation) : Prop where
  holds : conversation.holdsOutput = true
  scripts : ∀ task ∈ conversation.pending, ∃ delivery calls, task = .script delivery calls
  outbound : conversation.server.outbound = out

theorem Held.callback {out : Outbound} (held : Held out conversation) :
    Held out (conversation.callback handler delivery calls entry).2 where
  holds := (holdsOutput_callback ..).trans held.holds
  scripts := scripts_callback held.scripts
  outbound := by
    obtain ⟨chosen, extra, same⟩ := server_callback_of_holdsOutput held.holds
    rw [same]
    exact held.outbound

theorem Held.settle {out : Outbound} (held : Held out conversation) (handler : Handler) :
    Held out (conversation.settle handler) := by
  refine settle_induction (fun conversation task rest waits held => ?_) held
  obtain ⟨delivery, calls, rfl⟩ := held.scripts task (waits ▸ List.mem_cons_self)
  have rest : Held out { conversation with pending := rest } :=
    ⟨held.holds, fun task member => held.scripts task (waits ▸ List.mem_cons_of_mem _ member),
      held.outbound⟩
  exact rest.callback

end Conversation

namespace Server

variable {server : Server}

theorem sendHead_of_error {error : Error} (bad : server.response.write.2 = .error error) :
    server.sendHead = (.error error, server) := by
  unfold sendHead
  split
  · next head error' wrote =>
    rw [wrote] at bad
    cases bad
    rfl
  · next head wrote =>
    rw [wrote] at bad
    cases bad

theorem sendHead_of_ok (good : server.response.write.2 = .ok ()) :
    server.sendHead =
      ((server.outbound.sink.send server.response.write.1).1,
        { server with
          outbound :=
            { server.outbound with
              sink := (server.outbound.sink.send server.response.write.1).2 } }) := by
  unfold sendHead
  split
  · next head error wrote =>
    rw [wrote] at good
    cases good
  · next head wrote => simp only [wrote]

end Server

namespace Outbound

/-- What the sink got since it was `start` is the front of `head` and of the frames behind it. -/
def Sends (start : Sink) (head : Bytes) (out : Outbound) : Prop :=
  ∃ taken, out.sink.written.toList = start.written.toList ++ taken ∧
    taken <+: head ++ Frame.encodeAll out.admitted.toList

/-- The output admits what it may, and the sink gets it in order behind `head`. -/
structure Faithful (start : Sink) (head : Bytes) (out : Outbound) : Prop where
  orderly : out.Orderly
  carries : out.Carries start head

variable {start : Sink} {head : Bytes} {out : Outbound}

theorem Faithful.send (faithful : out.Faithful start head) (kind : MessageKind) (payload : Bytes) :
    (out.send kind payload).2.Faithful start head :=
  ⟨faithful.orderly.send kind payload, faithful.carries.send kind payload⟩

theorem Orderly.retire (orderly : out.Orderly) : out.retire.Orderly where
  small := orderly.small
  last := orderly.last
  further closed := by cases closed

theorem Faithful.retire (faithful : out.Faithful start head) : out.retire.Faithful start head where
  orderly := faithful.orderly.retire
  carries := Sink.Holds.shutDown faithful.carries

theorem Faithful.output (faithful : out.Faithful start head) :
    out.Orderly ∧ out.Sends start head :=
  ⟨faithful.orderly, _, faithful.carries.written, Sink.fitting_isPrefix _ _⟩

theorem written_retire (out : Outbound) : out.retire.sink.written = out.sink.written := by
  rw [retire, Sink.shutDown_snd]

end Outbound

namespace Session

open Conversation

variable {handler : Handler} {settings : Settings} {request : Request} {inbound : Inbound}
  {sink : Sink}

/-! ## The beginning of a session -/

/-- Asking the handler changes only what will be announced. -/
theorem server_greeted (handler : Handler) (request : Request) (sink : Sink) :
    ∃ chosen extra, (greeted handler request sink).2.server =
      ((Server.ofRequest request sink).advance .connecting).announce chosen extra :=
  server_callback_of_holdsOutput rfl

theorem held_greeted (handler : Handler) (request : Request) (sink : Sink) :
    Held { sink } (greeted handler request sink).2 :=
  Held.callback { holds := rfl, scripts := (fun _ member => nomatch member), outbound := rfl }

theorem outbound_greeted (handler : Handler) (request : Request) (sink : Sink) :
    (greeted handler request sink).2.server.outbound = { sink } :=
  (held_greeted handler request sink).outbound

theorem outbound_answered_of_error {error : Error}
    (bad : (head handler request sink).2 = .error error) :
    (answered handler request sink).server.outbound = { sink } := by
  simp only [answered, Server.sendHead_of_error bad, outbound_greeted]

theorem outbound_answered_of_ok (good : (head handler request sink).2 = .ok ()) :
    (answered handler request sink).server.outbound =
      { sink := (sink.send (head handler request sink).1).2 } := by
  simp only [answered, Server.sendHead_of_ok good, outbound_greeted, head]

/-- The head goes out whole and flushed, or the reason why it did not ends the session. -/
theorem sendHead_greeted_of_ok (good : (head handler request sink).2 = .ok ()) :
    (greeted handler request sink).2.server.sendHead.1 =
      (sink.send (head handler request sink).1).1 := by
  simp only [Server.sendHead_of_ok good, outbound_greeted, head]

theorem Opens.head_ok (opens : Opens handler request sink) :
    (head handler request sink).2 = .ok () := by
  cases complete : (head handler request sink).2 with
  | ok => rfl
  | error error =>
    have failed := opens.answers
    rw [Server.sendHead_of_error complete] at failed
    cases failed

/-! ## Whole runs -/

theorem faithful_answered (good : (head handler request sink).2 = .ok ()) :
    (answered handler request sink).server.outbound.Faithful sink
      (head handler request sink).1 := by
  rw [outbound_answered_of_ok good]
  refine ⟨Outbound.orderly_of_nothing rfl, ?_⟩
  have sent := (Sink.holds_start sink).send (head handler request sink).1
  simpa [Outbound.Carries, Frame.encodeAll] using sent

theorem faithful_perform {start : Sink} {head : Bytes} (server : Server)
    (delivery : Option Delivery) (call : Call) (h : server.outbound.Faithful start head) :
    (server.perform delivery call).2.outbound.Faithful start head :=
  Server.outbound_perform_induction (fun _ kind payload h => h.send kind payload) call h

theorem faithful_conversed (opens : Opens handler request sink) (settings : Settings)
    (inbound : Inbound) :
    (conversed handler settings request inbound sink).2.server.outbound.Faithful sink
      (head handler request sink).1 :=
  have start : (opened handler request sink).server.outbound.Faithful sink
      (head handler request sink).1 := faithful_answered opens.head_ok
  (Kept.ofServer faithful_perform).converse start _

theorem faithful_parted {start : Sink} {head : Bytes} {conversation : Conversation}
    (outcome : Outcome) (h : conversation.server.outbound.Faithful start head) :
    (parted conversation outcome).server.outbound.Faithful start head :=
  closeFor_induction faithful_perform h outcome

variable {run : Run}

/-- No byte is written, and nothing is admitted that could be. -/
structure Untouched (sink : Sink) (run : Run) : Prop where
  written : run.sink.written = sink.written
  admitted : run.outbound.admitted = #[]

theorem Untouched.output {head : Bytes} (untouched : Untouched sink run) :
    run.outbound.Orderly ∧ run.outbound.Sends sink head :=
  ⟨Outbound.orderly_of_nothing untouched.admitted, [],
    by rw [List.append_nil, ← untouched.written]; rfl, List.nil_prefix⟩

theorem untouched_of_retire {conversation : Conversation}
    (same : conversation.server.outbound = { sink }) (result : Except Error Outcome) :
    Untouched sink ((conversation.tearDown handler).finish handler result) := by
  have retired := outbound_finish_tearDown handler conversation result
  rw [same] at retired
  exact ⟨by rw [Run.sink, retired, Outbound.written_retire], by rw [retired]; rfl⟩

theorem Declined.untouched (declined : Declined handler request sink run) :
    Untouched sink run := by
  cases declined with
  | invalid error h => exact ⟨rfl, rfl⟩
  | blocked valid h =>
    have same := ((held_greeted handler request sink).settle handler).outbound
    exact ⟨by rw [Run.sink, abandon, same], by rw [abandon, same]⟩
  | refused valid returned h =>
    have retired := outbound_refuse handler (greeted handler request sink).2
    rw [outbound_greeted] at retired
    exact ⟨by rw [Run.sink, retired, Outbound.written_retire], by rw [retired]; rfl⟩

/-- Unless the handler welcomes the client and the head can be written, nothing is. -/
theorem Course.untouched (course : Course handler settings request inbound sink run)
    (unfit : Welcomes handler request sink → (head handler request sink).2 ≠ .ok ()) :
    Untouched sink run := by
  cases course with
  | declined h => exact h.untouched
  | unanswered error welcomes failed same =>
    subst same
    cases complete : (head handler request sink).2 with
    | ok => exact absurd complete (unfit welcomes)
    | error bad => exact untouched_of_retire (outbound_answered_of_error complete) _
  | served opens h => exact absurd opens.head_ok (unfit opens.toWelcomes)

/-- A head that is not taken whole, or not flushed, is followed by nothing. -/
theorem Course.of_failed_head (course : Course handler settings request inbound sink run)
    (welcomes : Welcomes handler request sink) (good : (head handler request sink).2 = .ok ())
    {error : Error} (failed : (sink.send (head handler request sink).1).1 = .error error) :
    run.outbound.admitted = #[] ∧ run.verdict = .returned (.error error) := by
  rw [← sendHead_greeted_of_ok good] at failed
  cases course with
  | declined h => exact absurd welcomes h.unwelcome
  | unanswered error' welcomes failed' same =>
    subst same
    rw [failed] at failed'
    cases failed'
    rw [outbound_finish_tearDown, outbound_answered_of_ok good]
    exact ⟨rfl, rfl⟩
  | served opens h => simp [opens.answers] at failed

theorem Served.output (served : Served handler settings request inbound sink run)
    (opens : Opens handler request sink) :
    run.outbound.Faithful sink (head handler request sink).1 := by
  have faithful := faithful_conversed opens settings inbound
  cases served with
  | waiting conversation h =>
    rw [h] at faithful
    exact faithful
  | ended outcome conversation h =>
    rw [h] at faithful
    rw [outbound_finish_tearDown]
    exact (faithful_parted outcome faithful).retire

/-- Behind a head that can be written the stream gets the admitted frames, as far as it takes
them. -/
theorem Course.faithful (course : Course handler settings request inbound sink run)
    (welcomes : Welcomes handler request sink) (good : (head handler request sink).2 = .ok ()) :
    run.outbound.Faithful sink (head handler request sink).1 := by
  cases course with
  | declined h => exact absurd welcomes h.unwelcome
  | unanswered error welcomes' failed same =>
    subst same
    rw [outbound_finish_tearDown]
    exact (faithful_answered good).retire
  | served opens h => exact h.output opens

theorem Course.output (course : Course handler settings request inbound sink run) :
    run.outbound.Orderly ∧
      run.outbound.Sends sink (head handler request sink).1 := by
  by_cases answered : Welcomes handler request sink ∧ (head handler request sink).2 = .ok ()
  · exact (course.faithful answered.1 answered.2).output
  · exact (course.untouched fun welcomes good => answered ⟨welcomes, good⟩).output

/-- On a stream that takes all, a head that is whole opens the session. -/
theorem opens_of_takesAll (welcomes : Welcomes handler request sink) (takes : sink.TakesAll)
    (whole : (head handler request sink).2 = .ok ()) : Opens handler request sink where
  toWelcomes := welcomes
  answers := by rw [sendHead_greeted_of_ok whole, Sink.send_of_takesAll takes]

/-- A session that opens does not fail, and a stream that takes all gets all of it. -/
theorem served_of_takesAll (served : Served handler settings request inbound sink run)
    (opens : Opens handler request sink) (takes : sink.TakesAll) :
    run.sink.written.toList = sink.written.toList ++ (head handler request sink).1 ++
        Frame.encodeAll run.outbound.admitted.toList ∧
      ∀ error, run.verdict ≠ .returned (.error error) := by
  constructor
  · have written := (served.output opens).carries.written
    rw [Sink.fitting_of_hasRoom fun free bounded => by simp [takes.1] at bounded] at written
    rw [List.append_assoc]
    exact written
  · cases served with
    | waiting conversation h => nofun
    | ended outcome conversation h => nofun

/-- A session that opens has written all of its head. -/
theorem Opens.written_serve (opens : Opens handler request sink) (settings : Settings)
    (inbound : Inbound) :
    ∃ rest, (serve handler settings request inbound sink).sink.written.toList =
      sink.written.toList ++ (head handler request sink).1 ++ rest := by
  have carries := ((served_serve opens settings inbound).output opens).carries
  have sent : (sink.send (head handler request sink).1).1 = .ok () :=
    (sendHead_greeted_of_ok opens.head_ok).symm.trans opens.answers
  have front := ((Sink.holds_start sink).send (head handler request sink).1).fitting_append
    (Frame.encodeAll (serve handler settings request inbound sink).outbound.admitted.toList)
  rw [List.nil_append, Sink.fitting_of_hasRoom (Sink.hasRoom_of_send sent)] at front
  exact ⟨_, by rw [List.append_assoc, ← front]; exact carries.written⟩

/-- **What the stream takes is the front of the head and the admitted frames**, however its
writes, flushes and shutdown fail. The frames are those of the messages that were admitted, in
order, and a close frame is only ever the last. Nothing is written for a request that is not
fit, that the handler does not accept, or that no head can answer; and behind a head that is not
taken whole, or not flushed, comes no frame. -/
theorem serve_written (handler : Handler) (settings : Settings) (request : Request)
    (inbound : Inbound) (sink : Sink) :
    let run := serve handler settings request inbound sink
    let head := head handler request sink
    let messages := run.outbound.admitted.toList
    (∃ taken, run.sink.written.toList = sink.written.toList ++ taken ∧
        taken <+: head.1 ++ Frame.encodeAll messages) ∧
      (∀ message ∈ messages, message.1.isControl = true → message.2.length ≤ 125) ∧
      LastIfClose messages ∧
      (request.validate ≠ .ok () ∨ (handler.greet request).accepts = false ∨
          head.2 ≠ .ok () → run.sink.written = sink.written ∧ messages = []) ∧
      (Welcomes handler request sink → head.2 = .ok () → ∀ error,
        (sink.send head.1).1 = .error error →
          messages = [] ∧ run.verdict = .returned (.error error)) := by
  have course := course_serve handler settings request inbound sink
  obtain ⟨orderly, sends⟩ := course.output
  refine ⟨sends, orderly.small, orderly.last, ?_, ?_⟩
  · intro unfit
    have untouched := course.untouched fun welcomes good => by
      simp [welcomes.valid, welcomes.accepts, good] at unfit
    exact ⟨untouched.written, congrArg Array.toList untouched.admitted⟩
  · intro welcomes good error failed
    obtain ⟨nothing, returned⟩ := course.of_failed_head welcomes good failed
    exact ⟨congrArg Array.toList nothing, returned⟩

/-- A stream with room for three bytes gets the front of the head and no frame. -/
theorem serve_written_full :
    let request := Request.ofParts "GET" "/chat"
      [("Upgrade", "websocket"), ("Connection", "Upgrade"), ("Sec-WebSocket-Version", "7"),
        ("Sec-WebSocket-Key", "AQIDBAUGBwgJCgsMDQ4PEA==")]
    let sink : Sink := { room := some 3 }
    let handler : Handler := { reply := fun _ _ message => [.send message.1 message.2] }
    let inbound : Inbound := { blocks := [[0x81, 0x82, 1, 2, 3, 4, 73, 107]], ending := .eof }
    (head handler request sink).2 = .ok () ∧
      (sink.send (head handler request sink).1).1 = .error (.io "write failed") ∧
      (serve handler {} request inbound sink).outbound.admitted.toList = [] ∧
      (serve handler {} request inbound sink).verdict =
        .returned (.error (.io "write failed")) := by
  intro request sink handler inbound
  have welcomes : Welcomes handler request sink := ⟨rfl, rfl, rfl⟩
  have ⟨good, failed⟩ : (head handler request sink).2 = .ok () ∧
      (sink.send (head handler request sink).1).1 = .error (.io "write failed") := by
    decide +kernel
  obtain ⟨-, -, -, -, ends⟩ := serve_written handler {} request inbound sink
  obtain ⟨nothing, returned⟩ := ends welcomes good _ failed
  exact ⟨good, failed, nothing, returned⟩

end Session

end WebSocket
