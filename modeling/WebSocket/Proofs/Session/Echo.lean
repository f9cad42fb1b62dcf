import Mathlib.Data.List.Basic
import WebSocket.Handler.Echo
import WebSocket.Proofs.Session.Farewell
import WebSocket.Proofs.Session.Replies
import WebSocket.Proofs.Session.Waiting

/-!
# What an echo session sends

Every message goes back as it came and every ping is answered, in the order in which they are
reported, since nothing of this is ever refused: what is reported is within the limits, and the
output stays open up to the end (`admissible_echoes`). The end is one close frame. So a client that
reads the frames of the session finds in them all messages that it has sent, each in one piece
(`Session.serve_echo`).
-/

namespace WebSocket

/-- What an echo session answers an event with. -/
def Event.echo? : Event → Option (MessageKind × Bytes)
  | .message kind payload => some (kind, payload)
  | .ping payload => some (.pong, payload)
  | .close _ => none

/-- What the session answers events with, in order. -/
def echoes (events : List Event) : List (MessageKind × Bytes) := events.filterMap Event.echo?

variable {limits : Limits} {events : List Event}

/-- The messages among the answers are those among the events. -/
theorem messages_whole_echoes (within : ∀ event ∈ events, event.Within limits) :
    ((echoes events).map Frame.whole).filterMap Frame.Unmasked.message? =
      events.filterMap Event.message? := by
  simp only [echoes, List.map_filterMap, List.filterMap_filterMap]
  refine List.filterMap_congr fun event member => ?_
  have fits := within event member
  cases event with
  | message kind payload =>
    have data : ¬ kind.isControl = true := Bool.eq_false_iff.mp fits.1
    exact (Frame.message?_whole (kind, payload)).trans (if_neg data)
  | ping payload => rfl
  | close payload => rfl

/-- No answer is longer than the limits let a message be, or a control frame. -/
theorem length_echoes_le (within : ∀ event ∈ events, event.Within limits) :
    ∀ message ∈ echoes events,
      message.2.length ≤ max limits.maxMessage Error.maxControlPayload := by
  intro message member
  obtain ⟨event, reported, answers⟩ := List.mem_filterMap.mp member
  have fits := within event reported
  cases event with
  | message kind payload =>
    cases answers
    exact le_max_of_le_left fits.2
  | ping payload =>
    cases answers
    exact le_max_of_le_right fits
  | close payload => cases answers

/-- All answers are admitted. -/
theorem admissible_echoes (within : ∀ event ∈ events, event.Within limits) :
    admissible (echoes events) = echoes events ∧ hasClose (echoes events) = false := by
  refine admissible_answers fun event reported message answers => ?_
  have fits := within event reported
  cases event with
  | message kind payload =>
    cases answers
    have data : kind.isControl = false := fits.1
    refine ⟨fun close : kind = .close => ?_, fun control : kind.isControl = true => ?_⟩
    · rw [close] at data
      cases data
    · rw [data] at control
      cases control
  | ping payload =>
    cases answers
    exact ⟨nofun, fun _ => fits⟩
  | close payload => cases answers

theorem Handler.puts_echo (last : ClosesLast events) (request : Request) (number : Nat) :
    Handler.echo.puts request number events = echoes events := by
  induction events generalizing number with
  | nil => rfl
  | cons event events ih =>
    cases event with
    | message kind payload => exact congrArg (_ :: ·) (ih last.tail (number + 1))
    | ping payload => exact congrArg (_ :: ·) (ih last.tail number)
    | close payload =>
      -- Nothing is reported behind it that would go without an answer.
      obtain rfl := last [] payload events rfl
      rfl

namespace Session

open Conversation

variable {settings : Settings} {request : Request} {inbound : Inbound} {sink : Sink}

/-- An echo session whose peer does not fall silent comes to an end, and has answered all. -/
theorem Opens.conversed_echo (settings : Settings) (opens : Opens .echo request sink)
    (ends : inbound.ending ≠ .silent) :
    ∃ outcome conversation,
      conversed .echo settings request inbound sink = (some outcome, conversation) ∧
        conversation.server.closing = false ∧
        conversation.server.outbound.admitted.toList =
          echoes (inbound.heard settings).events.toList := by
  obtain ⟨outcome, h⟩ := opens.conversed_of_unquiet fun quiet : inbound.Quiet settings =>
    ends quiet.silent
  have put := (listens_opened opens).dispatch opens.put_opened .echo settings
    (inbound.heard settings).events.toList
  obtain ⟨all, further⟩ := admissible_echoes (inbound.within_heard settings)
  rw [List.nil_append, Handler.puts_echo (inbound.closesLast_heard settings)] at put
  exact ⟨outcome, _, h, put.closing.trans (by rw [all, further]), put.admitted.trans all⟩

/-- When an echo session has come to its end, its output has admitted all answers and then a close
frame. -/
theorem Opens.ended_echo (opens : Opens .echo request sink) (ends : inbound.ending ≠ .silent)
    {run : Run} (served : Served .echo settings request inbound sink run) :
    ∃ outcome payload, run.verdict = .returned (.ok outcome) ∧
      Parting .echo settings request inbound outcome payload ∧
      run.outbound.admitted.toList =
        echoes (inbound.heard settings).events.toList ++ [(.close, payload)] := by
  obtain ⟨outcome, conversation, h, further, sent⟩ := opens.conversed_echo settings ends
  cases served with
  | waiting conversation h' =>
    rw [h] at h'
    cases h'
  | ended outcome conversation h' =>
    rw [h] at h'
    cases h'
    rcases opens.ends_conversed h with ⟨-, closing⟩ | ⟨-, ends⟩
    · simp [further] at closing
    · obtain ⟨payload, parting, admitted⟩ := opens.parted_ends h further ends
      refine ⟨outcome, payload, rfl, parting, ?_⟩
      rw [outbound_finish_tearDown]
      exact admitted.trans (congrArg (· ++ _) sent)

/-- **An echo session end to end.** Whatever bytes the peer sends and however they are cut, the
session of an echo handler writes behind its head, on a stream that takes all, one final frame for
every message, with the kind and the payload of the message, and one pong for every ping, in the
order in which they are reported; and then one close frame. With limits that a machine word holds,
the frames of a client that keeps to the rules are answered so that reading the output gives back
every message that the client has sent, each in one piece, unchanged and in order. -/
theorem serve_echo (settings : Settings) (opens : Opens .echo request sink)
    (takes : sink.TakesAll) (ends : inbound.ending ≠ .silent) :
    let run := serve .echo settings request inbound sink
    let replies := echoes (inbound.heard settings).events.toList
    ∃ outcome payload,
      run.verdict = .returned (.ok outcome) ∧
      Parting .echo settings request inbound outcome payload ∧
      run.sink.written.toList = sink.written.toList ++ (head .echo request sink).1 ++
        (Frame.encodeAll replies ++ Frame.encode .close payload) ∧
      (settings.limits.maxMessage < 2 ^ 64 →
        ∀ frames, Grammar.Legal settings.limits none frames →
          inbound.blocks.flatten = frames.flatMap Frame.Client.encode →
            let read := Frame.readAll (Frame.encodeAll replies ++ Frame.encode .close payload)
            read = ((replies ++ [(MessageKind.close, payload)]).map Frame.whole, []) ∧
              read.1.filterMap Frame.Unmasked.message? =
                (Grammar.reports none frames).filterMap Event.message?) := by
  have served := served_serve opens settings inbound
  have within := inbound.within_heard settings
  intro run replies
  obtain ⟨outcome, payload, returned, parting, admitted⟩ := opens.ended_echo ends served
  have joined : Frame.encodeAll (replies ++ [(.close, payload)]) =
      Frame.encodeAll replies ++ Frame.encode .close payload := by simp [Frame.encodeAll]
  refine ⟨outcome, payload, returned, parting, ?_, fun word frames legal sent => ?_⟩
  · rw [(served_of_takesAll served opens takes).1, admitted, joined]
  · have small : payload.length ≤ Error.maxControlPayload :=
      (served.output opens).orderly.small (MessageKind.close, payload) (by simp [admitted]) rfl
    have words : ∀ message ∈ replies ++ [(MessageKind.close, payload)],
        message.2.length < 2 ^ 64 := by
      have control : Error.maxControlPayload < 2 ^ 64 := by decide
      intro message member
      rcases List.mem_append.mp member with reply | close
      · exact Nat.lt_of_le_of_lt (length_echoes_le within message reply) (max_lt word control)
      · rw [List.mem_singleton.mp close]
        exact Nat.lt_of_le_of_lt small control
    have reads := Frame.readAll_encodeAll words
    have reported : (inbound.heard settings).events.toList = Grammar.reports none frames := by
      rw [Inbound.heard, sent]
      exact (Reassembler.feedFrom_flatMap_encode Reassembler.atFrame_fresh legal #[]).2.1
    rw [joined] at reads
    refine ⟨reads, ?_⟩
    rw [reads, ← reported, ← messages_whole_echoes within]
    simp only [List.map_append, List.filterMap_append, replies]
    exact List.append_nil _

/-- A message in two fragments around a ping, and an empty one behind it. -/
theorem serve_echo_fragments :
    let request := Request.ofParts "GET" "/chat"
      [("Upgrade", "websocket"), ("Connection", "Upgrade"), ("Sec-WebSocket-Version", "7"),
        ("Sec-WebSocket-Key", "AQIDBAUGBwgJCgsMDQ4PEA==")]
    let frames : List Frame.Client :=
      [⟨false, .text, [72, 105], ⟨1, 2, 3, 4⟩⟩, ⟨true, .ping, [7], ⟨5, 6, 7, 8⟩⟩,
        ⟨true, .continuation, [33], ⟨9, 9, 9, 9⟩⟩, ⟨true, .binary, [], .zero⟩]
    let inbound : Inbound := { blocks := [frames.flatMap Frame.Client.encode], ending := .eof }
    Opens .echo request {} ∧ Sink.TakesAll {} ∧ Grammar.Legal {} none frames ∧
      ∃ output, (serve .echo {} request inbound {}).sink.written.toList =
          (head .echo request {}).1 ++ output ∧
        (Frame.readAll output).2 = [] ∧
        (Frame.readAll output).1.filterMap Frame.Unmasked.message? =
          [(.text, [72, 105, 33]), (.binary, [])] := by
  intro request frames inbound
  have opens : Opens .echo request {} := ⟨⟨rfl, rfl, rfl⟩, by decide +kernel⟩
  have takes : Sink.TakesAll {} := ⟨rfl, rfl⟩
  have legal : Grammar.Legal {} none frames := by decide
  have ends : inbound.ending ≠ .silent := nofun
  obtain ⟨outcome, payload, -, -, written, reads⟩ := serve_echo {} opens takes ends
  obtain ⟨whole, recovered⟩ := reads (by decide) frames legal (List.append_nil _)
  have fresh : ({} : Sink).written.toList = [] := rfl
  rw [fresh, List.nil_append] at written
  exact ⟨opens, takes, legal, _, written, congrArg Prod.snd whole, recovered.trans (by decide)⟩

end Session

end WebSocket
