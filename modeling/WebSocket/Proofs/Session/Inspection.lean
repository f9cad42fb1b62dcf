import WebSocket.Handler.Inspector
import WebSocket.Proofs.Handshake.RequestGrammar
import WebSocket.Proofs.Session.Replies

/-!
# What an inspector tells

Commands to the inspector ask for a header of the request, for the version, or for the number of
subprotocols that are offered; what each of them is told is `Handler.Inspector.Tells`. One more
command closes the session, and nothing behind it is answered, no command and no ping. If it does
not come, the session closes at the end of the stream. Either way one empty close frame is the last
that is sent (`Handler.Inspector.Shows`, `Session.serve_inspector`).
-/

namespace WebSocket

namespace Handler.Inspector

/-! ## Commands -/

/-- What the inspector tells when it is asked with a command. -/
inductive Tells (request : Request) : Bytes → Bytes → Prop where
  | header (name : Bytes) (value : String)
      (given : request.header? (Text.Utf8.decodeLossy name) = some value) :
    Tells request (Bytes.ofString "header: " ++ name) (Bytes.ofString value)
  | missing (name : Bytes) (absent : request.header? (Text.Utf8.decodeLossy name) = none) :
    Tells request (Bytes.ofString "header: " ++ name) (Bytes.ofString "<null>")
  | version : Tells request (Bytes.ofString "version") (Bytes.ofString "0")
  | offered :
    Tells request (Bytes.ofString "proto-count")
      (Bytes.ofString (toString request.protocols.length))

variable {request : Request} {command text name : Bytes}

theorem answer?_close (request : Request) :
    answer? request (Bytes.ofString "close") = some .close := by
  rw [answer?, if_pos rfl]

theorem answer?_header (request : Request) (name : Bytes) :
    answer? request (Bytes.ofString "header: " ++ name) =
      some (.send .text
        (Bytes.ofString ((request.header? (Text.Utf8.decodeLossy name)).getD "<null>"))) := by
  have other : Bytes.ofString "header: " ++ name ≠ Bytes.ofString "close" := fun same =>
    absurd (congrArg List.head? same) (by decide : some (104 : UInt8) ≠ some 99)
  have front : headerCommand.isPrefixOf (Bytes.ofString "header: " ++ name) = true :=
    List.isPrefixOf_iff_prefix.mpr (List.prefix_append ..)
  rw [answer?, if_neg other, if_pos front, headerCommand, List.drop_left]

/-- What is sent as the answer to a command. -/
theorem tells_iff :
    answer? request command = some (.send .text text) ↔ Tells request command text := by
  constructor
  · intro answered
    unfold answer? at answered
    dsimp only at answered
    split at answered
    · cases answered
    · split at answered
      · next front =>
        obtain ⟨name, rfl⟩ := List.isPrefixOf_iff_prefix.mp front
        rw [List.drop_left] at answered
        cases given : request.header? (Text.Utf8.decodeLossy name) with
        | some value =>
          rw [given] at answered
          cases answered
          exact .header name value given
        | none =>
          rw [given] at answered
          cases answered
          exact .missing name given
      · split at answered
        · next same =>
          cases answered
          exact same ▸ .version
        · split at answered
          · next same =>
            cases answered
            exact same ▸ .offered
          · cases answered
  · intro tells
    cases tells with
    | header name value given => rw [answer?_header, given]; rfl
    | missing name absent => rw [answer?_header, absent]; rfl
    | version => rfl
    | offered => rfl

/-- Nothing else is answered. -/
theorem answer?_eq_none (other : command ≠ Bytes.ofString "close")
    (untold : ∀ text, ¬ Tells request command text) : answer? request command = none := by
  cases answered : answer? request command with
  | none => rfl
  | some call =>
    have text : ∃ text, call = .send .text text := by
      rw [answer?, if_neg other] at answered
      dsimp only at answered
      split_ifs at answered
      all_goals
        cases answered
        exact ⟨_, rfl⟩
    obtain ⟨text, rfl⟩ := text
    exact absurd (tells_iff.mp answered) (untold text)

/-! ## The conversation -/

/-- What the inspector's session sends on events, and to close: the session ends with the first
command to close, or else behind the last event. -/
inductive Shows (request : Request) : List Event → List (MessageKind × Bytes) → Prop where
  | ended : Shows request [] [(.close, [])]
  | closed (later : List Event) :
    Shows request (.message .text (Bytes.ofString "close") :: later) [(.close, [])]
  | told {command text : Bytes} {events : List Event} {sent : List (MessageKind × Bytes)}
    (tells : Tells request command text) (more : Shows request events sent) :
    Shows request (.message .text command :: events) ((.text, text) :: sent)
  | untold {command : Bytes} {events : List Event} {sent : List (MessageKind × Bytes)}
    (other : command ≠ Bytes.ofString "close") (untold : ∀ text, ¬ Tells request command text)
    (more : Shows request events sent) : Shows request (.message .text command :: events) sent
  | binary {events : List Event} {sent : List (MessageKind × Bytes)} (payload : Bytes)
    (more : Shows request events sent) : Shows request (.message .binary payload :: events) sent
  | ponged {events : List Event} {sent : List (MessageKind × Bytes)} (payload : Bytes)
    (more : Shows request events sent) :
    Shows request (.ping payload :: events) ((.pong, payload) :: sent)

theorem puts_of_close (request : Request) (number : Nat) (events : List Event) :
    inspector.puts request number (.message .text (Bytes.ofString "close") :: events) =
      (.close, []) :: inspector.puts request (number + 1) events := by
  simp [Handler.puts, inspector, answer?_close, Call.message?]

theorem puts_of_tells (tells : Tells request command text) (number : Nat) (events : List Event) :
    inspector.puts request number (.message .text command :: events) =
      (.text, text) :: inspector.puts request (number + 1) events := by
  simp [Handler.puts, inspector, tells_iff.mpr tells, Call.message?]

theorem puts_of_untold (other : command ≠ Bytes.ofString "close")
    (untold : ∀ text, ¬ Tells request command text) (number : Nat) (events : List Event) :
    inspector.puts request number (.message .text command :: events) =
      inspector.puts request (number + 1) events := by
  simp [Handler.puts, inspector, answer?_eq_none other untold]

theorem puts_of_binary (request : Request) (number : Nat) (payload : Bytes) (events : List Event) :
    inspector.puts request number (.message .binary payload :: events) =
      inspector.puts request (number + 1) events := rfl

/-- What the session puts to its output, and the close frame that it adds at the end of the stream,
are admitted as far as the inspector shows them. -/
theorem shows_puts {limits : Limits} {events : List Event}
    (within : ∀ event ∈ events, event.Within limits) (quiet : ∀ payload, .close payload ∉ events)
    (request : Request) (number : Nat) :
    Shows request events
        (admissible (inspector.puts request number events ++ [(.close, [])])) ∧
      (hasClose (admissible (inspector.puts request number events)) = true ↔
        .message .text (Bytes.ofString "close") ∈ events) := by
  induction events generalizing number with
  | nil => exact ⟨.ended, by simp [Handler.puts, admissible, hasClose]⟩
  | cons event events ih =>
    have fits := within event List.mem_cons_self
    have later (number : Nat) :=
      ih (fun event member => within event (List.mem_cons_of_mem _ member))
        (fun payload member => quiet payload (List.mem_cons_of_mem _ member)) number
    cases event with
    | close payload => exact absurd List.mem_cons_self (quiet payload)
    | ping payload =>
      obtain ⟨shows, closes⟩ := later number
      have pong (more : List (MessageKind × Bytes)) :
          admissible ((.pong, payload) :: more) = (.pong, payload) :: admissible more :=
        admissible_cons (fun _ => fits) (by decide) more
      rw [Handler.puts, List.cons_append, pong, pong, hasClose_cons]
      exact ⟨.ponged payload shows, by simpa using closes⟩
    | message kind command =>
      obtain ⟨shows, closes⟩ := later (number + 1)
      cases kind with
      | text =>
        by_cases close : command = Bytes.ofString "close"
        · subst close
          rw [puts_of_close]
          exact ⟨.closed events, by simp [admissible, hasClose]⟩
        · have same :
              .message .text (Bytes.ofString "close") ∈ Event.message .text command :: events ↔
                .message .text (Bytes.ofString "close") ∈ events := by simp [Ne.symm close]
          rw [same, ← closes]
          by_cases told : ∃ text, Tells request command text
          · obtain ⟨text, tells⟩ := told
            have said (more : List (MessageKind × Bytes)) :
                admissible ((.text, text) :: more) = (.text, text) :: admissible more :=
              admissible_cons (fun control => absurd control (by decide)) (by decide) more
            rw [puts_of_tells tells, List.cons_append, said, said, hasClose_cons]
            exact ⟨.told tells shows, by simp⟩
          · have untold := not_exists.mp told
            rw [puts_of_untold close untold]
            exact ⟨.untold close untold shows, Iff.rfl⟩
      | binary =>
        rw [puts_of_binary]
        exact ⟨.binary command shows, by simpa using closes⟩
      | _ => exact absurd fits.1 (by decide)

end Handler.Inspector

/-! ## Sessions -/

namespace Session

open Conversation Handler

variable {settings : Settings} {request : Request} {inbound : Inbound} {sink : Sink}

/-- **What an inspector's session sends, when the stream of its peer ends**, if the peer has broken
nothing and has not closed: for each command the text that goes with it, and for each ping a pong,
in the order in which they are reported, up to the first command to close; and then one empty close
frame. Where that command comes, this side has closed the session, or else the stream has ended
it. A stream that takes all gets just that behind the head. The events are those of the frames of a
client that keeps to the rules; and a header is told by the last value that the request gives for
its name, whatever the case of the letters. -/
theorem serve_inspector (opens : Opens .inspector request sink) (ended : inbound.ending = .eof)
    (quiet : ∀ payload, .close payload ∉ (inbound.heard settings).events.toList)
    (unbroken : (inbound.heard settings).violation = none) :
    let run := serve .inspector settings request inbound sink
    let events := (inbound.heard settings).events.toList
    let sent := run.outbound.admitted.toList
    Inspector.Shows request events sent ∧
      run.verdict = .returned (.ok (if .message .text (Bytes.ofString "close") ∈ events then
        .localClosed else .endOfStream)) ∧
      (sink.TakesAll → run.sink.written.toList = sink.written.toList ++
        (head .inspector request sink).1 ++ Frame.encodeAll sent) ∧
      (∀ frames, Grammar.Legal settings.limits none frames →
        inbound.blocks.flatten = frames.flatMap Frame.Client.encode →
          events = Grammar.reports none frames) ∧
      ∀ method path fields, request = .ofParts method path fields → ∀ name,
        Inspector.Tells request (Bytes.ofString "header: " ++ name) (Bytes.ofString
          ((valuesOf (Text.Utf8.decodeLossy name) fields).getLast?.getD "<null>")) := by
  intro run events sent
  obtain ⟨shows, closes⟩ :=
    Inspector.shows_puts (inbound.within_heard settings) quiet request 0
  obtain ⟨returned, admitted⟩ := opens.serve_of_eof ended quiet unbroken
  refine ⟨?_, ?_, fun takes => ?_, fun frames legal whole => ?_, ?_⟩
  · have same : sent = _ := admitted
    rwa [same]
  · rw [returned]
    exact congrArg _ (congrArg _ (if_congr closes rfl rfl))
  · exact (served_of_takesAll (served_serve opens settings inbound) opens takes).1
  · exact (inbound.heard_of_legal legal whole).1
  · rintro method path fields rfl name
    rw [← Inspector.tells_iff, Inspector.answer?_header, Request.header?_ofParts]

/-- A command in two fragments around a ping asks for a header in other letters, and the command
to close has a command behind it. -/
theorem serve_inspector_close :
    let request := Request.ofParts "GET" "/chat"
      [("Upgrade", "websocket"), ("Connection", "Upgrade"), ("Sec-WebSocket-Version", "7"),
        ("Sec-WebSocket-Key", "AQIDBAUGBwgJCgsMDQ4PEA=="), ("X-Name", "Ann"), ("x-name", "Bob"),
        ("Sec-WebSocket-Protocol", "chat, echo")]
    let frames : List Frame.Client :=
      [⟨false, .text, Bytes.ofString "header: ", .zero⟩, ⟨true, .ping, [7], ⟨5, 6, 7, 8⟩⟩,
        ⟨true, .continuation, Bytes.ofString "X-NAME", ⟨1, 2, 3, 4⟩⟩,
        ⟨true, .binary, Bytes.ofString "version", .zero⟩,
        ⟨true, .text, Bytes.ofString "proto-count", .zero⟩,
        ⟨true, .text, Bytes.ofString "close", .zero⟩,
        ⟨true, .text, Bytes.ofString "version", .zero⟩]
    let inbound : Inbound := { blocks := [frames.flatMap Frame.Client.encode], ending := .eof }
    let sent := [(.pong, [7]), (.text, Bytes.ofString "Bob"), (.text, Bytes.ofString "2"),
      (.close, [])]
    Opens .inspector request {} ∧ Grammar.Legal {} none frames ∧
      Grammar.closes frames = false ∧ Sink.TakesAll {} ∧
      Handler.Inspector.Shows request (Grammar.reports none frames) sent ∧
      (serve .inspector {} request inbound {}).verdict = .returned (.ok .localClosed) ∧
      (serve .inspector {} request inbound {}).sink.written.toList =
        (head .inspector request {}).1 ++ Frame.encodeAll sent := by
  intro request frames inbound sent
  have ⟨returns, admitted⟩ :
      (serve .inspector {} request inbound {}).verdict = .returned (.ok .localClosed) ∧
        (serve .inspector {} request inbound {}).outbound.admitted.toList = sent := by
    decide +kernel
  have opens : Opens .inspector request {} := opens_of_returned returns nofun
  have legal : Grammar.Legal {} none frames := by decide
  have further : Grammar.closes frames = false := by decide
  have takes : Sink.TakesAll {} := ⟨rfl, rfl⟩
  have whole : inbound.blocks.flatten = frames.flatMap Frame.Client.encode := List.append_nil _
  have ⟨reported, unbroken⟩ : (inbound.heard {}).events.toList = Grammar.reports none frames ∧
      (inbound.heard {}).violation = none := inbound.heard_of_legal legal whole
  have quiet (payload : Bytes) : .close payload ∉ (inbound.heard {}).events.toList := by
    rw [reported]
    exact Grammar.close_notMem_reports further none payload
  have closes : .message .text (Bytes.ofString "close") ∈ (inbound.heard {}).events.toList := by
    rw [reported]
    decide +kernel
  have fresh : ({} : Sink).written.toList = [] := rfl
  obtain ⟨shows, returned, written, -⟩ := serve_inspector opens rfl quiet unbroken
  rw [admitted, reported] at shows
  rw [if_pos closes] at returned
  rw [admitted, fresh, List.nil_append] at written
  exact ⟨opens, legal, further, takes, shows, returned, written takes⟩

end Session

end WebSocket
