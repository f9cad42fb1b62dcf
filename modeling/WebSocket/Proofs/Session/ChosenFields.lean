import WebSocket.Proofs.Handshake.Upgrade
import WebSocket.Proofs.Session.Announcement
import WebSocket.Proofs.Session.Bundled
import WebSocket.Proofs.Session.FieldCalls
import WebSocket.Proofs.Session.LateFields

/-!
# What a handler sets for the head

Two places keep the fields of one name together, each in its own way: setting a field anew drops
the one that was set before and puts the new one last, while the head leaves a field in its place
and changes its value. Together they come to `Session.answerFields`: the built-in fields stay
where they are with the values that were set last, and behind them stands each other name once,
where and as it was set last. No call can put a line end there, so that the head of an accepted
client is always written (`Session.serve_chosen_fields`).
-/

namespace WebSocket

namespace Call

theorem unbroken_of_chooses? {call : Call} {name : String} (chooses : call.chooses? = some name) :
    breaksLine name = false := by
  cases call with
  | setProtocol other =>
    rw [chooses?] at chooses
    split at chooses
    · cases chooses
    · next unbroken => exact Option.some.inj chooses ▸ Bool.eq_false_iff.mpr unbroken
  | _ => cases chooses

theorem unbroken_of_chosenAfter {calls : List Call} {chosen : Option String}
    (first : ∀ name ∈ chosen, breaksLine name = false) :
    ∀ name ∈ chosenAfter chosen calls, breaksLine name = false := by
  induction calls generalizing chosen with
  | nil => exact first
  | cons call calls ih =>
    refine ih fun name member => ?_
    rcases Option.or_eq_some_iff.mp member with chooses | ⟨-, before⟩
    · exact unbroken_of_chooses? chooses
    · exact first name before

end Call

/-! ## The head -/

theorem unbroken_withLast {field : String × String} {set : List (String × String)}
    (own : Unbroken field) (others : ∀ field ∈ set, Unbroken field) :
    Unbroken (withLast set field) := by
  refine ⟨own.1, ?_⟩
  unfold withLast
  cases last : (valuesOf field.1 set).getLast? with
  | none => exact own.2
  | some value =>
    obtain ⟨other, member, rfl⟩ := List.mem_map.mp (List.mem_of_getLast? last)
    exact (others other (List.mem_filter.mp member).1).2

namespace Session

open Conversation

variable {handler : Handler} {request : Request} {sink : Sink} {protocol : Option String}
  {set : List (String × String)}

/-- The fields of the head when this subprotocol has been chosen and these fields have been set,
one after the other. -/
def answerFields (request : Request) (protocol : Option String) (set : List (String × String)) :
    List (String × String) :=
  let builtIn := leadingFields request ++ protocolField protocol
  builtIn.map (withLast set) ++ (lastOfEach set).filter fun field => !builtIn.any (sameName field)

theorem unbroken_builtIn (request : Request)
    (chosen : ∀ name ∈ protocol, breaksLine name = false) :
    ∀ field ∈ leadingFields request ++ protocolField protocol, Unbroken field := by
  have leading : ∀ field ∈ leadingFields request, Unbroken field := fun field member =>
    checkField_eq_ok_iff.mp (fit_leadingFields request field member)
  have named : breaksLine "Sec-WebSocket-Protocol" = false := by decide
  refine List.forall_mem_append.mpr ⟨leading, ?_⟩
  cases protocol with
  | none => exact nofun
  | some name => exact List.forall_mem_singleton.mpr ⟨named, chosen name rfl⟩

theorem unbroken_answerFields (chosen : ∀ name ∈ protocol, breaksLine name = false)
    (unbroken : ∀ field ∈ set, Unbroken field) :
    ∀ field ∈ answerFields request protocol set, Unbroken field := by
  refine List.forall_mem_append.mpr ⟨fun field member => ?_, fun field member => ?_⟩
  · obtain ⟨field, among, rfl⟩ := List.mem_map.mp member
    exact unbroken_withLast (unbroken_builtIn request chosen field among) unbroken
  · exact unbroken field ((lastOfEach_sublist set).subset (List.mem_filter.mp member).1)

theorem fields_eq_answerFields (request : Request) (protocol : Option String)
    (set : List (String × String)) :
    Response.fields
        { accept := acceptKey (request.key?.getD ""), protocol, extra := lastOfEach set } =
      answerFields request protocol set := by
  rw [Response.fields_eq_merged, merged_lastOfEach]
  cases protocol <;> rfl

/-- The answer to a client, when the handler makes its calls without the output. -/
theorem response_of_silent
    (silent : ∀ call ∈ (handler.greet request).calls, call.needsOutput none = false)
    (sink : Sink) :
    let calls := (handler.greet request).calls
    (greeted handler request sink).2.server.response =
      { accept := acceptKey (request.key?.getD "")
        protocol := Call.chosenAfter request.protocols.head? calls
        extra := lastOfEach (calls.filterMap Call.field?) } := by
  intro calls
  let asking := (Server.ofRequest request sink).advance .connecting
  have server : (greeted handler request sink).2.server = (asking.performAll none calls).2 :=
    (greeted_of_silent silent sink).2
  have quiet : ∀ call ∈ calls, call.message? none = none := fun call member => by
    simpa [Server.needsOutput_eq] using silent call member
  have protocol := asking.chosen_performAll none calls
  have unset : asking.extra = lastOfEach [] := rfl
  have set := Server.extra_performAll rfl quiet unset
  obtain ⟨chosen, extra, same⟩ := server_greeted handler request sink
  rw [← server, same] at protocol set
  obtain rfl : chosen = Call.chosenAfter request.protocols.head? calls := protocol
  obtain rfl : extra = lastOfEach (calls.filterMap Call.field?) := set
  rw [same]
  rfl

/-- What a handler without the output sets is what the head shows. -/
theorem head_of_silent
    (silent : ∀ call ∈ (handler.greet request).calls, call.needsOutput none = false)
    (offered : ∀ name ∈ request.protocols.head?, breaksLine name = false) (sink : Sink) :
    let calls := (handler.greet request).calls
    head handler request sink =
      (Head.ofLines (Response.headLines (answerFields request
        (Call.chosenAfter request.protocols.head? calls) (calls.filterMap Call.field?))),
        .ok ()) := by
  intro calls
  have fit : ∀ field ∈ answerFields request (Call.chosenAfter request.protocols.head? calls)
      (calls.filterMap Call.field?), checkField field.1 field.2 = .ok () :=
    fun field member => checkField_eq_ok_iff.mpr (unbroken_answerFields
      (Call.unbroken_of_chosenAfter offered) (fun _ => Call.unbroken_of_mem_fields) field member)
  rw [← fields_eq_answerFields] at fit
  rw [head, response_of_silent silent, Response.write_of_fit fit, fields_eq_answerFields]

/-- **What a handler sets while it is being asked is what the client sees.** A call with a line end
fails and has no effect. The head that answers an accepted client has the built-in fields in
their places, the subprotocol among them if one was chosen, last by a call or else as the first
that the client offers; each has the value that was set last for its name, or else its own. Behind
them stands each other name once, where and as it was set last. No such session fails, whatever
the handler sets; and fields that a handler sets later, in callbacks or in tasks, are checked and
change nothing: a handler without them has a run with the same output. -/
theorem serve_chosen_fields (valid : request.validate = .ok ())
    (accepts : (handler.greet request).accepts = true)
    (silent : ∀ call ∈ (handler.greet request).calls, call.needsOutput none = false)
    (offered : ∀ name ∈ request.protocols.head?, breaksLine name = false)
    (takes : sink.TakesAll) (settings : Settings) (inbound : Inbound) :
    let calls := (handler.greet request).calls
    let run := serve handler settings request inbound sink
    let fields := answerFields request (Call.chosenAfter request.protocols.head? calls)
      (calls.filterMap Call.field?)
    (∀ (server : Server) delivery name value, ¬ Unbroken (name, value) →
      server.perform delivery (.setHeader name value) =
        (.failed (.invalidHeaderValue name "contains CR or LF characters"), server)) ∧
    (∀ (server : Server) delivery name, breaksLine name = true →
      server.perform delivery (.setProtocol name) =
        (.failed (.invalidHeaderValue "Sec-WebSocket-Protocol" "contains CR or LF characters"),
          server)) ∧
    (∃ key, request.key? = some key ∧
      leadingFields request = [("Upgrade", "websocket"), ("Connection", "Upgrade"),
        ("Sec-WebSocket-Accept", acceptKey key)]) ∧
    run.sink.written.toList = sink.written.toList ++ Head.ofLines (Response.headLines fields) ++
      Frame.encodeAll run.outbound.admitted.toList ∧
    (∀ error, run.verdict ≠ .returned (.error error)) ∧
    (∀ (server : Server) delivery name value,
      (server.perform delivery (.setHeader name value)).1 = .ofUnit (checkField name value) ∧
        (server.Late → (server.perform delivery (.setHeader name value)).2 = server)) ∧
    ∀ other, handler.DiffersLate other →
      run.Alike (serve other settings request inbound sink) := by
  intro calls run fields
  have whole := head_of_silent silent offered sink
  have welcomes : Welcomes handler request sink :=
    ⟨valid, (greeted_of_silent silent sink).1, accepts⟩
  have opens : Opens handler request sink := opens_of_takesAll welcomes takes (by rw [whole])
  obtain ⟨written, runs⟩ := served_of_takesAll (served_serve opens settings inbound) opens takes
  rw [whole] at written
  obtain ⟨key, named, -⟩ := (Request.validate_eq_ok_iff.mp valid).key
  have keyed : request.key? = some key := named
  refine ⟨fun server delivery _ _ => server.perform_setHeader_of_broken delivery,
    fun server delivery _ => server.perform_setProtocol_of_broken delivery, ⟨key, keyed, ?_⟩,
    written, runs, fun server delivery name value =>
      ⟨server.perform_setHeader_fst delivery name value, fun late =>
        congrArg Prod.snd (Server.perform_setHeader_of_late late name value)⟩,
    fun other differs => serve_of_differsLate differs settings request inbound sink⟩
  rw [leadingFields, keyed, Option.getD_some]

/-- A handler sets a field in two spellings, one that is built in and one with a line end, chooses
twice, the second time with a line end, and sets a field again on a message. -/
theorem serve_chosen_fields_twice :
    let request := Request.ofParts "GET" "/chat"
      [("Upgrade", "websocket"), ("Connection", "Upgrade"), ("Sec-WebSocket-Version", "7"),
        ("Sec-WebSocket-Key", "AQIDBAUGBwgJCgsMDQ4PEA=="), ("Sec-WebSocket-Protocol", "a, b")]
    let greeting : Greeting :=
      { calls := [.setHeader "X-A" "1", .setHeader "upgrade" "h2c", .setHeader "X-B" "2\n",
          .setProtocol "b", .setHeader "X-C" "3", .setHeader "x-a" "4", .setProtocol "c\r"] }
    let handler : Handler :=
      { greet := fun _ => greeting, reply := fun _ _ _ => [.setHeader "X-C" "5", .echo] }
    let other : Handler := { greet := fun _ => greeting, reply := fun _ _ _ => [.echo] }
    let inbound : Inbound := { blocks := [[0x81, 0x80, 1, 2, 3, 4]], ending := .eof }
    let head := "HTTP/1.1 101 Switching Protocols\r\nUpgrade: h2c\r\nConnection: Upgrade\r\n" ++
      "Sec-WebSocket-Accept: C/0nmHhBztSRGR1CwL6Tf4ZjwpY=\r\nSec-WebSocket-Protocol: b\r\n" ++
      "X-C: 3\r\nx-a: 4\r\n\r\n"
    (serve handler {} request inbound {}).sink.written.toList = Bytes.ofString head ++
        Frame.encodeAll (serve handler {} request inbound {}).outbound.admitted.toList ∧
      (∀ error, (serve handler {} request inbound {}).verdict ≠ .returned (.error error)) ∧
      (serve handler {} request inbound {}).Alike (serve other {} request inbound {}) := by
  intro request greeting handler other inbound head
  have silent : ∀ call ∈ greeting.calls, call.needsOutput none = false := by decide
  have offered : ∀ name ∈ request.protocols.head?, breaksLine name = false := by decide +kernel
  have shown : Head.ofLines (Response.headLines (answerFields request
      (Call.chosenAfter request.protocols.head? greeting.calls)
      (greeting.calls.filterMap Call.field?))) = Bytes.ofString head := by decide +kernel
  have differs : handler.DiffersLate other :=
    { accepts := fun _ => rfl
      greet := fun _ => List.forall₂_same.mpr fun call _ => .same call
      reply := fun _ _ _ => .here "X-C" "5" (.refl _)
      part := .refl _
      workers := rfl
      farewell := rfl }
  have valid : request.validate = .ok () := rfl
  have accepts : (handler.greet request).accepts = true := rfl
  have takes : Sink.TakesAll {} := ⟨rfl, rfl⟩
  have nothing : ({} : Sink).written.toList = [] := rfl
  obtain ⟨-, -, -, written, runs, -, alike⟩ :=
    serve_chosen_fields valid accepts silent offered takes {} inbound
  rw [shown, nothing, List.nil_append] at written
  exact ⟨written, runs, alike other differs⟩

end Session

end WebSocket
