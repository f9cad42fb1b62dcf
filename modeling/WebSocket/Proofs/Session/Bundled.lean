import WebSocket.Handler.Counter
import WebSocket.Handler.Echo
import WebSocket.Handler.Inspector
import WebSocket.Proofs.Handshake.Values
import WebSocket.Proofs.Session.FieldCalls

/-!
# The handlers of the library

Each of them accepts a client while it is being asked and without the output, and what it
announces is a subprotocol that the client offers (`Handler.Announces`). An upgrade that is fit is
therefore answered with a whole head, except where the subprotocol to announce holds a carriage
return: such a token is read like any other, and it is refused only when the head is written
(`Session.serve_bundled`).
-/

namespace WebSocket

namespace Handler

/-- The handlers of the library. -/
inductive Bundled where
  | echo
  | counter (workers count : Nat)
  | inspector

def Bundled.handler : Bundled → Handler
  | echo => .echo
  | counter workers count => .counter workers count
  | inspector => .inspector

/-- Only the inspector refuses, when it is told to. -/
def Bundled.Accepts (request : Request) (bundled : Bundled) : Prop :=
  bundled = .inspector → request.header? Inspector.refuseHeader = none

/-- The subprotocol that a handler announces, and the fields that it adds. It is the first that
the client offers, unless the inspector is told to pick another one and can. -/
inductive Announces (request : Request) :
    Bundled → Option String → List (String × String) → Prop where
  | echo : Announces request .echo request.protocols.head? []
  | counter (workers count : Nat) :
    Announces request (.counter workers count) request.protocols.head? []
  | picked (welcome : request.header? Inspector.refuseHeader = none) (text name : String)
      (index : Nat) (asked : request.header? Inspector.chooseHeader = some text)
      (number : Inspector.parseIndex? text = some index)
      (offered : request.protocols[index]? = some name) (fit : '\r' ∉ name.toList) :
    Announces request .inspector (some name) [(Inspector.markHeader, "true")]
  | unpicked (welcome : request.header? Inspector.refuseHeader = none)
      (unable : ∀ text index name, request.header? Inspector.chooseHeader = some text →
        Inspector.parseIndex? text = some index → request.protocols[index]? = some name →
          '\r' ∈ name.toList) :
    Announces request .inspector request.protocols.head? [(Inspector.markHeader, "true")]

variable {request : Request} {bundled : Bundled} {protocol : Option String}
  {extra : List (String × String)}

theorem Inspector.picked?_eq_some_iff {name : String} :
    picked? request = some name ↔
      ∃ text, request.header? chooseHeader = some text ∧
        ∃ index, parseIndex? text = some index ∧ request.protocols[index]? = some name := by
  simp only [picked?, Option.bind_eq_bind, Option.bind_eq_some_iff]

theorem Bundled.Accepts.announces (accepts : bundled.Accepts request) :
    ∃ protocol extra, Announces request bundled protocol extra := by
  cases bundled with
  | echo => exact ⟨_, _, .echo⟩
  | counter workers count => exact ⟨_, _, .counter workers count⟩
  | inspector =>
    have welcome := accepts rfl
    by_cases able : ∃ name, Inspector.picked? request = some name ∧ '\r' ∉ name.toList
    · obtain ⟨name, picks, fit⟩ := able
      obtain ⟨text, asked, index, number, offered⟩ := Inspector.picked?_eq_some_iff.mp picks
      exact ⟨_, _, .picked welcome text name index asked number offered fit⟩
    · refine ⟨_, _, .unpicked welcome fun text index name asked number offered => ?_⟩
      by_contra fit
      exact able ⟨name, Inspector.picked?_eq_some_iff.mpr ⟨text, asked, index, number, offered⟩,
        fit⟩

theorem Announces.mem_protocols (announces : Announces request bundled protocol extra)
    {name : String} (announced : protocol = some name) : name ∈ request.protocols := by
  cases announces with
  | echo | counter | unpicked => exact List.mem_of_mem_head? announced
  | picked welcome text name' index asked number offered fit =>
    exact Option.some.inj announced ▸ List.mem_of_getElem? offered

theorem Announces.extra_eq (announces : Announces request bundled protocol extra) :
    extra = [] ∨ extra = [(Inspector.markHeader, "true")] := by
  cases announces with
  | echo | counter => exact .inl rfl
  | picked | unpicked => exact .inr rfl

end Handler

/-! ## Asking the handlers -/

namespace Handler

variable {request : Request} {bundled : Bundled} {protocol : Option String}
  {extra : List (String × String)}

/-- A handler that accepts, and that without the output comes to what it announces. -/
structure Greets (request : Request) (handler : Handler) (protocol : Option String)
    (extra : List (String × String)) : Prop where
  accepts : (handler.greet request).accepts = true
  silent : ∀ call ∈ (handler.greet request).calls, call.needsOutput none = false
  made (sink : Sink) :
    let server := (Server.ofRequest request sink).advance .connecting
    (server.performAll none (handler.greet request).calls).2 = server.announce protocol extra

theorem Inspector.greet_of_welcome (welcome : request.header? refuseHeader = none) :
    greet request =
      { calls := (picked? request).toList.map Call.setProtocol ++
          [.setHeader markHeader "true"] } := by
  unfold greet
  rw [welcome]
  cases picked? request <;> rfl

/-- The inspector picks a subprotocol, if it can, and then adds its field. -/
theorem Inspector.greets {protocol : Option String}
    (welcome : request.header? refuseHeader = none)
    (picks : ∀ server : Server, server.chosen = request.protocols.head? →
      (server.performAll none ((picked? request).toList.map Call.setProtocol)).2 =
        { server with chosen := protocol }) :
    inspector.Greets request protocol [(markHeader, "true")] := by
  have greeting : inspector.greet request = _ := greet_of_welcome welcome
  refine ⟨by rw [greeting], fun call member => ?_, fun sink => ?_⟩
  · rw [greeting, List.mem_append, List.mem_singleton] at member
    rcases member with picking | rfl
    · obtain ⟨name, -, rfl⟩ := List.mem_map.mp picking
      rfl
    · rfl
  · have unbroken : Unbroken (markHeader, "true") := by decide
    dsimp only
    rw [greeting, Server.performAll_append, picks _ rfl]
    exact Server.perform_setHeader_of_connecting
      { (Server.ofRequest request sink).advance .connecting with chosen := protocol } none rfl
      unbroken

theorem Announces.greets (announces : Announces request bundled protocol extra)
    (feedless : ∀ name ∈ request.protocols, '\n' ∉ name.toList) :
    bundled.handler.Greets request protocol extra := by
  cases announces with
  | echo => exact ⟨rfl, nofun, fun sink => rfl⟩
  | counter workers count => exact ⟨rfl, nofun, fun sink => rfl⟩
  | picked welcome text name index asked number offered fit =>
    have picks := Inspector.picked?_eq_some_iff.mpr ⟨text, asked, index, number, offered⟩
    have whole : breaksLine name = false :=
      breaksLine_eq_false_iff.mpr ⟨fit, feedless name (List.mem_of_getElem? offered)⟩
    refine Inspector.greets welcome fun server first => ?_
    rw [picks]
    exact server.perform_setProtocol_of_fit none whole
  | unpicked welcome unfit =>
    refine Inspector.greets welcome fun server first => ?_
    cases picks : Inspector.picked? request with
    | none => rw [← first]; rfl
    | some name =>
      obtain ⟨text, asked, index, number, offered⟩ := Inspector.picked?_eq_some_iff.mp picks
      have breaks : breaksLine name = true :=
        List.any_eq_true.mpr ⟨'\r', unfit text index name asked number offered, rfl⟩
      rw [← first]
      exact congrArg Prod.snd (server.perform_setProtocol_of_broken none breaks)

end Handler

/-! ## The answer to an upgrade -/

namespace Response

variable {response : Response}

/-- The inspector's field is none of the built-in ones. -/
theorem fields_of_mark (added : response.extra = [] ∨
    response.extra = [(Handler.Inspector.markHeader, "true")]) :
    response.fields = response.builtIn ++ response.extra := by
  rcases added with none | mark
  · rw [fields, none, List.foldl_nil, List.append_nil]
  · rw [fields, mark]
    refine Table.putEntry_of_absent fun field member => ?_
    have known : field.1 ∈ ["Upgrade", "Connection", "Sec-WebSocket-Accept",
        "Sec-WebSocket-Protocol"] := by
      unfold builtIn at member
      cases response.protocol <;> grind
    have others : ∀ name ∈ ["Upgrade", "Connection", "Sec-WebSocket-Accept",
        "Sec-WebSocket-Protocol"],
        Text.equalsIgnoringCase Handler.Inspector.markHeader name = false := by decide
    exact others _ known

end Response

namespace Session

open Conversation Handler

variable {handler : Handler} {bundled : Bundled} {settings : Settings} {request : Request}
  {inbound : Inbound} {sink : Sink} {protocol : Option String} {extra : List (String × String)}

/-- A handler that does not wait for the output comes to the end of its calls. -/
theorem greeted_of_silent
    (silent : ∀ call ∈ (handler.greet request).calls, call.needsOutput none = false)
    (sink : Sink) :
    (greeted handler request sink).1 = true ∧
      (greeted handler request sink).2.server =
        (((Server.ofRequest request sink).advance .connecting).performAll none
          (handler.greet request).calls).2 := by
  have all (asking : Conversation) :
      asking.reach none (handler.greet request).calls = (handler.greet request).calls :=
    reach_of_silent silent
  exact ⟨returned_callback_of_reach (all _), by rw [greeted, server_callback, all]⟩

/-- The answer to an accepted client. -/
theorem response_greeted (greets : handler.Greets request protocol extra) (sink : Sink) :
    (greeted handler request sink).2.server.response =
      { accept := acceptKey (request.key?.getD ""), protocol, extra } := by
  rw [(greeted_of_silent greets.silent sink).2, greets.made]
  rfl

theorem welcomes_of_greets (valid : request.validate = .ok ())
    (greets : handler.Greets request protocol extra) (sink : Sink) :
    Welcomes handler request sink :=
  ⟨valid, (greeted_of_silent greets.silent sink).1, greets.accepts⟩

/-- The fields of the head that answers an upgrade, whatever it announces. -/
def leadingFields (request : Request) : List (String × String) :=
  [("Upgrade", "websocket"), ("Connection", "Upgrade"),
    ("Sec-WebSocket-Accept", acceptKey (request.key?.getD ""))]

def protocolField : Option String → List (String × String)
  | some name => [("Sec-WebSocket-Protocol", name)]
  | none => []

theorem fit_leadingFields (request : Request) :
    ∀ field ∈ leadingFields request, checkField field.1 field.2 = .ok () := by
  have accept := checkField_eq_ok_iff.mpr
    ⟨(by decide : breaksLine "Sec-WebSocket-Accept" = false),
      breaksLine_acceptKey (request.key?.getD "")⟩
  simp only [leadingFields, List.forall_mem_cons]
  exact ⟨by decide, by decide, accept, nofun⟩

theorem fields_response_greeted (announces : Announces request bundled protocol extra)
    (feedless : ∀ name ∈ request.protocols, '\n' ∉ name.toList) (sink : Sink) :
    (greeted bundled.handler request sink).2.server.response.fields =
      leadingFields request ++ (protocolField protocol ++ extra) := by
  rw [response_greeted (announces.greets feedless) sink,
    Response.fields_of_mark announces.extra_eq, ← List.append_assoc]
  cases protocol <;> rfl

/-- A head that announces nothing that breaks a line is written whole. -/
theorem head_of_fit (announces : Announces request bundled protocol extra)
    (feedless : ∀ name ∈ request.protocols, '\n' ∉ name.toList)
    (fit : ∀ name ∈ protocol, '\r' ∉ name.toList) (sink : Sink) :
    head bundled.handler request sink =
      (Head.ofLines (Response.headLines
        (leadingFields request ++ (protocolField protocol ++ extra))), .ok ()) := by
  have announced : ∀ field ∈ protocolField protocol, checkField field.1 field.2 = .ok () := by
    cases protocol with
    | none => nofun
    | some name =>
      have offered := announces.mem_protocols rfl
      have whole := breaksLine_eq_false_iff.mpr ⟨fit name rfl, feedless name offered⟩
      simpa [protocolField] using checkField_eq_ok_iff.mpr ⟨by decide, whole⟩
  have marks : ∀ field ∈ extra, checkField field.1 field.2 = .ok () := by
    rcases announces.extra_eq with rfl | rfl <;> decide
  have fields := fields_response_greeted announces feedless sink
  have all : ∀ field ∈ (greeted bundled.handler request sink).2.server.response.fields,
      checkField field.1 field.2 = .ok () := by
    rw [fields]
    simp only [List.forall_mem_append]
    exact ⟨fit_leadingFields request, announced, marks⟩
  rw [head, Response.write_of_fit all, fields]

/-- A head does not announce what breaks a line. -/
theorem head_of_return {name : String} (announces : Announces request bundled (some name) extra)
    (feedless : ∀ name ∈ request.protocols, '\n' ∉ name.toList) (held : '\r' ∈ name.toList)
    (sink : Sink) :
    (head bundled.handler request sink).2 = .error
      (.invalidHeaderValue "Sec-WebSocket-Protocol" "contains CR or LF characters") :=
  Response.write_of_unfit (fields_response_greeted announces feedless sink)
    (fit_leadingFields request) (checkField_of_return held _)

/-! ## Whole runs -/

/-- A head that does not come to its end is not sent, and the session fails for the same
reason. -/
theorem serve_of_unfit_head (welcomes : Welcomes handler request sink) {error : Error}
    (broken : (head handler request sink).2 = .error error) (settings : Settings)
    (inbound : Inbound) :
    (serve handler settings request inbound sink).sink.written = sink.written ∧
      (serve handler settings request inbound sink).verdict = .returned (.error error) := by
  have course := course_serve handler settings request inbound sink
  generalize serve handler settings request inbound sink = run at course
  refine ⟨(course.untouched fun _ => by rw [broken]; nofun).written, ?_⟩
  cases course with
  | declined h => exact absurd welcomes h.unwelcome
  | unanswered error' welcomes failed same =>
    rw [Server.sendHead_of_error broken] at failed
    cases failed
    rw [same]
    rfl
  | served opens h =>
    rw [opens.head_ok] at broken
    cases broken

/-- **An upgrade that is fit is answered, unless what is to be announced holds a carriage
return.** Whatever head is read and found fit, and whichever handler of the library does not
refuse it: no offered subprotocol holds a line feed, and one of them holds a carriage return
exactly if the offer does. The handler announces the first of them, or the one that the inspector
is told to pick. If that holds no carriage return the session opens on a stream that takes all,
behind a whole head; if it does, nothing is written and the session fails with the field. -/
theorem serve_bundled {data : Bytes} (read : Request.parse data = .ok request)
    (valid : request.validate = .ok ()) (accepts : bundled.Accepts request)
    (takes : sink.TakesAll) (settings : Settings) (inbound : Inbound) :
    let run := serve bundled.handler settings request inbound sink
    (∀ name ∈ request.protocols, '\n' ∉ name.toList) ∧
    ((∃ name ∈ request.protocols, '\r' ∈ name.toList) ↔
      ∃ value, request.header? "Sec-WebSocket-Protocol" = some value ∧ '\r' ∈ value.toList) ∧
    ∃ protocol extra, Announces request bundled protocol extra ∧
      ((∀ name ∈ protocol, '\r' ∉ name.toList) →
        Opens bundled.handler request sink ∧
        run.sink.written.toList = sink.written.toList ++
          Head.ofLines (Response.headLines
            (leadingFields request ++ (protocolField protocol ++ extra))) ++
              Frame.encodeAll run.outbound.admitted.toList ∧
        ∀ error, run.verdict ≠ .returned (.error error)) ∧
      (∀ name ∈ protocol, '\r' ∈ name.toList →
        run.sink.written = sink.written ∧
        run.verdict = .returned (.error
          (.invalidHeaderValue "Sec-WebSocket-Protocol" "contains CR or LF characters"))) := by
  have feedless := Request.lineFeed_notMem_protocols read
  obtain ⟨protocol, extra, announces⟩ := accepts.announces
  have welcomes := welcomes_of_greets valid (announces.greets feedless) sink
  refine ⟨feedless, Request.exists_mem_protocols_iff (by decide), protocol, extra, announces,
    fun fit => ?_, ?_⟩
  · have whole := head_of_fit announces feedless fit sink
    have opens := opens_of_takesAll welcomes takes (by rw [whole])
    have ⟨written, still⟩ :=
      served_of_takesAll (served_serve opens settings inbound) opens takes
    rw [whole] at written
    exact ⟨opens, written, still⟩
  · rintro name rfl held
    exact serve_of_unfit_head welcomes (head_of_return announces feedless held sink) settings
      inbound

/-- The inspector picks the second of two subprotocols, so that a session opens although the first
holds a carriage return. -/
theorem serve_bundled_picked :
    let text := "GET / HTTP/1.1\nUpgrade:websocket\nConnection:upgrade\n" ++
      "Sec-WebSocket-Key:k\nSec-WebSocket-Version:7\nSec-WebSocket-Protocol:a\rb,c\n" ++
      "X-Choose-Subprotocol:1\n\n"
    let head := "HTTP/1.1 101 Switching Protocols\r\nUpgrade: websocket\r\n" ++
      "Connection: Upgrade\r\nSec-WebSocket-Accept: cai0HFWL7DEHZkyHxdyv1Pn3R6M=\r\n" ++
      "Sec-WebSocket-Protocol: c\r\nX-Debug-Header: true\r\n\r\n"
    ∃ request, Request.parse (Bytes.ofString text) = .ok request ∧ request.validate = .ok () ∧
      Bundled.inspector.Accepts request ∧ Sink.TakesAll {} ∧ request.protocols = ["a\rb", "c"] ∧
      let run := serve Bundled.inspector.handler {} request { blocks := [], ending := .eof } {}
      (∃ back, run.sink.written.toList = Bytes.ofString head ++ back) ∧
      ∀ error, run.verdict ≠ .returned (.error error) := by
  intro text head
  let headers : List (String × String) :=
    [("upgrade", "websocket"), ("connection", "upgrade"), ("sec-websocket-key", "k"),
      ("sec-websocket-version", "7"), ("sec-websocket-protocol", "a\rb,c"),
      ("x-choose-subprotocol", "1")]
  let request : Request := ⟨"GET", "/", ⟨headers⟩⟩
  have lines : Request.parseText text.toList = .ok request := by decide +kernel
  have parsed : Request.parse (Bytes.ofString text) = .ok request := by
    rw [Request.parse_ofString, lines]
    rfl
  have offers : request.protocols = ["a\rb", "c"] := by decide +kernel
  have valid : request.validate = .ok () := by decide +kernel
  have takes : Sink.TakesAll {} := ⟨rfl, rfl⟩
  have accepts : Bundled.inspector.Accepts request := fun _ => by decide +kernel
  obtain ⟨-, -, protocol, extra, announces, answered, -⟩ :=
    serve_bundled parsed valid accepts takes {} { blocks := [], ending := .eof }
  refine ⟨request, parsed, valid, accepts, takes, offers, ?_⟩
  have picks : Inspector.picked? request = some "c" := by decide +kernel
  obtain ⟨rfl, rfl⟩ : protocol = some "c" ∧ extra = [("X-Debug-Header", "true")] := by
    obtain ⟨text, asked, index, number, offered⟩ := Inspector.picked?_eq_some_iff.mp picks
    cases announces with
    | picked welcome text' name index' asked' number' offered' fit =>
      obtain rfl : text' = text := Option.some.inj (asked'.symm.trans asked)
      obtain rfl : index' = index := Option.some.inj (number'.symm.trans number)
      exact ⟨offered'.symm.trans offered, rfl⟩
    | unpicked welcome unfit =>
      exact absurd (unfit text index "c" asked number offered) (by decide)
  obtain ⟨-, written, still⟩ := answered (by rintro name ⟨⟩; decide)
  have blank : ({} : Sink).written.toList = [] := rfl
  have shown : Head.ofLines (Response.headLines (leadingFields request ++
      (protocolField (some "c") ++ [("X-Debug-Header", "true")]))) = Bytes.ofString head := by
    decide +kernel
  rw [blank, List.nil_append, shown] at written
  exact ⟨⟨_, written⟩, still⟩

/-- A fit upgrade that offers one subprotocol, with a carriage return in it, gets no answer from
the echo handler although the stream takes all: the session fails with the field that it was to
announce. -/
theorem unanswered_of_return :
    let text := "GET / HTTP/1.1\nUpgrade:websocket\nConnection:upgrade\n" ++
      "Sec-WebSocket-Key:k\nSec-WebSocket-Version:7\nSec-WebSocket-Protocol:a\rb\n\n"
    ∃ request, Request.parse (Bytes.ofString text) = .ok request ∧ request.validate = .ok () ∧
      Sink.TakesAll {} ∧ request.protocols = ["a\rb"] ∧
      let run := serve Bundled.echo.handler {} request { blocks := [], ending := .eof } {}
      ¬ Opens Bundled.echo.handler request {} ∧ run.sink.written = #[] ∧
      run.verdict = .returned (.error
        (.invalidHeaderValue "Sec-WebSocket-Protocol" "contains CR or LF characters")) := by
  intro text
  let headers : List (String × String) :=
    [("upgrade", "websocket"), ("connection", "upgrade"), ("sec-websocket-key", "k"),
      ("sec-websocket-version", "7"), ("sec-websocket-protocol", "a\rb")]
  let request : Request := ⟨"GET", "/", ⟨headers⟩⟩
  have lines : Request.parseText text.toList = .ok request := by decide +kernel
  have parsed : Request.parse (Bytes.ofString text) = .ok request := by
    rw [Request.parse_ofString, lines]
    rfl
  have offers : request.protocols = ["a\rb"] := by decide +kernel
  have valid : request.validate = .ok () := by decide +kernel
  have feedless := Request.lineFeed_notMem_protocols parsed
  have announces : Announces request .echo (some "a\rb") [] := by
    have first : Announces request .echo request.protocols.head? [] := .echo
    rwa [offers] at first
  have broken := head_of_return announces feedless (by decide) {}
  have welcomes := welcomes_of_greets valid (announces.greets feedless) {}
  obtain ⟨nothing, failed⟩ :=
    serve_of_unfit_head welcomes broken {} { blocks := [], ending := .eof }
  refine ⟨request, parsed, valid, ⟨rfl, rfl⟩, offers, fun opens => ?_, nothing, failed⟩
  rw [opens.head_ok] at broken
  cases broken

end Session

end WebSocket
