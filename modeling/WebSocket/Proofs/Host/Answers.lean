import Mathlib.Data.List.TakeDrop
import WebSocket.Proofs.Handshake.ResponseWriter
import WebSocket.Proofs.Handshake.Upgrade
import WebSocket.Proofs.Host
import WebSocket.Proofs.Lookup

/-!
# What a host answers

The bytes that a stream delivers, and how it ends, decide what a host makes of it
(`Host.handle_answers`): there is one answer for each way in which a head can fail to arrive, to
be well formed, to ask for an upgrade or to find a handler, and otherwise the handler is served
the bytes behind the head. A refusal is spelled out to the byte, and with it what the stream has
got and whether it is shut down (`Host.respond_eq`).
-/

namespace WebSocket

/-- A sink that was given its last bytes: it has got as many as fit, and if these are all of them
it is shut down. -/
def Sink.concluded (sink : Sink) (bytes : Bytes) : Sink :=
  { sink with
    written := sink.written ++ sink.fitting bytes
    room := sink.room.map (· - bytes.length)
    isShutDown := sink.isShutDown || decide (sink.fitting bytes = bytes) }

theorem Sink.write_fst (sink : Sink) (bytes : Bytes) :
    (sink.write bytes).1 =
      if sink.fitting bytes = bytes then .ok () else .error sink.fullError := by
  cases room : sink.room with
  | none => simp only [write, fitting, room, if_true]
  | some free => simp only [write, fitting, room, List.take_eq_self_iff]

/-- A read of a stream fails with an error of the stream. -/
def Ending.OfStream (ending : Ending) : Prop :=
  ∀ error, ending = .fails error → ∃ detail, error = .io detail

namespace Host

variable {router : Router Handler} {settings : Settings} {inbound next : Inbound} {sink : Sink}
  {head rest : Bytes} {request : Request} {handler : Handler} {error : Error} {status : String}
  {run : Run} {result other : Head.Result}

/-! ## Refusals -/

/-- The answer that refuses a request: a head with this status, and no body. -/
def refusal (status : String) : Bytes :=
  Head.ofLines
    (["HTTP/1.1 " ++ status, "Connection: close", "Content-Length: 0"].map Bytes.ofString)

theorem errorResponse_eq (status : String) : errorResponse status = refusal status := by
  have lines : Bytes.ofString "\r\nConnection: close\r\nContent-Length: 0\r\n\r\n" =
      lineEnd ++ (Bytes.ofString "Connection: close" ++ lineEnd) ++
        (Bytes.ofString "Content-Length: 0" ++ lineEnd) ++ lineEnd := by decide
  simp only [errorResponse, refusal, Head.ofLines, Bytes.ofString_append, lines, List.map_cons,
    List.map_nil, List.flatMap_cons, List.flatMap_nil, List.append_assoc, List.append_nil]

/-- A refusal is written, and the stream is shut down behind it unless the write fails. -/
theorem respond_eq (sink : Sink) (status : String) :
    respond sink status = sink.concluded (refusal status) := by
  have result := sink.write_fst (refusal status)
  have left := sink.write_snd (refusal status)
  rw [respond, errorResponse_eq]
  by_cases whole : sink.fitting (refusal status) = refusal status
  · have wrote : sink.write (refusal status) = (_, _) :=
      Prod.ext (result.trans (if_pos whole)) left
    simp only [wrote, Sink.shutDown_snd, Sink.concluded, decide_eq_true whole, Bool.or_true]
  · have wrote : sink.write (refusal status) = (_, _) :=
      Prod.ext (result.trans (if_neg whole)) left
    simp only [wrote, Sink.concluded, decide_eq_false whole, Bool.or_false]

/-! ## What arrives -/

/-- What reading a head from this stream comes to. -/
def Receives (settings : Settings) (inbound : Inbound) (result : Head.Result) : Prop :=
  Head.Arrives settings.limits.maxHandshake inbound.ending inbound.blocks.flatten result

/-- The bytes of a stream do not come to a request that is fit, for this reason. -/
inductive Rejects (settings : Settings) (inbound : Inbound) : Error → Prop where
  | tooLarge (max : Nat)
    (h : Receives settings inbound (.failed (.handshakeTooLarge (max + 1) max))) :
    Rejects settings inbound (.handshakeTooLarge (max + 1) max)
  | cutOff (h : Receives settings inbound (.failed (.invalidHandshake .endedEarly))) :
    Rejects settings inbound (.invalidHandshake .endedEarly)
  | malformed (head : Bytes) (fault : HandshakeFault) (h : Receives settings inbound (.head head))
    (malformed : Request.parse head = .error (.invalidHandshake fault)) :
    Rejects settings inbound (.invalidHandshake fault)
  | unfit (head : Bytes) (request : Request) (fault : HandshakeFault)
    (h : Receives settings inbound (.head head)) (parsed : Request.parse head = .ok request)
    (unfit : request.validate = .error (.invalidHandshake fault)) :
    Rejects settings inbound (.invalidHandshake fault)

/-- A request that arrives, and that asks for an upgrade in every part. -/
structure Requests (settings : Settings) (inbound : Inbound) (request : Request) : Prop where
  received : ∃ head, Receives settings inbound (.head head) ∧ Request.parse head = .ok request
  fit : request.IsUpgrade

/-- A request that arrives and that the host upgrades, and the handler that serves it. -/
structure Upgrades (router : Router Handler) (settings : Settings) (inbound : Inbound)
    (request : Request) (handler : Handler) : Prop extends Requests settings inbound request where
  routed : router.Finds request.path (some handler)

/-- Reading has come to nothing that could be answered. -/
inductive Silent : Head.Result → Prop where
  | unread (detail : String) : Silent (.failed (.io detail))
  | stalled : Silent .stalled

theorem Receives.unique (h : Receives settings inbound result)
    (h' : Receives settings inbound other) : result = other :=
  (Head.read_of_arrives h).symm.trans (Head.read_of_arrives h')

theorem Receives.exists_read (h : Receives settings inbound result) :
    ∃ next, Head.read settings.limits.maxHandshake inbound = (result, next) :=
  ⟨_, Prod.ext (Head.read_of_arrives h) rfl⟩

theorem Receives.fits (h : Receives settings inbound (.head head)) :
    head.length ≤ settings.limits.maxHandshake := by
  cases h with
  | whole head rest split isHead fits => exact fits

theorem Requests.unique {request' : Request} (requests : Requests settings inbound request)
    (requests' : Requests settings inbound request') : request = request' := by
  obtain ⟨head, arrived, parsed⟩ := requests.received
  obtain ⟨head', arrived', parsed'⟩ := requests'.received
  obtain rfl : head = head' := Head.Result.head.inj (arrived.unique arrived')
  exact Except.ok.inj (parsed.symm.trans parsed')

theorem Rejects.not_requests (rejects : Rejects settings inbound error) (request : Request) :
    ¬ Requests settings inbound request := by
  rintro ⟨⟨head, arrived, parsed⟩, fit⟩
  cases rejects with
  | tooLarge max h => cases arrived.unique h
  | cutOff h => cases arrived.unique h
  | malformed head' fault h malformed =>
    cases arrived.unique h
    cases malformed.symm.trans parsed
  | unfit head' request' fault h parsed' unfit =>
    cases arrived.unique h
    cases parsed'.symm.trans parsed
    cases unfit.symm.trans (Request.validate_eq_ok_iff.mpr fit)

/-! ## What a host answers -/

/-- The answers of a host: what is written, and what is made of the stream. -/
inductive Answers (router : Router Handler) (settings : Settings) (inbound : Inbound)
    (sink : Sink) : Run → Prop where
  | rejected (error : Error) (rejects : Rejects settings inbound error) :
    Answers router settings inbound sink
      { verdict := .returned (.error error)
        outbound := { sink := sink.concluded (refusal "400 Bad Request") } }
  | unread (detail : String) (h : Receives settings inbound (.failed (.io detail))) :
    Answers router settings inbound sink
      { verdict := .returned (.error (.io detail)), outbound := { sink } }
  | late (h : Receives settings inbound .stalled)
    (limited : settings.handshakeTimeout.isSome = true) :
    Answers router settings inbound sink
      { verdict := .returned (.error .handshakeTimeout), outbound := { sink } }
  | stuck (h : Receives settings inbound .stalled) (unlimited : settings.handshakeTimeout = none) :
    Answers router settings inbound sink { verdict := .waiting, outbound := { sink } }
  | unrouted (request : Request) (requests : Requests settings inbound request)
    (unrouted : router.Finds request.path none) :
    Answers router settings inbound sink
      { verdict := .returned (.error (.noHandler request.path))
        outbound := { sink := sink.concluded (refusal "404 Not Found") } }
  | served (head rest : Bytes) (request : Request) (handler : Handler)
    (h : Receives settings inbound (.head head)) (split : inbound.blocks.flatten = head ++ rest)
    (parsed : Request.parse head = .ok request) (fit : request.IsUpgrade)
    (routed : router.Finds request.path (some handler)) :
    Answers router settings inbound sink
      (Session.serve handler settings request { blocks := [rest], ending := inbound.ending } sink)

theorem handle_of_failed (h : Receives settings inbound (.failed error)) :
    handle router settings inbound sink = reject error sink := by
  obtain ⟨next, read⟩ := h.exists_read
  simp only [handle, read]

theorem handle_of_stalled (h : Receives settings inbound .stalled) :
    handle router settings inbound sink =
      if settings.handshakeTimeout.isSome then fail .handshakeTimeout sink
      else { verdict := .waiting, outbound := { sink } } := by
  obtain ⟨next, read⟩ := h.exists_read
  simp only [handle, read]

theorem handle_of_rejects (rejects : Rejects settings inbound error) :
    handle router settings inbound sink =
      { verdict := .returned (.error error)
        outbound := { sink := sink.concluded (refusal "400 Bad Request") } } := by
  rw [← respond_eq]
  cases rejects with
  | tooLarge max h => exact handle_of_failed h
  | cutOff h => exact handle_of_failed h
  | malformed head fault h malformed =>
    obtain ⟨next, read⟩ := h.exists_read
    exact handle_of_rejected read (checkHead_of_malformed h.fits malformed)
  | unfit head request fault h parsed unfit =>
    obtain ⟨next, read⟩ := h.exists_read
    exact handle_of_rejected read (checkHead_of_unfit h.fits parsed unfit)

/-- No two answers are given to the same bytes. -/
theorem handle_of_answers (answers : Answers router settings inbound sink run) :
    handle router settings inbound sink = run := by
  cases answers with
  | rejected error rejects => exact handle_of_rejects rejects
  | unread detail h => exact handle_of_failed h
  | late h limited =>
    rw [handle_of_stalled h, if_pos limited]
    rfl
  | stuck h unlimited =>
    rw [handle_of_stalled h, unlimited]
    rfl
  | unrouted request requests unrouted =>
    obtain ⟨head, h, parsed⟩ := requests.received
    obtain ⟨next, read⟩ := h.exists_read
    have fit := Request.validate_eq_ok_iff.mpr requests.fit
    rw [handle_of_unrouted read (checkHead_of_fit h.fits parsed fit) (Router.finds_iff.mp unrouted),
      respond_eq]
    rfl
  | served head rest request handler h split parsed fit routed =>
    cases h with
    | whole head rest' split' isHead fits =>
      exact handle_of_upgrade split isHead fits parsed (Request.validate_eq_ok_iff.mpr fit)
        (Router.finds_iff.mp routed)

/-- There is an answer to all bytes and to every end of a stream. -/
theorem exists_answers (router : Router Handler) (settings : Settings) (inbound : Inbound)
    (sink : Sink) (stream : inbound.ending.OfStream) :
    ∃ run, Answers router settings inbound sink run := by
  obtain ⟨result, h⟩ := Head.exists_arrives settings.limits.maxHandshake inbound.ending
    inbound.blocks.flatten
  have received : Receives settings inbound result := h
  cases h with
  | tooLarge headless long => exact ⟨_, .rejected _ (.tooLarge _ received)⟩
  | cutOff headless short ends => exact ⟨_, .rejected _ (.cutOff received)⟩
  | unread headless short error ends =>
    obtain ⟨detail, rfl⟩ := stream error ends
    exact ⟨_, .unread detail received⟩
  | stalled headless short ends =>
    cases timeout : settings.handshakeTimeout with
    | none => exact ⟨_, .stuck received timeout⟩
    | some milliseconds => exact ⟨_, .late received (by rw [timeout]; rfl)⟩
  | whole head rest split isHead fits =>
    cases parsed : Request.parse head with
    | error error =>
      obtain ⟨fault, rfl⟩ := Request.error_of_parse parsed
      exact ⟨_, .rejected _ (.malformed head fault received parsed)⟩
    | ok request =>
      cases valid : request.validate with
      | error error =>
        obtain ⟨fault, rfl⟩ := Request.error_of_validate valid
        exact ⟨_, .rejected _ (.unfit head request fault received parsed valid)⟩
      | ok =>
        have fit := Request.validate_eq_ok_iff.mp valid
        cases found : router.get? request.path with
        | none =>
          have unrouted := Router.finds_iff.mpr found
          exact ⟨_, .unrouted request ⟨⟨head, received, parsed⟩, fit⟩ unrouted⟩
        | some handler =>
          have routed := Router.finds_iff.mpr found
          exact ⟨_, .served head rest request handler received split parsed fit routed⟩

/-! ## What a host writes -/

/-- The heads with which a host answers: to bytes that are rejected, to a request without a handler,
and to one whose handler welcomes the client and that a head can answer. -/
inductive IsReply (router : Router Handler) (settings : Settings) (inbound : Inbound)
    (sink : Sink) : Bytes → Prop where
  | badRequest (error : Error) (rejects : Rejects settings inbound error) :
    IsReply router settings inbound sink (refusal "400 Bad Request")
  | notFound (request : Request) (requests : Requests settings inbound request)
    (unrouted : router.Finds request.path none) :
    IsReply router settings inbound sink (refusal "404 Not Found")
  | switching (request : Request) (handler : Handler) (fields : List (String × String))
    (upgrades : Upgrades router settings inbound request handler)
    (welcomes : Session.Welcomes handler request sink)
    (unbroken : ∀ field ∈ fields, Unbroken field)
    (h : Session.head handler request sink =
      (Head.ofLines (Response.headLines fields), .ok ())) :
    IsReply router settings inbound sink (Head.ofLines (Response.headLines fields))

/-- The one head that is due goes out, or none if none is: with nothing in front of it and only
frames behind it, as far as the stream takes them. Frames and callbacks take an upgrade. -/
structure Replies (router : Router Handler) (settings : Settings) (inbound : Inbound)
    (sink : Sink) (run : Run) : Prop where
  head : ∃ reply : Option Bytes,
    (∀ head, reply = some head ↔ IsReply router settings inbound sink head) ∧
      run.sink.written.toList = sink.written.toList ++
        sink.fitting (reply.getD [] ++ Frame.encodeAll run.outbound.admitted.toList)
  upgrades : run.journal ≠ [] ∨ run.outbound.admitted.toList ≠ [] →
    ∃ request handler, Upgrades router settings inbound request handler

theorem Upgrades.unique {request' : Request} {handler' : Handler}
    (upgrades : Upgrades router settings inbound request handler)
    (upgrades' : Upgrades router settings inbound request' handler') :
    request = request' ∧ handler = handler' := by
  obtain rfl := upgrades.toRequests.unique upgrades'.toRequests
  have found := Router.finds_iff.mp upgrades.routed
  exact ⟨rfl, Option.some.inj (found.symm.trans (Router.finds_iff.mp upgrades'.routed))⟩

/-- The one request that arrives has a handler. -/
theorem Upgrades.not_unrouted {request' : Request}
    (upgrades : Upgrades router settings inbound request handler)
    (requests : Requests settings inbound request') : ¬ router.Finds request'.path none := by
  obtain rfl := upgrades.toRequests.unique requests
  rw [Router.finds_iff, Router.finds_iff.mp upgrades.routed]
  nofun

namespace IsReply

theorem eq_of_rejects (reply : IsReply router settings inbound sink head)
    (rejects : Rejects settings inbound error) : head = refusal "400 Bad Request" := by
  cases reply with
  | badRequest error' rejects' => rfl
  | notFound request requests unrouted => exact absurd requests (rejects.not_requests request)
  | switching request handler fields upgrades =>
    exact absurd upgrades.toRequests (rejects.not_requests request)

theorem eq_of_unrouted (reply : IsReply router settings inbound sink head)
    (requests : Requests settings inbound request) (unrouted : router.Finds request.path none) :
    head = refusal "404 Not Found" := by
  cases reply with
  | badRequest error rejects => exact absurd requests (rejects.not_requests request)
  | notFound request' requests' unrouted' => rfl
  | switching request' handler fields upgrades =>
    exact absurd unrouted (upgrades.not_unrouted requests)

theorem of_upgrades (reply : IsReply router settings inbound sink head)
    (upgrades : Upgrades router settings inbound request handler) :
    Session.Welcomes handler request sink ∧
      Session.head handler request sink = (head, .ok ()) := by
  cases reply with
  | badRequest error rejects => exact absurd upgrades.toRequests (rejects.not_requests request)
  | notFound request' requests unrouted =>
    exact absurd unrouted (upgrades.not_unrouted requests)
  | switching request' handler' fields upgrades' welcomes unbroken h =>
    obtain ⟨rfl, rfl⟩ := upgrades.unique upgrades'
    exact ⟨welcomes, h⟩

/-- A head goes out for one reason only. -/
theorem unique {head' : Bytes} (reply : IsReply router settings inbound sink head)
    (reply' : IsReply router settings inbound sink head') : head = head' := by
  cases reply with
  | badRequest error rejects => exact (reply'.eq_of_rejects rejects).symm
  | notFound request requests unrouted => exact (reply'.eq_of_unrouted requests unrouted).symm
  | switching request handler fields upgrades welcomes unbroken h =>
    exact congrArg Prod.fst (h.symm.trans (reply'.of_upgrades upgrades).2)

theorem some_eq_iff (reply : IsReply router settings inbound sink head) (head' : Bytes) :
    some head = some head' ↔ IsReply router settings inbound sink head' := by
  constructor
  · rintro ⟨⟩
    exact reply
  · exact fun reply' => congrArg some (reply.unique reply')

end IsReply

theorem not_isReply_of_silent (h : Receives settings inbound result) (silent : Silent result) :
    ¬ IsReply router settings inbound sink head := by
  have unrequested (request : Request) : ¬ Requests settings inbound request := by
    rintro ⟨⟨head, arrived, -⟩, -⟩
    cases arrived.unique h
    cases silent
  intro reply
  cases reply with
  | badRequest error rejects =>
    cases rejects with
    | tooLarge max h' | cutOff h' | malformed _ _ h' | unfit _ _ _ h' =>
      cases h'.unique h
      cases silent
  | notFound request requests => exact unrequested request requests
  | switching request handler fields upgrades => exact unrequested request upgrades.toRequests

theorem replies_of_silent (h : Receives settings inbound result) (silent : Silent result)
    (verdict : Verdict) :
    Replies router settings inbound sink { verdict, outbound := { sink } } where
  head := by
    refine ⟨none, fun head => ⟨nofun, fun reply => ?_⟩, (Sink.holds_start sink).written⟩
    exact absurd reply (not_isReply_of_silent h silent)
  upgrades h := by simp at h

theorem replies_of_refusal (verdict : Verdict)
    (reply : IsReply router settings inbound sink (refusal status)) :
    Replies router settings inbound sink
      { verdict, outbound := { sink := sink.concluded (refusal status) } } where
  head := by
    refine ⟨some (refusal status), reply.some_eq_iff, ?_⟩
    simp [Run.sink, Sink.concluded, Frame.encodeAll]
  upgrades h := by simp at h

/-- A head that can be written switches protocols. -/
theorem isReply_of_welcomes (upgrades : Upgrades router settings inbound request handler)
    (welcomes : Session.Welcomes handler request sink)
    (whole : (Session.head handler request sink).2 = .ok ()) :
    IsReply router settings inbound sink (Session.head handler request sink).1 := by
  have lines := Response.write_of_ok whole
  have unbroken := fun field member =>
    checkField_eq_ok_iff.mp (Response.fit_of_write whole field member)
  rw [Session.head, lines]
  exact .switching request handler _ upgrades welcomes unbroken (Prod.ext lines whole)

theorem replies_serve {next : Inbound}
    (upgrades : Upgrades router settings inbound request handler) :
    Replies router settings inbound sink
      (Session.serve handler settings request next sink) where
  head := by
    have course := Session.course_serve handler settings request next sink
    by_cases answered : Session.Welcomes handler request sink ∧
        (Session.head handler request sink).2 = .ok ()
    · -- A head that the stream does not take whole goes out as far as it does, and without frames.
      have reply := isReply_of_welcomes upgrades answered.1 answered.2
      exact ⟨some _, reply.some_eq_iff, (course.faithful answered.1 answered.2).carries.written⟩
    · refine ⟨none, fun head => ⟨nofun, fun reply => ?_⟩, ?_⟩
      · obtain ⟨welcomes, h⟩ := reply.of_upgrades upgrades
        exact absurd ⟨welcomes, congrArg Prod.snd h⟩ answered
      · have untouched := course.untouched fun welcomes good => answered ⟨welcomes, good⟩
        rw [untouched.written, untouched.admitted]
        exact (Sink.holds_start sink).written
  upgrades _ := ⟨request, handler, upgrades⟩

theorem replies_of_answers (answers : Answers router settings inbound sink run) :
    Replies router settings inbound sink run := by
  cases answers with
  | rejected error rejects => exact replies_of_refusal _ (.badRequest error rejects)
  | unrouted request requests unrouted =>
    exact replies_of_refusal _ (.notFound request requests unrouted)
  | unread detail h => exact replies_of_silent h (.unread detail) _
  | late h limited => exact replies_of_silent h .stalled _
  | stuck h unlimited => exact replies_of_silent h .stalled _
  | served head rest request handler h split parsed fit routed =>
    exact replies_serve { received := ⟨head, h, parsed⟩, fit, routed }

/-- Handlers at the same paths make no difference unless one of them is to serve a request. -/
theorem answers_congr {other : Router Handler}
    (paths : ∀ target, other.Finds target none ↔ router.Finds target none)
    (declines : ∀ request handler, ¬ Upgrades router settings inbound request handler)
    (answers : Answers router settings inbound sink run) :
    Answers other settings inbound sink run := by
  cases answers with
  | rejected error rejects => exact .rejected error rejects
  | unread detail h => exact .unread detail h
  | late h limited => exact .late h limited
  | stuck h unlimited => exact .stuck h unlimited
  | unrouted request requests unrouted =>
    exact .unrouted request requests ((paths request.path).mpr unrouted)
  | served head rest request handler h split parsed fit routed =>
    exact absurd { received := ⟨head, h, parsed⟩, fit, routed } (declines request handler)

/-- **Every stream gets the one right answer.** A host answers whatever bytes a stream delivers,
however they are cut and however the stream ends, and the conditions of the answers exclude each
other. A refusal goes out as far as the stream takes it, and the stream is shut down behind a whole
one. At most one head goes out, and just if it is due; and a host neither switches protocols nor
runs a handler unless a head arrives within the bound that is well formed, asks for an upgrade in
every part and is routed: without one, any handlers at the same paths would leave the same run. -/
theorem handle_answers (router : Router Handler) (settings : Settings) (inbound : Inbound)
    (sink : Sink) (stream : inbound.ending.OfStream) :
    (∀ run, Answers router settings inbound sink run ↔
        handle router settings inbound sink = run) ∧
      Replies router settings inbound sink (handle router settings inbound sink) ∧
      ((∀ request handler, ¬ Upgrades router settings inbound request handler) →
        ∀ other : Router Handler,
          (∀ target, other.Finds target none ↔ router.Finds target none) →
            handle other settings inbound sink = handle router settings inbound sink) := by
  obtain ⟨run, answers⟩ := exists_answers router settings inbound sink stream
  obtain rfl := handle_of_answers answers
  refine ⟨fun run => ⟨handle_of_answers, ?_⟩, replies_of_answers answers, ?_⟩
  · rintro rfl
    exact answers
  · intro declines other paths
    exact handle_of_answers (answers_congr paths declines answers)

/-- A head that is cut off is refused on a stream that takes twenty bytes, which is therefore not
shut down. A fit one with a query finds no handler, although one is registered under the whole
target, and is refused in full. One that fails to be read is not answered. -/
theorem handle_answers_refused :
    let text := "GET /chat?q HTTP/1.1\nUpgrade:websocket\nConnection:upgrade\n" ++
      "Sec-WebSocket-Key:k\nSec-WebSocket-Version:7\n\n"
    let head := Bytes.ofString text
    let cutOff : Inbound := { blocks := [head.take 3, (head.drop 3).take 9], ending := .eof }
    let whole : Inbound := { blocks := [head.take 3, head.drop 3 ++ [0x81]], ending := .silent }
    let unread : Inbound := { blocks := [head.take 3], ending := .fails (.io "read failed") }
    let router : Router Handler := { routes := { entries := [("/chat?q", .echo)] } }
    cutOff.ending.OfStream ∧ whole.ending.OfStream ∧ unread.ending.OfStream ∧
      handle router {} cutOff { room := some 20 } =
        { verdict := .returned (.error (.invalidHandshake .endedEarly))
          outbound :=
            { sink :=
                { written := (Bytes.ofString "HTTP/1.1 400 Bad Req").toArray
                  room := some 0
                  isShutDown := false } } } ∧
      handle router {} whole {} =
        { verdict := .returned (.error (.noHandler "/chat?q"))
          outbound :=
            { sink :=
                { written := (Bytes.ofString ("HTTP/1.1 404 Not Found\r\n" ++
                    "Connection: close\r\nContent-Length: 0\r\n\r\n")).toArray
                  isShutDown := true } } } ∧
      handle router {} unread {} =
        { verdict := .returned (.error (.io "read failed")), outbound := { sink := {} } } := by
  intro text head cutOff whole unread router
  have ends : cutOff.ending.OfStream := nofun
  have stalls : whole.ending.OfStream := nofun
  have fails : unread.ending.OfStream := by
    rintro error ⟨⟩
    exact ⟨"read failed", rfl⟩
  refine ⟨ends, stalls, fails, ?_, ?_, ?_⟩
  · have received : Receives {} cutOff (.failed (.invalidHandshake .endedEarly)) :=
      Head.arrives_iff.mpr (by decide +kernel)
    have sink : Sink.concluded { room := some 20 } (refusal "400 Bad Request") =
        { written := (Bytes.ofString "HTTP/1.1 400 Bad Req").toArray
          room := some 0
          isShutDown := false } := by decide +kernel
    rw [← sink]
    exact ((handle_answers router {} cutOff { room := some 20 } ends).1 _).mp
      (.rejected _ (.cutOff received))
  · let headers : List (String × String) :=
      [("upgrade", "websocket"), ("connection", "upgrade"), ("sec-websocket-key", "k"),
        ("sec-websocket-version", "7")]
    let request : Request := ⟨"GET", "/chat?q", ⟨headers⟩⟩
    have received : Receives {} whole (.head head) := Head.arrives_iff.mpr (by decide +kernel)
    have parsed : Request.parse head = .ok request := by decide +kernel
    have fit : request.validate = .ok () := by decide +kernel
    have requests : Requests {} whole request :=
      ⟨⟨head, received, parsed⟩, Request.validate_eq_ok_iff.mp fit⟩
    have sink : Sink.concluded {} (refusal "404 Not Found") =
        { written := (Bytes.ofString ("HTTP/1.1 404 Not Found\r\n" ++
            "Connection: close\r\nContent-Length: 0\r\n\r\n")).toArray
          isShutDown := true } := by decide +kernel
    rw [← sink]
    have unrouted : router.Finds request.path none :=
      ⟨"/chat", ⟨by decide, .inr ⟨"q", rfl⟩⟩, by simp [router, Table.get?]⟩
    exact ((handle_answers router {} whole {} stalls).1 _).mp (.unrouted request requests unrouted)
  · have received : Receives {} unread (.failed (.io "read failed")) :=
      Head.arrives_iff.mpr (by decide +kernel)
    exact ((handle_answers router {} unread {} fails).1 _).mp (.unread _ received)

end Host

end WebSocket
