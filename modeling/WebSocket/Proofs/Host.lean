import WebSocket.Handler.Echo
import WebSocket.Host
import WebSocket.Proofs.Handshake.Arrival
import WebSocket.Proofs.Session.Output

/-!
# Bytes behind a head

A head that arrives within the bound, is well formed, asks for an upgrade and finds a handler is
answered by the session of its request, on the bytes behind it. None of these is lost and none is
taken for part of the head, however the stream is cut (`Host.handle_of_isHead`).
-/

namespace WebSocket

/-- A session may as well get its input in one block. -/
theorem Session.serve_flatten (handler : Handler) (settings : Settings) (request : Request)
    (ending : Ending) (sink : Sink) (blocks : List Bytes) :
    serve handler settings request { blocks, ending } sink =
      serve handler settings request { blocks := [blocks.flatten], ending } sink := by
  have start : ((Server.ofRequest request sink).advance .connecting).Marked := fun closed => closed
  have same : blocks.flatten = [blocks.flatten].flatten := by simp
  unfold serve
  split
  · rfl
  · dsimp only
    split
    · rfl
    · next conversation called =>
      have marked : (true, conversation).2.server.Marked :=
        called ▸ Conversation.marked_callback start _ _ _
      split
      · exact Conversation.accept_of_flatten_eq marked settings.readBlock settings.readBlock same
      · rfl

namespace Host

variable {router : Router Handler} {settings : Settings} {inbound next : Inbound} {sink : Sink}
  {head rest : Bytes} {max : Nat} {request : Request} {handler : Handler} {error : Error}

theorem checkHead_of_malformed (fits : head.length ≤ max)
    (malformed : Request.parse head = .error error) : checkHead max head = .error error := by
  rw [checkHead, Request.parseWithin, if_neg (Nat.not_lt.mpr fits), malformed]
  rfl

theorem checkHead_of_unfit (fits : head.length ≤ max) (parsed : Request.parse head = .ok request)
    (unfit : request.validate = .error error) : checkHead max head = .error error := by
  rw [checkHead, Request.parseWithin, if_neg (Nat.not_lt.mpr fits), parsed]
  exact congrArg (· >>= fun _ => pure request) unfit

theorem checkHead_of_fit (fits : head.length ≤ max) (parsed : Request.parse head = .ok request)
    (fit : request.validate = .ok ()) : checkHead max head = .ok request := by
  rw [checkHead, Request.parseWithin, if_neg (Nat.not_lt.mpr fits), parsed]
  exact congrArg (· >>= fun _ => pure request) fit

section Arrived

variable (arrived : Head.read settings.limits.maxHandshake inbound = (.head head, next))
include arrived

theorem handle_of_rejected
    (rejected : checkHead settings.limits.maxHandshake head = .error error) :
    handle router settings inbound sink = reject error sink := by
  simp only [handle, arrived, rejected]

theorem handle_of_unrouted (accepted : checkHead settings.limits.maxHandshake head = .ok request)
    (unrouted : router.get? request.path = none) :
    handle router settings inbound sink =
      fail (.noHandler request.path) (respond sink "404 Not Found") := by
  simp only [handle, arrived, accepted, unrouted]

theorem handle_of_routed (accepted : checkHead settings.limits.maxHandshake head = .ok request)
    (routed : router.get? request.path = some handler) :
    handle router settings inbound sink = Session.serve handler settings request next sink := by
  simp only [handle, arrived, accepted, routed]

end Arrived

/-- A head that is read does not depend on what follows it, and what follows is served. -/
theorem handle_of_upgrade (split : inbound.blocks.flatten = head ++ rest)
    (isHead : Head.IsHead head) (fits : head.length ≤ settings.limits.maxHandshake)
    (parsed : Request.parse head = .ok request) (fit : request.validate = .ok ())
    (routed : router.get? request.path = some handler) :
    handle router settings inbound sink =
      Session.serve handler settings request { blocks := [rest], ending := inbound.ending }
        sink := by
  obtain ⟨blocks, arrived, rfl⟩ := Head.read_of_isHead split isHead fits
  rw [handle_of_routed arrived (checkHead_of_fit fits parsed fit) routed]
  exact Session.serve_flatten ..

/-- **Bytes behind a head belong to the session.** However the head and the bytes behind it are
cut into blocks, also with the end of the head and the beginning of a frame in one block, a host
does to the letter what the session of the request does on a stream that delivers just those
bytes. -/
theorem handle_of_isHead (router : Router Handler) (settings : Settings) (ending : Ending)
    (sink : Sink) {head rest : Bytes} {blocks behind : List Bytes} {request : Request}
    {handler : Handler} (isHead : Head.IsHead head)
    (fits : head.length ≤ settings.limits.maxHandshake)
    (parsed : Request.parse head = .ok request) (fit : request.validate = .ok ())
    (routed : router.get? request.path = some handler)
    (cut : blocks.flatten = head ++ rest) (cut' : behind.flatten = rest) :
    handle router settings { blocks, ending } sink =
      Session.serve handler settings request { blocks := behind, ending } sink := by
  rw [handle_of_upgrade cut isHead fits parsed fit routed, ← cut']
  exact (Session.serve_flatten ..).symm

/-- The end of a head and the beginning of a frame share a block, and the frame's payload is a
blank line. -/
theorem handle_of_isHead_shared :
    let head := Bytes.ofString ("GET /c?q HTTP/1.1\nUpgrade:websocket\nConnection:upgrade\n" ++
      "Sec-WebSocket-Key:k\nSec-WebSocket-Version:7\n\n")
    let frame : Bytes := [0x81, 0x82, 0, 0, 0, 0, 10, 10]
    let router : Router Handler := { routes := { entries := [("/c", .echo)] } }
    ∃ request, Head.IsHead head ∧ head.length ≤ 8192 ∧ Request.parse head = .ok request ∧
      request.validate = .ok () ∧ router.get? request.path = some .echo ∧
      handle router {} { blocks := [head ++ frame.take 3, frame.drop 3], ending := .eof } {} =
        Session.serve .echo {} request { blocks := [frame], ending := .eof } {} := by
  intro head frame router
  let headers : List (String × String) :=
    [("upgrade", "websocket"), ("connection", "upgrade"), ("sec-websocket-key", "k"),
      ("sec-websocket-version", "7")]
  let request : Request := ⟨"GET", "/c?q", ⟨headers⟩⟩
  have parsed : Request.parse head = .ok request := by decide +kernel
  have fit : request.validate = .ok () := by decide +kernel
  obtain ⟨isHead, fits⟩ : Head.IsHead head ∧ head.length ≤ 8192 :=
    Head.isHead_of_read { blocks := [head], ending := .eof } (by decide +kernel)
  have path : Router.pathOf "/c?q" = "/c" := by decide
  have routed : router.get? "/c?q" = some .echo := by
    simp [router, Router.get?, path, Table.get?]
  have cut : [head ++ frame.take 3, frame.drop 3].flatten = head ++ frame := by simp
  have cut' : [frame].flatten = frame := by simp
  exact ⟨request, isHead, fits, parsed, fit, routed,
    handle_of_isHead router {} .eof {} isHead fits parsed fit routed cut cut'⟩

end Host

end WebSocket
