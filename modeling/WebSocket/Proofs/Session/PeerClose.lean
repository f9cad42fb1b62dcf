import WebSocket.Handler.Echo
import WebSocket.Proofs.Reassembly.Interlude
import WebSocket.Proofs.Session.Farewell
import WebSocket.Proofs.Session.Replies
import WebSocket.Proofs.Session.SendResult

/-!
# Closing from one session to another

What a session sends to close, another one receives from its peer: behind whole frames there comes
a masked close frame with the payload that was sent (`Inbound.ClosesWith`). The codes that may be
sent and the codes that are accepted are two rules of their own. They agree from 1000 to 4999, if
the settings allow reserved codes; a code outside of that range may be sent, and it is answered as
a breach (`Session.serve_closeWith`).
-/

namespace WebSocket

/-- Of the codes that may be sent those from 1000 to 4999 are accepted, if reserved ones are. -/
theorem CloseCode.isValidInbound_of_free {code : CloseCode}
    (free : code.toNat ∉ [1004, 1005, 1006, 1015]) :
    code.isValidInbound true = true ↔ 1000 ≤ code.toNat ∧ code.toNat ≤ 4999 := by
  unfold isValidInbound
  generalize code.toNat = n at free
  simp only [List.mem_cons, List.not_mem_nil, or_false, not_or] at free
  dsimp only
  split_ifs
  all_goals
    simp only [true_iff, false_iff]
    omega

theorem CloseCode.toNat_ofNumber_toNumber (code : CloseCode) :
    (ofNumber code.toNumber).toNat = code.toNat :=
  congrArg UInt16.toNat (toNumber_ofNumber _)

/-- What a payload that may be sent comes to where reserved codes are allowed. -/
theorem Outcome.ofClosePayload_payload {close : CloseFrame}
    (free : close.code.toNat ∉ [1004, 1005, 1006, 1015]) :
    ofClosePayload true (BigEndian.encode 2 close.code.toNat ++ Bytes.ofString close.reason) =
      if 1000 ≤ close.code.toNat ∧ close.code.toNat ≤ 4999 then
        .peerClosed (some ⟨.ofNumber close.code.toNumber, close.reason⟩)
      else .protocolError (.invalidCloseCode close.code.toNat) := by
  have number := close.code.toNat_ofNumber_toNumber
  have several :
      (BigEndian.encode 2 close.code.toNat ++ Bytes.ofString close.reason).length ≠ 1 := by
    rw [List.length_append, BigEndian.length_encode]
    omega
  have accepts := CloseCode.isValidInbound_of_free (number.symm ▸ free)
  rw [number] at accepts
  simp only [ofClosePayload, if_neg several, CloseFrame.parse?_payload, accepts, number]

/-- Behind `front`, which ends where a frame ends, the peer sends a masked close frame with this
payload, and behind it anything. -/
structure Inbound.ClosesWith (inbound : Inbound) (limits : Limits) (front payload : Bytes) :
    Prop where
  between : (Reassembler.feed limits {} front).machine.stage = .start
  sent : ∃ mask field back, Grammar.Spells payload.length field ∧
    inbound.blocks.flatten =
      front ++ (Grammar.encodeWith ⟨true, .close, payload, mask⟩ field ++ back)

/-- The handler closes the session on events that come first in it. -/
def Handler.ClosesOn (handler : Handler) (request : Request) (events : List Event) : Prop :=
  hasClose (admissible (handler.puts request 0 events)) = true

instance (handler : Handler) (request : Request) (events : List Event) :
    Decidable (handler.ClosesOn request events) := inferInstanceAs (Decidable (_ = true))

variable {handler : Handler} {settings : Settings} {request : Request} {inbound : Inbound}
  {sink : Sink} {front payload : Bytes} {events : List Event}

/-! ## Receiving a close frame -/

/-- A close frame behind whole frames is the last that is reported. -/
theorem Inbound.ClosesWith.heard_eq (closes : inbound.ClosesWith settings.limits front payload)
    (small : payload.length ≤ 125) (frames : 125 ≤ settings.limits.maxPayload)
    (messages : 125 ≤ settings.limits.maxMessage) :
    (inbound.heard settings).events.toList =
        (Reassembler.feed settings.limits {} front).events.toList ++ [.close payload] ∧
      (inbound.heard settings).violation = none := by
  obtain ⟨mask, field, back, spelled, sent⟩ := closes.sent
  have sound : (Reassembler.feed settings.limits {} front).machine.Sound settings.limits :=
    Reassembler.sound_fresh.feedFrom
  obtain ⟨message, there⟩ := sound.atFrame closes.between
  have fits : Grammar.Fits settings.limits ⟨true, .close, payload, mask⟩ :=
    ⟨Nat.le_trans small frames, Nat.lt_of_le_of_lt small (by decide)⟩
  have mayCome : Grammar.MayCome settings.limits message ⟨true, .close, payload, mask⟩ :=
    ⟨rfl, small, Nat.le_trans small messages⟩
  obtain ⟨next, passed, fed⟩ := Reassembler.agrees_readFrame there
    (Grammar.readFrame_encodeWith fits mayCome spelled back) #[]
  -- The machine is closed behind the frame, so that nothing of the rest is looked at.
  rw [Reassembler.feedFrom_of_closing (passed.closed rfl)] at fed
  have unbroken : (Reassembler.feed settings.limits {} front).violation = none := by
    cases broken : (Reassembler.feed settings.limits {} front).violation with
    | none => rfl
    | some error =>
      have closed := Reassembler.stage_of_violation broken
      rw [← Reassembler.feed, closes.between] at closed
      cases closed
  have second : (Reassembler.feed settings.limits {} front).machine.feed settings.limits
      (Grammar.encodeWith ⟨true, .close, payload, mask⟩ field ++ back) =
        { machine := next, events := #[.close payload] } := fed
  simp only [Inbound.heard, sent, Reassembler.feed_append, second, unbroken, Array.toList_append,
    Option.none_or, and_self]

namespace Session

open Conversation

/-- A session hears a close frame of its peer, unless its handler closes it before that. -/
theorem Opens.conversed_of_close (opens : Opens handler request sink)
    (heard : (inbound.heard settings).events.toList = events ++ [.close payload]) :
    (handler.ClosesOn request events →
      (conversed handler settings request inbound sink).1 = some .localClosed) ∧
    (¬ handler.ClosesOn request events →
      (conversed handler settings request inbound sink).1 =
        some (.ofClosePayload settings.allowReserved payload)) := by
  have quiet (other : Bytes) : .close other ∉ events := by
    have last := inbound.closesLast_heard settings
    rw [heard] at last
    intro member
    obtain ⟨before, after, rfl⟩ := List.append_of_mem member
    have nothing := last before other (after ++ [.close payload]) (by simp)
    simp at nothing
  have put := (listens_opened opens).dispatch opens.put_opened handler settings events
  have ended : ((opened handler request sink).dispatch handler settings events).1 = _ :=
    dispatch_fst opens.serving_opened.marked opens.closing_opened quiet
  rw [List.nil_append] at put
  rw [opens.conversed_eq, heard, dispatch_append]
  cases acted : (opened handler request sink).dispatch handler settings events with
  | mk outcome next =>
    rw [acted] at put ended
    rw [Handler.ClosesOn, ← put.closing]
    cases closing : next.server.closing with
    | true =>
      rw [closing] at ended
      obtain rfl : outcome = some .localClosed := ended
      exact ⟨fun _ => rfl, fun further => absurd rfl further⟩
    | false =>
      rw [closing] at ended
      obtain rfl : outcome = none := ended
      exact ⟨nofun, fun _ => rfl⟩

/-- A session that comes to an outcome returns it, and has sent a close frame that goes with it. -/
theorem Opens.serve_of_conversed (opens : Opens handler request sink) {outcome : Outcome}
    (h : (conversed handler settings request inbound sink).1 = some outcome) :
    let run := serve handler settings request inbound sink
    run.verdict = .returned (.ok outcome) ∧
      ∃ replies answer, Parting handler settings request inbound outcome answer ∧
        run.outbound.admitted.toList = replies ++ [(.close, answer)] := by
  have ended : conversed handler settings request inbound sink =
      (some outcome, (conversed handler settings request inbound sink).2) := by rw [← h]
  obtain ⟨replies, answer, parting, admitted, -⟩ := opens.parted_closes ended
  rw [opens.serve_eq ended]
  refine ⟨rfl, replies, answer, parting, ?_⟩
  rw [outbound_finish_tearDown]
  exact admitted

/-! ## Both sides -/

/-- What is put on the wire to close. -/
theorem closeWith_eq_ok {server : Server} {close : CloseFrame} {count : Nat}
    (sent : (server.closeWith close).1 = .ok count) :
    close.code.toNat ∉ [1004, 1005, 1006, 1015] ∧ close.reason.utf8ByteSize ≤ 123 ∧
      let payload := BigEndian.encode 2 close.code.toNat ++ Bytes.ofString close.reason
      (server.closeWith close).2.outbound =
        server.outbound.admitting .close payload (Frame.encode .close payload) := by
  have free : close.code.toNat ∉ [1004, 1005, 1006, 1015] := by
    intro reserved
    simp [Server.closeWith, CloseFrame.encode_of_reserved reserved] at sent
  have short : close.reason.utf8ByteSize ≤ 123 := by
    refine Nat.not_lt.mp fun long => ?_
    simp [Server.closeWith, CloseFrame.encode_of_long free long] at sent
  refine ⟨free, short, ?_⟩
  simp only [Server.closeWith, CloseFrame.encode_of_short free short] at sent ⊢
  have through : (server.outbound.send .close
      (BigEndian.encode 2 close.code.toNat ++ Bytes.ofString close.reason)).1 = .ok count := sent
  obtain ⟨-, admitted, roomy, -⟩ := Outbound.send_eq_ok_iff.mp through
  obtain ⟨-, further, -⟩ := Outbound.refusal?_eq_none_iff.mp admitted
  rw [Server.outbound_trySend, Outbound.send_of_admitted admitted,
    Outbound.push_eq_admitting further, Sink.fitting_of_hasRoom roomy]

/-- **What one session closes with, another one reads as it was meant**, if the code lies between
1000 and 4999. The frame is on the wire with a payload that fits a control frame. Any open session
that allows reserved codes, and whose limits have room for a control frame, may receive the payload
behind whole frames, whatever key masks it and however its length is written. Unless the handler of
that session closes it before, it ends as closed by the peer, with the same code and reason, and
sends the code back. A code outside of the range is no less sent; it ends the session as a breach,
which is answered with 1002. -/
theorem serve_closeWith {server : Server} {close : CloseFrame} {count : Nat}
    (sent : (server.closeWith close).1 = .ok count) :
    let payload := BigEndian.encode 2 close.code.toNat ++ Bytes.ofString close.reason
    payload.length ≤ 125 ∧
      (server.closeWith close).2.outbound =
        server.outbound.admitting .close payload (Frame.encode .close payload) ∧
      ∀ {handler settings request inbound sink front}, Opens handler request sink →
        settings.allowReserved = true → 125 ≤ settings.limits.maxPayload →
        125 ≤ settings.limits.maxMessage → inbound.ClosesWith settings.limits front payload →
          let run := serve handler settings request inbound sink
          let before := (Reassembler.feed settings.limits {} front).events.toList
          (handler.ClosesOn request before → run.verdict = .returned (.ok .localClosed)) ∧
          (¬ handler.ClosesOn request before →
            (1000 ≤ close.code.toNat ∧ close.code.toNat ≤ 4999 →
              ∃ frame replies, frame.code.toNat = close.code.toNat ∧
                frame.reason = close.reason ∧
                run.verdict = .returned (.ok (.peerClosed (some frame))) ∧
                run.outbound.admitted.toList =
                  replies ++ [(.close, BigEndian.encode 2 close.code.toNat)]) ∧
            (close.code.toNat < 1000 ∨ 4999 < close.code.toNat →
              ∃ replies,
                run.verdict =
                  .returned (.ok (.protocolError (.invalidCloseCode close.code.toNat))) ∧
                run.outbound.admitted.toList =
                  replies ++ [(.close, BigEndian.encode 2 1002)])) := by
  obtain ⟨free, short, wire⟩ := closeWith_eq_ok sent
  have small := CloseFrame.length_payload_le short
  have outcome := Outcome.ofClosePayload_payload free
  have number := close.code.toNat_ofNumber_toNumber
  refine ⟨small, wire, ?_⟩
  intro handler settings request inbound sink front opens reserved frames messages closes
  obtain ⟨heard, unbroken⟩ := closes.heard_eq small frames messages
  obtain ⟨ours, theirs⟩ := opens.conversed_of_close heard
  rw [reserved, outcome] at theirs
  refine ⟨fun closed => (opens.serve_of_conversed (ours closed)).1, fun further => ⟨?_, ?_⟩⟩
  · intro within
    rw [if_pos within] at theirs
    obtain ⟨returned, replies, answer, parting, admitted⟩ :=
      opens.serve_of_conversed (theirs further)
    refine ⟨⟨.ofNumber close.code.toNumber, close.reason⟩, replies, number, rfl, returned, ?_⟩
    cases parting with
    | acceptedCode high low reason frame member read valid =>
      rwa [← CloseFrame.encode_code_of_parse? read, number] at admitted
  · intro outside
    rw [if_neg (by omega)] at theirs
    obtain ⟨returned, replies, answer, parting, admitted⟩ :=
      opens.serve_of_conversed (theirs further)
    refine ⟨replies, returned, ?_⟩
    generalize invalid : Error.invalidCloseCode close.code.toNat = error at parting
    cases parting with
    | breach error broken => simp [unbroken] at broken
    | halfCode byte member => cases invalid
    | rejectedCode high low reason frame member read valid => exact admitted

/-- A code of a private range behind a message that is answered, with a length in two bytes. -/
theorem serve_closeWith_private :
    let request := Request.ofParts "GET" "/chat"
      [("Upgrade", "websocket"), ("Connection", "Upgrade"), ("Sec-WebSocket-Version", "7"),
        ("Sec-WebSocket-Key", "AQIDBAUGBwgJCgsMDQ4PEA==")]
    let server := Server.ofRequest request {}
    let settings : Settings := { allowReserved := true }
    let inbound : Inbound :=
      { blocks := [[0x81, 0x82, 1, 2, 3, 4, 73, 107, 0x88, 0xFE, 0],
          [4, 1, 2, 3, 4, 10, 186, 108, 111]]
        ending := .silent }
    (server.closeWith ⟨.other 3000, "ok"⟩).1 = .ok 4 ∧ Opens .echo request {} ∧
      inbound.ClosesWith settings.limits [0x81, 0x82, 1, 2, 3, 4, 73, 107] [11, 184, 111, 107] ∧
      ∃ frame replies, frame.code.toNat = 3000 ∧ frame.reason = "ok" ∧
        (serve .echo settings request inbound {}).verdict =
          .returned (.ok (.peerClosed (some frame))) ∧
        (serve .echo settings request inbound {}).outbound.admitted.toList =
          replies ++ [(.close, [11, 184])] := by
  intro request server settings inbound
  have sent : (server.closeWith ⟨.other 3000, "ok"⟩).1 = .ok 4 := by decide +kernel
  have opens : Opens .echo request {} := ⟨⟨rfl, rfl, rfl⟩, by decide +kernel⟩
  have between :
      (Reassembler.feed settings.limits {} [0x81, 0x82, 1, 2, 3, 4, 73, 107]).machine.stage =
        .start := by decide +kernel
  have closes : inbound.ClosesWith settings.limits [0x81, 0x82, 1, 2, 3, 4, 73, 107]
      [11, 184, 111, 107] :=
    ⟨between, ⟨1, 2, 3, 4⟩, _, [], .short (by decide), by decide +kernel⟩
  have further : ¬ Handler.echo.ClosesOn request
      (Reassembler.feed settings.limits {} [0x81, 0x82, 1, 2, 3, 4, 73, 107]).events.toList := by
    decide +kernel
  obtain ⟨-, -, receives⟩ := serve_closeWith sent
  have ends := (receives opens rfl (by decide) (by decide) closes).2 further
  exact ⟨sent, opens, closes, ends.1 (by decide)⟩

/-- A code below 1000 is sent like any other, and breaks the protocol where it is received. -/
theorem serve_closeWith_low :
    let request := Request.ofParts "GET" "/chat"
      [("Upgrade", "websocket"), ("Connection", "Upgrade"), ("Sec-WebSocket-Version", "7"),
        ("Sec-WebSocket-Key", "AQIDBAUGBwgJCgsMDQ4PEA==")]
    let server := Server.ofRequest request {}
    let settings : Settings := { allowReserved := true }
    let inbound : Inbound := { blocks := [[0x88, 0x82, 0, 0, 0, 0, 3, 231]], ending := .eof }
    (server.closeWith ⟨.other 999, ""⟩).1 = .ok 2 ∧
      (server.closeWith ⟨.other 999, ""⟩).2.outbound.admitted.toList = [(.close, [3, 231])] ∧
      inbound.ClosesWith settings.limits [] [3, 231] ∧
      (serve .echo settings request inbound {}).verdict =
        .returned (.ok (.protocolError (.invalidCloseCode 999))) ∧
      (serve .echo settings request inbound {}).outbound.admitted.toList =
        [(.close, [3, 234])] := by
  intro request server settings inbound
  have sent : (server.closeWith ⟨.other 999, ""⟩).1 = .ok 2 ∧
      (server.closeWith ⟨.other 999, ""⟩).2.outbound.admitted.toList = [(.close, [3, 231])] := by
    decide +kernel
  have closes : inbound.ClosesWith settings.limits [] [3, 231] :=
    ⟨by decide +kernel, .zero, _, [], .inline (by decide), by decide +kernel⟩
  have ended : (serve .echo settings request inbound {}).verdict =
        .returned (.ok (.protocolError (.invalidCloseCode 999))) ∧
      (serve .echo settings request inbound {}).outbound.admitted.toList =
        [(.close, [3, 234])] := by
    decide +kernel
  exact ⟨sent.1, sent.2, closes, ended⟩

end Session

end WebSocket
