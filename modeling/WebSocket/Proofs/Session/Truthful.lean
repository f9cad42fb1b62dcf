import WebSocket.Handler.Scripted
import WebSocket.Proofs.Session.Moments

/-!
# What the closing flag tells

The end of a session shows in three places: in the output, which a close frame or its detaching
closes, in the flag, and in the state. Whoever looks finds the output closed exactly in the last
two states, and a flag that is up only over a closed output (`Server.Truthful`). The flag goes up
with the output's closing in every session that the handler does not refuse; a refusal detaches
the output behind the flag's back, and the flag stays down until a message is turned down
(`Session.serve_closing_flag`).
-/

namespace WebSocket

/-- A close frame was admitted, or the output was detached. -/
def Outbound.Closed (out : Outbound) : Prop :=
  out.attached = false ∨ ∃ payload, (.close, payload) ∈ out.admitted.toList

/-- The session is past its open state. -/
def SessionState.IsPast (state : SessionState) : Prop :=
  state = .closing ∨ state = .disconnected

theorem SessionState.isPast_advance_closing (state : SessionState) :
    (state.advance .closing).IsPast := by
  cases state <;> simp [advance, rank, IsPast]

theorem SessionState.isPast_advance_opened_iff (state : SessionState) :
    (state.advance .opened).IsPast ↔ state.IsPast := by
  cases state <;> simp [advance, rank, IsPast]

namespace Outbound

variable {out : Outbound} {kind : MessageKind} {payload : Bytes}

theorem closed_push_iff : (out.push kind payload).Closed ↔ out.Closed ∨ kind = .close := by
  simp only [Closed, push, Array.toList_push, List.mem_append, List.mem_singleton, Prod.mk.injEq]
  constructor
  · rintro (detached | ⟨other, member | ⟨same, -⟩⟩)
    · exact .inl (.inl detached)
    · exact .inl (.inr ⟨other, member⟩)
    · exact .inr same.symm
  · rintro ((detached | ⟨other, member⟩) | rfl)
    · exact .inl detached
    · exact .inr ⟨other, .inl member⟩
    · exact .inr ⟨payload, .inr ⟨rfl, rfl⟩⟩

end Outbound

namespace Server

variable {server : Server}

/-- The output knows whether it is closed, the state says the same, and the flag is up only if
it is so. -/
structure Truthful (server : Server) : Prop where
  closed : server.outbound.closing = true ↔ server.outbound.Closed
  past : server.outbound.closing = true ↔ server.state.IsPast
  raised : server.closing = true → server.outbound.closing = true

theorem truthful_markClosing (closed : server.outbound.closing = true)
    (known : server.outbound.Closed) (past : server.closing = true → server.state.IsPast) :
    server.markClosing.Truthful := by
  unfold markClosing
  split
  · next up =>
    exact ⟨iff_of_true closed known, iff_of_true closed (past up), fun _ => closed⟩
  · exact ⟨iff_of_true closed known, iff_of_true closed (SessionState.isPast_advance_closing _),
      fun _ => closed⟩

theorem Truthful.trySend (truthful : server.Truthful) (kind : MessageKind) (payload : Bytes) :
    (server.trySend kind payload).2.Truthful := by
  cases refused : server.outbound.refusal? kind payload with
  | some error =>
    simp only [Server.trySend, Outbound.send_of_refused refused]
    split
    · next closed =>
      exact truthful_markClosing closed (truthful.closed.mp closed)
        fun _ => truthful.past.mp closed
    · exact truthful
  | none =>
    obtain ⟨-, further, -⟩ := Outbound.refusal?_eq_none_iff.mp refused
    have unclosed : ¬ server.outbound.closing = true := Bool.eq_false_iff.mp further
    have down : ¬ server.closing = true := fun up => unclosed (truthful.raised up)
    simp only [Server.trySend, Outbound.send_of_admitted refused]
    split
    · next closed =>
      have close : kind = .close := by simpa [Outbound.push, further] using closed
      exact truthful_markClosing closed (Outbound.closed_push_iff.mpr (.inr close))
        fun up => absurd up down
    · next still =>
      have other : kind ≠ .close := fun close => still (by simp [Outbound.push, close])
      refine ⟨iff_of_false still fun closed => ?_, iff_of_false still fun past => ?_,
        fun up => absurd up down⟩
      · rcases Outbound.closed_push_iff.mp closed with before | close
        · exact unclosed (truthful.closed.mpr before)
        · exact other close
      · exact unclosed (truthful.past.mpr past)

theorem Truthful.perform (truthful : server.Truthful) (delivery : Option Delivery) (call : Call) :
    (server.perform delivery call).2.Truthful :=
  perform_induction (fun kind payload _ => truthful.trySend kind payload)
    fun _ _ _ => ⟨truthful.closed, truthful.past, truthful.raised⟩

theorem Truthful.sendHead (truthful : server.Truthful) : server.sendHead.2.Truthful := by
  unfold Server.sendHead
  split
  · exact truthful
  · exact ⟨truthful.closed, truthful.past, truthful.raised⟩

theorem Truthful.advance_opened (truthful : server.Truthful) :
    (server.advance .opened).Truthful where
  closed := truthful.closed
  past := truthful.past.trans (SessionState.isPast_advance_opened_iff server.state).symm
  raised := truthful.raised

/-- When a session is over the output is closed in any case. -/
theorem truthful_advance_disconnected (detached : server.outbound.attached = false)
    (closed : server.outbound.closing = true) : (server.advance .disconnected).Truthful where
  closed := iff_of_true closed (.inl detached)
  past := iff_of_true closed (.inr (state_advance_disconnected server))
  raised _ := closed

theorem truthful_detach_advance (server : Server) :
    (server.detach.advance .disconnected).Truthful := by
  have outbound : server.detach.outbound = server.outbound.detach := outbound_markClosing _
  exact truthful_advance_disconnected (by rw [outbound]; rfl) (by rw [outbound]; rfl)

theorem marked_detach_advance (server : Server) :
    (server.detach.advance .disconnected).Marked :=
  fun _ => closing_markClosing _

end Server

namespace Session

open Conversation

variable {handler : Handler} {request : Request} {sink : Sink} {server : Server}

theorem truthful_asking (request : Request) (sink : Sink) :
    (asking request sink).server.Truthful where
  closed := by simp [asking, Server.ofRequest, Server.advance, Outbound.Closed]
  past := by
    simp [asking, Server.ofRequest, Server.advance, SessionState.advance, SessionState.rank,
      SessionState.IsPast]
  raised := nofun

theorem lasting_truthful (handler : Handler) (request : Request) (sink : Sink) :
    Lasting handler request sink Server.Truthful where
  asking := truthful_asking request sink
  calls _ delivery call truthful := truthful.perform delivery call
  detached _ _ _ := Server.truthful_advance_disconnected rfl rfl
  answered _ truthful := truthful.sendHead
  opened _ truthful := truthful.advance_opened
  closedDown server _ := server.truthful_detach_advance
  shutDown _ truthful := ⟨truthful.closed, truthful.past, truthful.raised⟩

/-- The flag of a session that is not refused is up whenever its output is closed. -/
theorem lasting_marked (accepts : (handler.greet request).accepts = true) (sink : Sink) :
    Lasting handler request sink Server.Marked where
  asking := nofun
  calls _ _ call marked := Server.marked_perform marked call
  detached refuses := by simp [accepts] at refuses
  answered _ marked := Server.marked_sendHead marked
  opened _ marked := marked
  closedDown server _ := server.marked_detach_advance
  shutDown _ marked := marked

/-- **What the closing flag tells.** Whatever a handler does, and whether it accepts, refuses or
the answer fails: whenever it or a task of it looks at the server, also when the session is over,
the state is past the open one exactly if a close frame was admitted or the output was detached,
and the flag is up only if this is so. If the handler accepts, the flag is up exactly then. The
entries of a journal are made at these moments. -/
theorem serve_closing_flag (handler : Handler) (settings : Settings) (request : Request)
    (inbound : Inbound) (sink : Sink) :
    (∀ entry ∈ (serve handler settings request inbound sink).journal,
      Told handler request sink entry) ∧
    ∀ server, Looks handler request sink server →
      (server.outbound.Closed ↔ server.state.IsPast) ∧
      (server.closing = true → server.outbound.Closed) ∧
      ((handler.greet request).accepts = true →
        (server.closing = true ↔ server.outbound.Closed) ∧
        (server.closing = true ↔ server.state.IsPast)) := by
  refine ⟨told_serve handler settings request inbound sink, fun server looks => ?_⟩
  have truthful := (lasting_truthful handler request sink).looks looks
  have same := truthful.closed.symm.trans truthful.past
  refine ⟨same, fun up => truthful.closed.mp (truthful.raised up), fun accepts => ?_⟩
  have marked := (lasting_marked accepts sink).looks looks
  have flag : server.closing = true ↔ server.outbound.Closed :=
    ⟨fun up => truthful.closed.mp (truthful.raised up),
      fun closed => marked (truthful.closed.mpr closed)⟩
  exact ⟨flag, flag.trans same⟩

/-- A task looks at a session that is over because its answer did not fit the stream. -/
theorem serve_closing_flag_unanswered :
    let request := Request.ofParts "GET" "/chat"
      [("Upgrade", "websocket"), ("Connection", "Upgrade"), ("Sec-WebSocket-Version", "7"),
        ("Sec-WebSocket-Key", "AQIDBAUGBwgJCgsMDQ4PEA==")]
    let handler := Handler.scripted { connect := [.spawn [.isClosing]] }
    let sink : Sink := { room := some 0 }
    (handler.greet request).accepts = true ∧
      ∃ server, Looks handler request sink server ∧ server.state = .disconnected ∧
        server.closing = true := by
  intro request handler sink
  have welcomes : Welcomes handler request sink := ⟨rfl, rfl, rfl⟩
  let ended := (answered handler request sink).closedDown
  let told := (ended.callback handler none [] (.disconnect ended.server.state)).2
  have occurs : Occurs handler request sink told := (Occurs.answered welcomes).closedDown.told
  have waits : told.pending = [.script none [.isClosing]] := rfl
  have looks : Looks handler request sink told.server :=
    ⟨_, _, _, _, .task occurs waits, [], List.nil_prefix, rfl⟩
  have same : told.server = ended.server := server_callback ..
  have late : told.server.state = .disconnected := by
    rw [same]
    exact Server.state_advance_disconnected _
  obtain ⟨-, -, flag⟩ :=
    (serve_closing_flag handler {} request { blocks := [], ending := .eof } sink).2 _ looks
  exact ⟨rfl, _, looks, late, (flag rfl).2.mpr (.inr late)⟩

/-- A task that a refusing handler has started finds the flag down, although the output is detached
and the session disconnected. -/
theorem closing_flag_down_of_refused :
    let request := Request.ofParts "GET" "/chat"
      [("Upgrade", "websocket"), ("Connection", "Upgrade"), ("Sec-WebSocket-Version", "7"),
        ("Sec-WebSocket-Key", "AQIDBAUGBwgJCgsMDQ4PEA==")]
    let handler :=
      Handler.scripted { connect := [.spawn [.isClosing, .state]], refuses := true }
    (serve handler {} request { blocks := [], ending := .eof } {}).journal =
        [.connect .connecting [.nothing], .spawned [.flag false, .text "Disconnected"]] ∧
      ∃ server, Looks handler request {} server ∧ server.outbound.attached = false ∧
        server.state = .disconnected ∧ server.closing = false := by
  intro request handler
  have occurs : Occurs handler request {} (greeted handler request {}).2.turnedAway :=
    .turnedAway rfl rfl
  have waits : (greeted handler request {}).2.turnedAway.pending =
      [.script none [.isClosing, .state]] := rfl
  refine ⟨by decide +kernel, _, ⟨_, _, _, _, .task occurs waits, [], List.nil_prefix, rfl⟩, ?_⟩
  exact ⟨rfl, rfl, rfl⟩

end Session

end WebSocket
