import WebSocket.Proofs.Session.Output

/-!
# The open session

From the opening of a session to its end the flag says whether the output is closed, and nothing
but a close frame closes it (`Server.Serving`). A call raises the flag if it is one that sends a
close frame (`Call.closes`). What a session comes to is then a matter of one pass over the events
of its whole input (`Session.conversed_eq`): a close frame of this side ends it, or else the
input does (`Session.ends_conversed`).
-/

namespace WebSocket

namespace Server

variable {server : Server} {delivery : Option Delivery} {kind : MessageKind} {payload : Bytes}
  {calls : List Call}

/-- The server of an open session. -/
structure Serving (server : Server) : Prop where
  attached : server.outbound.attached = true
  flag : server.closing = server.outbound.closing
  sent : server.outbound.closing = true →
    ∃ payload, (.close, payload) ∈ server.outbound.admitted.toList
  state : server.state = if server.closing then .closing else .opened

theorem Serving.marked (serving : server.Serving) : server.Marked :=
  fun closed => serving.flag.trans closed

theorem Serving.trySend_of_refused (serving : server.Serving) {error : Error}
    (refused : server.outbound.refusal? kind payload = some error) :
    (server.trySend kind payload).2 = server := by
  simp only [trySend, Outbound.send_of_refused refused]
  split
  · next closed => rw [markClosing, if_pos (serving.marked closed)]
  · rfl

theorem Serving.trySend_of_admitted (serving : server.Serving)
    (admitted : server.outbound.refusal? kind payload = none) :
    (server.trySend kind payload).2 =
      { server with
        outbound := server.outbound.push kind payload, closing := kind == .close
        state := if kind == .close then .closing else .opened } := by
  obtain ⟨-, further, -⟩ := Outbound.refusal?_eq_none_iff.mp admitted
  have down : server.closing = false := serving.flag.trans further
  have now : server.state = .opened := by rw [serving.state, down]; rfl
  simp only [trySend, Outbound.send_of_admitted admitted, Outbound.push, further, Bool.false_or]
  split
  · next close => simp [markClosing, down, close, advance, now, SessionState.advance,
      SessionState.rank]
  · next other => simp [down, other, now]

theorem Serving.perform (serving : server.Serving) (delivery : Option Delivery) (call : Call) :
    (server.perform delivery call).2.Serving := by
  refine perform_induction (fun kind payload _ => ?_)
    (fun _ _ _ => ⟨serving.attached, serving.flag, serving.sent, serving.state⟩)
  cases refused : server.outbound.refusal? kind payload with
  | some error => rwa [serving.trySend_of_refused refused]
  | none =>
    obtain ⟨-, further, -⟩ := Outbound.refusal?_eq_none_iff.mp refused
    rw [serving.trySend_of_admitted refused]
    refine ⟨serving.attached, ?_, ?_, rfl⟩
    · simp only [Outbound.push, further, Bool.false_or]
    · intro closed
      obtain rfl : kind = .close := by simpa [Outbound.push, further] using closed
      exact ⟨payload, by simp [Outbound.push]⟩

/-- While the flag is down the output admits the close frame of a call that closes. -/
theorem Serving.refusal?_of_closes (serving : server.Serving) (down : server.closing = false)
    {call : Call} (message : call.message? delivery = some (kind, payload))
    (closes : call.closes delivery = true) : server.outbound.refusal? kind payload = none := by
  simp only [Call.closes, message, Option.any_some, Bool.and_eq_true, decide_eq_true_eq] at closes
  exact Outbound.refusal?_eq_none_iff.mpr
    ⟨serving.attached, serving.flag ▸ down, fun _ => closes.2⟩

/-- Of the calls of an open session those that send a close frame raise the flag. -/
theorem Serving.closing_perform (serving : server.Serving) (delivery : Option Delivery)
    (call : Call) :
    (server.perform delivery call).2.closing = (server.closing || call.closes delivery) := by
  cases message : call.message? delivery with
  | none =>
    obtain ⟨chosen, extra, same⟩ := perform_of_no_message server message
    simp [same, announce, Call.closes, message]
  | some put =>
    obtain ⟨kind, payload⟩ := put
    rw [perform_of_message message]
    cases refused : server.outbound.refusal? kind payload with
    | some error =>
      -- Either the flag is up already, or the message is none that closes.
      rw [serving.trySend_of_refused refused]
      cases down : server.closing with
      | true => rfl
      | false =>
        cases closes : call.closes delivery with
        | true => simp [serving.refusal?_of_closes down message closes] at refused
        | false => rfl
    | none =>
      obtain ⟨-, further, small⟩ := Outbound.refusal?_eq_none_iff.mp refused
      have down : server.closing = false := serving.flag.trans further
      rw [serving.trySend_of_admitted refused]
      simp only [down, Call.closes, message, Option.any_some, Bool.false_or]
      cases kind with
      | close => simp [small rfl]
      | _ => rfl

theorem performAll_nil (server : Server) (delivery : Option Delivery) :
    server.performAll delivery [] = (#[], server) := rfl

theorem performAll_cons (server : Server) (delivery : Option Delivery) (call : Call)
    (calls : List Call) :
    server.performAll delivery (call :: calls) =
      let first := server.perform delivery call
      let rest := first.2.performAll delivery calls
      (#[first.1] ++ rest.1, rest.2) := by
  have onward (answers : Array Answer) (server : Server) (calls : List Call) :
      calls.foldl
          (fun made call =>
            (made.1.push (made.2.perform delivery call).1, (made.2.perform delivery call).2))
          (answers, server) =
        (answers ++ (server.performAll delivery calls).1,
          (server.performAll delivery calls).2) := by
    induction calls generalizing answers server with
    | nil => simp [performAll]
    | cons call calls ih =>
      simp only [performAll, List.foldl_cons]
      rw [ih, ih (#[].push _)]
      simp
  exact onward #[(server.perform delivery call).1] (server.perform delivery call).2 calls

theorem performAll_append (server : Server) (delivery : Option Delivery)
    (calls others : List Call) :
    (server.performAll delivery (calls ++ others)).2 =
      ((server.performAll delivery calls).2.performAll delivery others).2 := by
  induction calls generalizing server with
  | nil => rfl
  | cons call calls ih => simp only [List.cons_append, performAll_cons, ih]

theorem Serving.performAll (serving : server.Serving) (delivery : Option Delivery)
    (calls : List Call) : (server.performAll delivery calls).2.Serving :=
  performAll_induction (P := Serving) (fun _ call serving => serving.perform delivery call) serving
    calls

theorem Serving.closing_performAll (serving : server.Serving) (delivery : Option Delivery)
    (calls : List Call) :
    (server.performAll delivery calls).2.closing =
      (server.closing || calls.any (·.closes delivery)) := by
  induction calls generalizing server with
  | nil => simp [performAll_nil]
  | cons call calls ih =>
    simp only [performAll_cons, ih (serving.perform delivery call),
      serving.closing_perform delivery call, List.any_cons, Bool.or_assoc]

end Server

namespace Conversation

variable {handler : Handler} {settings : Settings} {ending : Ending} {machine : Reassembler}
  {conversation next : Conversation}

theorem serving_kept (handler : Handler) :
    Kept handler fun conversation => conversation.server.Serving :=
  .ofServer fun _ delivery call serving => serving.perform delivery call

/-- Events end a session by a close frame of this side or by one of the peer. -/
theorem dispatch_eq_some {events : List Event} {outcome : Outcome}
    (marked : conversation.server.Marked) (further : conversation.server.closing = false)
    (h : conversation.dispatch handler settings events = (some outcome, next)) :
    (outcome = .localClosed ∧ next.server.closing = true) ∨
      next.server.closing = false ∧ ∃ payload, .close payload ∈ events ∧
        outcome = .ofClosePayload settings.allowReserved payload := by
  induction events generalizing conversation with
  | nil => cases h
  | cons event events ih =>
    have later {conversation : Conversation} (marked : conversation.server.Marked)
        (further : conversation.server.closing = false)
        (h : conversation.dispatch handler settings events = (some outcome, next)) :
        (outcome = .localClosed ∧ next.server.closing = true) ∨
          next.server.closing = false ∧ ∃ payload, .close payload ∈ event :: events ∧
            outcome = .ofClosePayload settings.allowReserved payload :=
      (ih marked further h).imp_right fun ⟨still, payload, member, same⟩ =>
        ⟨still, payload, List.mem_cons_of_mem event member, same⟩
    cases event with
    | message kind payload =>
      simp only [dispatch] at h
      split at h
      · next closing =>
        cases h
        exact .inl ⟨rfl, closing⟩
      · next still =>
        exact later (marked_deliver marked kind payload) (Bool.eq_false_iff.mpr still) h
    | ping payload =>
      refine later (Server.marked_send _ _ _) ?_ h
      rw [Server.send_snd, Server.closing_trySend marked (by decide), further]
    | close payload =>
      cases h
      exact .inr ⟨further, payload, List.mem_cons_self, rfl⟩

end Conversation

/-! ## What a session comes to -/

deriving instance DecidableEq for Verdict

/-- What can be read of all that the peer sends. -/
def Inbound.heard (inbound : Inbound) (settings : Settings) : Feed :=
  Reassembler.feed settings.limits {} inbound.blocks.flatten

/-- The outcomes to which the input brings a session. -/
inductive Inbound.Ends (inbound : Inbound) (settings : Settings) : Outcome → Prop where
  | breach (error : Error) (h : (inbound.heard settings).violation = some error) :
    Ends inbound settings (.protocolError error)
  | closed (payload : Bytes) (h : .close payload ∈ (inbound.heard settings).events.toList) :
    Ends inbound settings (.ofClosePayload settings.allowReserved payload)
  | eof (h : inbound.ending = .eof) : Ends inbound settings .endOfStream
  | failed (error : Error) (h : inbound.ending = .fails error) : Ends inbound settings (.io error)

namespace Session

open Conversation

variable {handler : Handler} {settings : Settings} {request : Request} {inbound : Inbound}
  {sink : Sink} {outcome : Outcome} {conversation : Conversation}

theorem Opens.server_opened (opens : Opens handler request sink) :
    ∃ chosen extra, (opened handler request sink).server =
      { (Server.ofRequest request sink).announce chosen extra with
        outbound := { sink := (sink.send (head handler request sink).1).2 }
        state := .opened } := by
  obtain ⟨chosen, extra, asked⟩ := server_greeted handler request sink
  refine ⟨chosen, extra, ?_⟩
  have answered := outbound_answered_of_ok opens.head_ok
  simp only [opened, Session.answered, Server.sendHead_of_ok opens.head_ok] at answered ⊢
  rw [Server.advance, answered, asked]
  rfl

theorem Opens.serving_opened (opens : Opens handler request sink) :
    (opened handler request sink).server.Serving := by
  obtain ⟨chosen, extra, same⟩ := opens.server_opened
  rw [same]
  exact ⟨rfl, rfl, nofun, rfl⟩

theorem Opens.closing_opened (opens : Opens handler request sink) :
    (opened handler request sink).server.closing = false := by
  obtain ⟨chosen, extra, same⟩ := opens.server_opened
  rw [same]
  rfl

theorem Opens.serving_conversed (opens : Opens handler request sink) (settings : Settings)
    (inbound : Inbound) :
    (conversed handler settings request inbound sink).2.server.Serving :=
  (serving_kept handler).converse opens.serving_opened _

/-- A session acts on the events of its whole input, and then on how the input ends. -/
theorem Opens.conversed_eq (opens : Opens handler request sink) (settings : Settings)
    (inbound : Inbound) :
    conversed handler settings request inbound sink =
      match (opened handler request sink).dispatch handler settings
          (inbound.heard settings).events.toList with
      | (some outcome, next) => (some outcome, next)
      | (none, next) =>
        match (inbound.heard settings).violation, inbound.ending with
        | some error, _ => (some (.protocolError error), next)
        | none, .eof => (some .endOfStream, next)
        | none, .fails error => (some (.io error), next)
        | none, .silent => next.await handler := by
  have marked := opens.serving_opened.marked
  have further := opens.closing_opened
  rw [conversed, converse_flatten _ Reassembler.isSettled_fresh marked, flatten_reads,
    converse_cons further]
  dsimp only [Inbound.heard]
  cases acted : (opened handler request sink).dispatch handler settings
      (Reassembler.feed settings.limits {} inbound.blocks.flatten).events.toList with
  | mk outcome next =>
    cases outcome with
    | some outcome => rfl
    | none =>
      cases (Reassembler.feed settings.limits {} inbound.blocks.flatten).violation with
      | some error => rfl
      | none =>
        have still := (dispatch_eq_none marked further acted).2
        simp only [converse, still]
        cases inbound.ending <;> rfl

/-- A session is ended by a close frame of this side, or else by its input. -/
theorem Opens.ends_conversed (opens : Opens handler request sink)
    (h : conversed handler settings request inbound sink = (some outcome, conversation)) :
    (outcome = .localClosed ∧ conversation.server.closing = true) ∨
      conversation.server.closing = false ∧ inbound.Ends settings outcome := by
  have marked := opens.serving_opened.marked
  have further := opens.closing_opened
  rw [opens.conversed_eq] at h
  cases acted : (opened handler request sink).dispatch handler settings
      (inbound.heard settings).events.toList with
  | mk first next =>
    rw [acted] at h
    cases first with
    | some first =>
      cases h
      refine (dispatch_eq_some marked further acted).imp_right ?_
      rintro ⟨still, payload, member, rfl⟩
      exact ⟨still, .closed payload member⟩
    | none =>
      have still := (dispatch_eq_none marked further acted).2
      cases broken : (inbound.heard settings).violation with
      | some error =>
        rw [broken] at h
        cases h
        exact .inr ⟨still, .breach error broken⟩
      | none =>
        rw [broken] at h
        cases ended : inbound.ending with
        | eof =>
          rw [ended] at h
          cases h
          exact .inr ⟨still, .eof ended⟩
        | fails error =>
          rw [ended] at h
          cases h
          exact .inr ⟨still, .failed error ended⟩
        | silent =>
          rw [ended] at h
          simp only [await] at h
          split at h
          · next closing =>
            cases h
            exact .inl ⟨rfl, closing⟩
          · cases h

end Session

end WebSocket
