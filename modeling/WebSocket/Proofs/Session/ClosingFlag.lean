import WebSocket.Session.Serve

/-!
# The closing flag

A server whose output is closed has its flag up (`Server.Marked`). Every send sees to it, and no
other call touches the output, so that all that a handler does keeps a server marked. While the
flag of a marked server is down, only a close frame raises it: answering a ping does not.
-/

namespace WebSocket

namespace Server

variable {server : Server} {delivery : Option Delivery} {kind : MessageKind}

/-- The flag is up if the output is closed. -/
def Marked (server : Server) : Prop := server.outbound.closing = true → server.closing = true

theorem closing_markClosing (server : Server) : server.markClosing.closing = true := by
  unfold markClosing
  split
  · assumption
  · rfl

theorem marked_trySend (server : Server) (kind : MessageKind) (payload : Bytes) :
    (server.trySend kind payload).2.Marked := by
  intro closed
  simp only [trySend] at closed ⊢
  split
  · exact closing_markClosing _
  · next further =>
    rw [if_neg further] at closed
    exact absurd closed further

theorem send_snd (server : Server) (kind : MessageKind) (payload : Bytes) :
    (server.send kind payload).2 = (server.trySend kind payload).2 := by
  unfold send
  split
  · next count next sent => rw [sent]
  · next error next sent => rw [sent]

theorem marked_send (server : Server) (kind : MessageKind) (payload : Bytes) :
    (server.send kind payload).2.Marked :=
  send_snd server kind payload ▸ marked_trySend server kind payload

theorem marked_closeWith (marked : server.Marked) (frame : CloseFrame) :
    (server.closeWith frame).2.Marked := by
  unfold closeWith
  split
  · exact marked
  · exact marked_trySend server _ _

theorem marked_setHeader (marked : server.Marked) (name value : String) :
    (server.setHeader name value).2.Marked := by
  unfold setHeader
  split
  · exact marked
  · split <;> exact marked

theorem marked_setProtocol (marked : server.Marked) (name : String) :
    (server.setProtocol name).2.Marked := by
  unfold setProtocol
  split <;> exact marked

theorem marked_sendHead (marked : server.Marked) : server.sendHead.2.Marked := by
  unfold sendHead
  split <;> exact marked

theorem marked_perform (marked : server.Marked) (call : Call) :
    (server.perform delivery call).2.Marked := by
  cases call with
  | send kind payload => exact marked_send server kind payload
  | trySend kind payload => exact marked_trySend server kind payload
  | echo =>
    cases delivery with
    | none => exact marked
    | some message => exact marked_send server message.1 message.2
  | close => exact marked_send server .close []
  | closeWith frame => exact marked_closeWith marked frame
  | setHeader name value => exact marked_setHeader marked name value
  | setProtocol name => exact marked_setProtocol marked name
  | _ => exact marked

/-- What every call keeps, a list of calls keeps. -/
theorem performAll_induction {P : Server → Prop}
    (step : ∀ server call, P server → P (server.perform delivery call).2) (start : P server)
    (calls : List Call) : P (server.performAll delivery calls).2 := by
  unfold performAll
  generalize (#[] : Array Answer) = answers
  induction calls generalizing server answers with
  | nil => exact start
  | cons call calls ih => exact ih (step server call start) _

theorem closing_outbound_send (out : Outbound) (kind : MessageKind) (payload : Bytes)
    (further : kind ≠ .close) : (out.send kind payload).2.closing = out.closing := by
  unfold Outbound.send
  split
  · rfl
  · simp [further]

theorem closing_trySend (marked : server.Marked) (further : kind ≠ .close) (payload : Bytes) :
    (server.trySend kind payload).2.closing = server.closing := by
  simp only [trySend, closing_outbound_send _ _ _ further]
  split
  · next closed => rw [closing_markClosing, marked closed]
  · rfl

end Server

namespace Conversation

variable {handler : Handler} {conversation : Conversation}

/-- A callback changes the server, the tasks that wait and the journal. -/
theorem callback_snd (handler : Handler) (conversation : Conversation)
    (delivery : Option Delivery) (calls : List Call) (entry : List Answer → Entry) :
    (conversation.callback handler delivery calls entry).2 =
      { conversation with
        server :=
          (conversation.server.performAll delivery (conversation.reach delivery calls)).2
        pending :=
          conversation.pending ++ Call.spawned delivery (conversation.reach delivery calls)
        journal := (conversation.callback handler delivery calls entry).2.journal } := by
  unfold callback perform note
  split
  · next after performed =>
    obtain ⟨-, rfl⟩ := Prod.mk.inj performed
    split <;> rfl
  · next after performed =>
    obtain ⟨-, rfl⟩ := Prod.mk.inj performed
    rfl

theorem server_callback (handler : Handler) (conversation : Conversation)
    (delivery : Option Delivery) (calls : List Call) (entry : List Answer → Entry) :
    (conversation.callback handler delivery calls entry).2.server =
      (conversation.server.performAll delivery (conversation.reach delivery calls)).2 := by
  rw [callback_snd]

/-- A callback that gets through its calls comes to its end. -/
theorem returned_callback_of_reach {delivery : Option Delivery} {calls : List Call}
    {entry : List Answer → Entry} (all : conversation.reach delivery calls = calls) :
    (conversation.callback handler delivery calls entry).1 = true := by
  simp only [callback, perform, all, if_true]

theorem marked_callback (marked : conversation.server.Marked) (delivery : Option Delivery)
    (calls : List Call) (entry : List Answer → Entry) :
    (conversation.callback handler delivery calls entry).2.server.Marked := by
  rw [server_callback]
  exact Server.performAll_induction (P := Server.Marked)
    (fun _ call marked => Server.marked_perform marked call) marked _

theorem marked_deliver (marked : conversation.server.Marked) (kind : MessageKind)
    (payload : Bytes) : (conversation.deliver handler kind payload).server.Marked := by
  have counted : ({ conversation with delivered := conversation.delivered + 1 } :
      Conversation).server.Marked := marked
  exact marked_callback counted _ _ _

end Conversation

end WebSocket
