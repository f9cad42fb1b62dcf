import WebSocket.Proofs.ServerFrames
import WebSocket.Proofs.Session.ClosingFlag

/-!
# What the output admits

A message that the output refuses leaves it as it is; one that it admits becomes a frame, and a
close frame is the last one (`Outbound.Orderly`). A sink gets the frames in order up to the first
byte that it does not take, and nothing from there on (`Sink.Holds`).

A call puts at most one message to the output (`Call.message?`); apart from that it changes
nothing but what the answer to the request will announce. So all that a handler's calls do to a
session comes down to `Server.trySend` (`Server.perform_induction`).
-/

namespace WebSocket

namespace Sink

variable {start sink : Sink} {bytes : Bytes}

/-- As many bytes as there is room for. -/
def fitting (sink : Sink) (bytes : Bytes) : Bytes :=
  match sink.room with
  | none => bytes
  | some free => bytes.take free

/-- All of these bytes fit. -/
def HasRoom (sink : Sink) (bytes : Bytes) : Prop :=
  ∀ free, sink.room = some free → bytes.length ≤ free

/-- What the sink got since it was `start` are these bytes, as many as fitted. -/
structure Holds (start : Sink) (bytes : Bytes) (sink : Sink) : Prop where
  written : sink.written.toList = start.written.toList ++ start.fitting bytes
  room : sink.room = start.room.map (· - bytes.length)

/-- No write and no flush fails. -/
def TakesAll (sink : Sink) : Prop := sink.room = none ∧ sink.flushError = none

theorem fitting_isPrefix (sink : Sink) (bytes : Bytes) : sink.fitting bytes <+: bytes := by
  unfold fitting
  split
  · exact List.prefix_rfl
  · exact List.take_prefix _ _

theorem fitting_of_hasRoom (roomy : sink.HasRoom bytes) : sink.fitting bytes = bytes := by
  unfold fitting
  split
  · rfl
  · next free bounded => exact List.take_of_length_le (roomy free bounded)

theorem hasRoom_of_send (sent : (sink.send bytes).1 = .ok ()) : sink.HasRoom bytes := by
  intro free bounded
  refine Nat.not_lt.mp fun short => ?_
  simp [send, write, bounded, Nat.not_le.mpr short] at sent

theorem write_snd (sink : Sink) (bytes : Bytes) :
    (sink.write bytes).2 =
      { sink with
        written := sink.written ++ sink.fitting bytes
        room := sink.room.map (· - bytes.length) } := by
  unfold write fitting
  split
  · next roomy => simp only [roomy, Option.map_none]
  · next free bounded => simp only [bounded, Option.map_some]

theorem send_snd (sink : Sink) (bytes : Bytes) : (sink.send bytes).2 = (sink.write bytes).2 := by
  unfold send
  split
  · next after written => rw [written]
  · rfl

theorem holds_start (sink : Sink) : sink.Holds [] sink where
  written := by
    have nothing := List.prefix_nil.mp (fitting_isPrefix sink [])
    rw [nothing, List.append_nil]
  room := by cases sink.room <;> rfl

/-- What fits of more bytes is what fits of them behind those that came before. -/
theorem Holds.fitting_append (holds : start.Holds bytes sink) (more : Bytes) :
    start.fitting (bytes ++ more) = start.fitting bytes ++ sink.fitting more := by
  unfold fitting
  rw [holds.room]
  cases start.room with
  | none => rfl
  | some free => exact List.take_append

theorem Holds.send (holds : start.Holds bytes sink) (more : Bytes) :
    start.Holds (bytes ++ more) (sink.send more).2 where
  written := by
    simp only [send_snd, write_snd, Array.toList_appendList, holds.written, holds.fitting_append,
      List.append_assoc]
  room := by
    simp only [send_snd, write_snd, holds.room, Option.map_map, List.length_append]
    cases start.room with
    | none => rfl
    | some free => exact congrArg some (Nat.sub_sub ..)

theorem shutDown_snd (sink : Sink) : sink.shutDown.2 = { sink with isShutDown := true } := by
  unfold shutDown
  dsimp only
  split <;> rfl

theorem Holds.shutDown (holds : start.Holds bytes sink) : start.Holds bytes sink.shutDown.2 := by
  rw [shutDown_snd]
  exact ⟨holds.written, holds.room⟩

theorem send_of_takesAll (takes : sink.TakesAll) (bytes : Bytes) :
    sink.send bytes = (.ok (), { sink with written := sink.written ++ bytes }) := by
  simp only [send, write, takes.1, flush, takes.2]

end Sink

/-- Nothing comes behind a close frame. -/
def LastIfClose (messages : List (MessageKind × Bytes)) : Prop :=
  ∀ front message back, messages = front ++ message :: back → message.1 = .close → back = []

namespace Outbound

variable {out : Outbound} {kind : MessageKind} {payload : Bytes}

theorem refusal?_eq_none_iff :
    out.refusal? kind payload = none ↔
      out.attached = true ∧ out.closing = false ∧
        (kind.isControl = true → payload.length ≤ Error.maxControlPayload) := by
  unfold refusal?
  cases out.closing <;> cases out.attached <;> simp

/-- Whoever sends once the output is closed is told so, whatever the message. -/
theorem refusal?_of_closing (closed : out.closing = true) :
    out.refusal? kind payload = some .connectionClosed := by
  simp [refusal?, closed]

theorem send_of_refused {error : Error} (refused : out.refusal? kind payload = some error) :
    out.send kind payload = (.error error, out) := by
  simp only [send, refused]

theorem send_of_closing (closed : out.closing = true) :
    out.send kind payload = (.error .connectionClosed, out) :=
  send_of_refused (refusal?_of_closing closed)

/-- The output behind a message that it admits. -/
def push (out : Outbound) (kind : MessageKind) (payload : Bytes) : Outbound :=
  { out with
    sink := (out.sink.send (Frame.encode kind payload)).2
    closing := out.closing || kind == .close
    admitted := out.admitted.push (kind, payload) }

theorem send_of_admitted (admitted : out.refusal? kind payload = none) :
    out.send kind payload =
      ((out.sink.send (Frame.encode kind payload)).1.map fun _ => payload.length,
        out.push kind payload) := by
  simp only [send, admitted, push]

/-- The admitted messages are what a peer may be sent: control frames are small, and a close
frame is the last one and closes the output. -/
structure Orderly (out : Outbound) : Prop where
  small : ∀ message ∈ out.admitted.toList,
    message.1.isControl = true → message.2.length ≤ Error.maxControlPayload
  last : LastIfClose out.admitted.toList
  further : out.closing = false → ∀ message ∈ out.admitted.toList, message.1 ≠ .close

theorem orderly_of_nothing (nothing : out.admitted = #[]) : out.Orderly where
  small _ member := by simp [nothing] at member
  last front message back split := by simp [nothing] at split
  further _ _ member := by simp [nothing] at member

theorem Orderly.push (orderly : out.Orderly) (admitted : out.refusal? kind payload = none) :
    (out.push kind payload).Orderly := by
  obtain ⟨-, further, small⟩ := refusal?_eq_none_iff.mp admitted
  have pushed : (out.push kind payload).admitted.toList =
      out.admitted.toList ++ [(kind, payload)] := Array.toList_push
  refine ⟨?_, ?_, ?_⟩
  · intro message member control
    rw [pushed, List.mem_append, List.mem_singleton] at member
    rcases member with before | rfl
    · exact orderly.small message before control
    · exact small control
  · intro front message back split close
    rw [pushed] at split
    rcases List.eq_nil_or_concat back with rfl | ⟨middle, final, rfl⟩
    · rfl
    · -- A close frame before the new message would have closed the output.
      rw [List.concat_eq_append, ← List.cons_append, ← List.append_assoc] at split
      obtain ⟨before, -⟩ := List.append_inj' split rfl
      exact absurd close (orderly.further further message (by simp [before]))
  · intro still message member
    simp only [Outbound.push, further, Bool.false_or, beq_eq_false_iff_ne] at still
    rw [pushed, List.mem_append, List.mem_singleton] at member
    rcases member with before | rfl
    · exact orderly.further further message before
    · exact still

theorem Orderly.send (orderly : out.Orderly) (kind : MessageKind) (payload : Bytes) :
    (out.send kind payload).2.Orderly := by
  cases refused : out.refusal? kind payload with
  | some error => rwa [send_of_refused refused]
  | none =>
    rw [send_of_admitted refused]
    exact orderly.push refused

/-- What the sink got since it was `start` are `head` and the frames of what was admitted. -/
def Carries (start : Sink) (head : Bytes) (out : Outbound) : Prop :=
  start.Holds (head ++ Frame.encodeAll out.admitted.toList) out.sink

theorem Carries.send {start : Sink} {head : Bytes} (carries : out.Carries start head)
    (kind : MessageKind) (payload : Bytes) : (out.send kind payload).2.Carries start head := by
  cases refused : out.refusal? kind payload with
  | some error => rwa [send_of_refused refused]
  | none =>
    rw [send_of_admitted refused]
    have sent := Sink.Holds.send carries (Frame.encode kind payload)
    have joined : head ++ Frame.encodeAll (out.push kind payload).admitted.toList =
        head ++ Frame.encodeAll out.admitted.toList ++ Frame.encode kind payload := by
      simp [Frame.encodeAll, push]
    rwa [Carries, joined]

end Outbound

/-! ## Calls -/

/-- The message that a call puts to the output. -/
def Call.message? (delivery : Option Delivery) : Call → Option (MessageKind × Bytes)
  | .send kind payload | .trySend kind payload => some (kind, payload)
  | .echo => delivery
  | .close => some (.close, [])
  | .closeWith frame => frame.encode.toOption.map fun payload => (.close, payload)
  | _ => none

/-- Whether the call sends a close frame while the output is open. -/
def Call.closes (delivery : Option Delivery) (call : Call) : Bool :=
  (call.message? delivery).any fun message =>
    message.1 == .close && message.2.length ≤ Error.maxControlPayload

namespace Server

variable {server : Server} {delivery : Option Delivery} {call : Call} {kind : MessageKind}
  {payload : Bytes}

/-- The server when it has announced something else. -/
def announce (server : Server) (chosen : Option String) (extra : List (String × String)) :
    Server :=
  { server with chosen, extra }

theorem perform_of_message (h : call.message? delivery = some (kind, payload)) :
    (server.perform delivery call).2 = (server.trySend kind payload).2 := by
  cases call with
  | send | close | echo =>
    cases h
    exact send_snd ..
  | trySend => cases h; rfl
  | closeWith frame =>
    obtain ⟨encoded, some, same⟩ := Option.map_eq_some_iff.mp h
    cases same
    cases result : frame.encode with
    | error error =>
      rw [result] at some
      cases some
    | ok bytes =>
      rw [result] at some
      cases some
      simp only [perform, closeWith, result]
  | _ => cases h

theorem perform_of_no_message (server : Server) (h : call.message? delivery = none) :
    ∃ chosen extra, (server.perform delivery call).2 = server.announce chosen extra := by
  have same : ∃ chosen extra, server = server.announce chosen extra := ⟨_, _, rfl⟩
  cases call with
  | send | trySend | close => cases h
  | echo =>
    cases h
    exact same
  | closeWith frame =>
    cases result : frame.encode with
    | ok bytes => simp [Call.message?, result, Except.toOption] at h
    | error error =>
      simp only [perform, closeWith, result]
      exact same
  | setHeader name value =>
    simp only [perform, setHeader]
    split
    · exact same
    · split
      · exact same
      · exact ⟨_, _, rfl⟩
  | setProtocol name =>
    simp only [perform, setProtocol]
    split
    · exact same
    · exact ⟨_, _, rfl⟩
  | _ => exact same

/-- A call sends one message, or it changes no more than what will be announced. -/
theorem perform_induction {P : Server → Prop}
    (sends : ∀ kind payload, call.message? delivery = some (kind, payload) →
      P (server.trySend kind payload).2)
    (announces : ∀ chosen extra, call.message? delivery = none →
      P (server.announce chosen extra)) :
    P (server.perform delivery call).2 := by
  cases h : call.message? delivery with
  | some message =>
    rw [perform_of_message h]
    exact sends message.1 message.2 h
  | none =>
    obtain ⟨chosen, extra, same⟩ := perform_of_no_message server h
    rw [same]
    exact announces chosen extra h

theorem needsOutput_eq (delivery : Option Delivery) (call : Call) :
    call.needsOutput delivery = (call.message? delivery).isSome := by
  cases call with
  | closeWith frame =>
    cases result : frame.encode <;>
      simp [Call.needsOutput, Call.message?, result, Except.isOk, Except.toBool, Except.toOption]
  | _ => rfl

/-- What every one of these calls keeps, making all of them keeps. -/
theorem performAll_induction_mem {P : Server → Prop} {calls : List Call}
    (step : ∀ server, ∀ call ∈ calls, P server → P (server.perform delivery call).2)
    (start : P server) : P (server.performAll delivery calls).2 := by
  unfold performAll
  generalize (#[] : Array Answer) = answers
  induction calls generalizing server answers with
  | nil => exact start
  | cons call calls ih =>
    exact ih (fun server call member => step server call (List.mem_cons_of_mem _ member))
      (step server call List.mem_cons_self start) _

theorem outbound_markClosing (server : Server) :
    server.markClosing.outbound = server.outbound := by
  unfold markClosing
  split <;> rfl

theorem outbound_trySend (server : Server) (kind : MessageKind) (payload : Bytes) :
    (server.trySend kind payload).2.outbound = (server.outbound.send kind payload).2 := by
  simp only [trySend]
  split
  · exact outbound_markClosing _
  · rfl

theorem request_trySend (server : Server) (kind : MessageKind) (payload : Bytes) :
    (server.trySend kind payload).2.request = server.request := by
  simp only [trySend, markClosing]
  split
  · split <;> rfl
  · rfl

theorem request_perform (server : Server) (delivery : Option Delivery) (call : Call) :
    (server.perform delivery call).2.request = server.request :=
  perform_induction (P := fun after => after.request = server.request)
    (fun kind payload _ => request_trySend server kind payload) (fun _ _ _ => rfl)

theorem request_performAll (server : Server) (delivery : Option Delivery) (calls : List Call) :
    (server.performAll delivery calls).2.request = server.request :=
  performAll_induction (P := fun after => after.request = server.request)
    (fun next call same => (request_perform next delivery call).trans same) rfl calls

/-- What every message put to the output keeps, every call keeps. -/
theorem outbound_perform_induction {P : Outbound → Prop}
    (sends : ∀ out kind payload, P out → P (out.send kind payload).2)
    (call : Call) (h : P server.outbound) : P (server.perform delivery call).2.outbound := by
  refine perform_induction (P := fun server => P server.outbound) (fun kind payload _ => ?_)
    (fun _ _ _ => h)
  rw [outbound_trySend]
  exact sends _ kind payload h

theorem trySend_of_closing {kind : MessageKind} {payload : Bytes}
    (closed : server.outbound.closing = true) :
    server.trySend kind payload = (.error .connectionClosed, server.markClosing) := by
  simp only [trySend, Outbound.send_of_closing closed, closed, if_true]

/-- Nothing that a call does reopens or changes an output that is closed. -/
theorem outbound_perform_of_closing (closed : server.outbound.closing = true)
    (delivery : Option Delivery) (call : Call) :
    (server.perform delivery call).2.outbound = server.outbound := by
  refine perform_induction (P := fun after => after.outbound = server.outbound)
    (fun kind payload _ => ?_) (fun _ _ _ => rfl)
  rw [trySend_of_closing closed, outbound_markClosing]

end Server

end WebSocket
