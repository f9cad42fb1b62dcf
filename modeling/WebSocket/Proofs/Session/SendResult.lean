import WebSocket.Proofs.Session.Admission

/-!
# What a send comes to

A send is refused before any byte is written, and then the output is as it was; or it is admitted,
and the sink takes its frame up to the first byte that does not fit (`Sink.send_snd_eq_take`). The
result tells which: it is a count exactly if the frame was admitted, fitted and was flushed
(`Outbound.send_eq_ok_iff`), and it names the refusal exactly if there was one
(`Outbound.refusal?_eq_connectionClosed_iff`, `Outbound.refusal?_eq_controlFrameTooLarge_iff`).

A frame goes to the stream as a header and a payload. In how many writes does not matter, since a
write that fails has taken what fits (`Sink.sendPieces_eq`).
-/

namespace WebSocket

namespace Sink

variable {sink : Sink} {bytes : Bytes}

/-- The sink when it has taken these bytes. -/
def take (sink : Sink) (bytes : Bytes) : Sink :=
  { sink with
    written := sink.written ++ bytes
    room := sink.room.map (· - bytes.length) }

theorem send_snd_eq_take (sink : Sink) (bytes : Bytes) :
    (sink.send bytes).2 = sink.take (sink.fitting bytes) := by
  rw [send_snd, write_snd, take]
  unfold fitting
  cases room : sink.room with
  | none => rfl
  | some free =>
    have left : free - bytes.length = free - (bytes.take free).length := by
      rw [List.length_take]
      omega
    simp only [Option.map_some, left]

theorem send_fst_of_hasRoom (roomy : sink.HasRoom bytes) : (sink.send bytes).1 = sink.flush := by
  unfold HasRoom at roomy
  unfold send write
  cases room : sink.room with
  | none => rfl
  | some free => simp only [if_pos (roomy free room), flush]

theorem send_fst_of_full (full : ¬ sink.HasRoom bytes) :
    (sink.send bytes).1 = .error sink.fullError := by
  unfold HasRoom at full
  unfold send write
  cases room : sink.room with
  | none => exact absurd (fun free bounded => by cases room.symm.trans bounded) full
  | some free =>
    have long : ¬ bytes.length ≤ free := by
      intro fits
      refine full fun other bounded => ?_
      cases room.symm.trans bounded
      exact fits
    simp only [if_neg long]

theorem flush_eq_ok_iff : sink.flush = .ok () ↔ sink.flushError = none := by
  unfold flush
  split <;> simp_all

theorem send_eq_ok_iff :
    (sink.send bytes).1 = .ok () ↔ sink.HasRoom bytes ∧ sink.flushError = none := by
  by_cases roomy : sink.HasRoom bytes
  · rw [send_fst_of_hasRoom roomy, flush_eq_ok_iff]
    exact (and_iff_right roomy).symm
  · rw [send_fst_of_full roomy]
    exact iff_of_false nofun fun both => roomy both.1

end Sink

namespace Outbound

variable {out : Outbound} {kind : MessageKind} {payload : Bytes}

/-- The output behind an admitted message of which the sink has taken these bytes. -/
def admitting (out : Outbound) (kind : MessageKind) (payload taken : Bytes) : Outbound :=
  { out with
    sink := out.sink.take taken
    closing := kind == .close
    admitted := out.admitted.push (kind, payload) }

theorem push_eq_admitting (further : out.closing = false) :
    out.push kind payload =
      out.admitting kind payload (out.sink.fitting (Frame.encode kind payload)) := by
  simp only [push, admitting, Sink.send_snd_eq_take, further, Bool.false_or]

theorem send_eq_ok_iff {count : Nat} :
    (out.send kind payload).1 = .ok count ↔
      count = payload.length ∧ out.refusal? kind payload = none ∧
        out.sink.HasRoom (Frame.encode kind payload) ∧ out.sink.flushError = none := by
  cases refused : out.refusal? kind payload with
  | some error => simp [send_of_refused refused]
  | none =>
    rw [send_of_admitted refused, ← Sink.send_eq_ok_iff]
    cases (out.sink.send (Frame.encode kind payload)).1 with
    | ok => simp [Except.map, eq_comm]
    | error error => simp [Except.map]

end Outbound

namespace Server

variable {server : Server} {kind : MessageKind} {payload : Bytes}

/-- A message that is refused while the output is open leaves the whole server as it was. -/
theorem trySend_of_refused {error : Error} (further : server.outbound.closing = false)
    (refused : server.outbound.refusal? kind payload = some error) :
    server.trySend kind payload = (.error error, server) := by
  simp only [trySend, Outbound.send_of_refused refused, further, Bool.false_eq_true, if_false]

end Server

end WebSocket
