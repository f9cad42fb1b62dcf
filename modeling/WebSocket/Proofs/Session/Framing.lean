import Mathlib.Tactic.SplitIfs
import WebSocket.Proofs.Session.Admission

/-!
# Headers of server frames

The header of a frame that this side sends is the shortest one that says what it says
(`Frame.length_header_le`), and no header is the beginning of another one (`Frame.header_inj`). So
whatever messages are sent one after another, what is written is read back as just those that the
output has admitted (`Outbound.sent_sendAll`).
-/

namespace WebSocket

namespace Frame

variable {length : Nat} {opcode first second : Opcode} {bytes rest tail behind : Bytes}

/-! ## The three forms of a header -/

theorem length_lengthBytes (maskBit : UInt8) (length : Nat) :
    (lengthBytes maskBit length).length =
      if length < 126 then 1 else if length < 65536 then 3 else 9 := by
  unfold lengthBytes
  split_ifs <;> simp [BigEndian.length_encode]

theorem length_header (opcode : Opcode) (length : Nat) :
    (header opcode length).length =
      if length < 126 then 2 else if length < 65536 then 4 else 10 := by
  rw [header, List.length_cons, length_lengthBytes]
  split_ifs <;> rfl

theorem length_header_le_max (opcode : Opcode) (length : Nat) :
    (header opcode length).length ≤ maxHeader := by
  rw [length_header, maxHeader]
  split_ifs <;> decide

theorem splitExact?_eq_some {size : Nat} {taken : Bytes}
    (h : splitExact? size bytes = some (taken, rest)) :
    bytes = taken ++ rest ∧ taken.length = size := by
  simp only [splitExact?, Option.ite_none_right_eq_some, Option.some.injEq, Prod.mk.injEq] at h
  obtain ⟨exact, rfl, rfl⟩ := h
  exact ⟨(List.take_append_drop ..).symm, exact⟩

/-- Whatever bytes say a length, there are at least as many as `lengthBytes` has for it. -/
theorem length_lengthBytes_le (read : readLength? bytes = some (length, rest)) :
    (lengthBytes 0 length).length + rest.length ≤ bytes.length := by
  rw [length_lengthBytes]
  cases bytes with
  | nil => cases read
  | cons byte tail =>
    simp only [readLength?] at read
    split at read
    · next inline =>
      cases read
      have small : byte.toNat < 126 := UInt8.lt_iff_toNat_lt.mp inline
      rw [if_pos small, List.length_cons]
      omega
    · split at read
      · cases read
      · split at read
        · cases read
        · next digits after found =>
          cases read
          obtain ⟨rfl, width⟩ := splitExact?_eq_some found
          have room := BigEndian.decode_lt digits
          rw [width] at room
          rw [List.length_cons, List.length_append, width]
          unfold lengthWidth at room ⊢
          split_ifs at room ⊢ <;> omega

/-- Whatever bytes say what a header says, there are at least as many as the header has. -/
theorem length_header_le {heading : Heading} (read : readHeader? bytes = some (heading, rest)) :
    (header opcode heading.length).length + rest.length ≤ bytes.length := by
  cases bytes with
  | nil => cases read
  | cons first tail =>
    simp only [readHeader?] at read
    split at read
    · cases read
    · next found =>
      cases read
      have least := length_lengthBytes_le found
      simp only [header, List.length_cons]
      omega

/-- What stands behind a header does not change how the header is read. -/
theorem header_inj {m n : Nat} (left : m < 2 ^ 64) (right : n < 2 ^ 64)
    (same : header first m ++ tail = header second n ++ behind) :
    first = second ∧ m = n ∧ tail = behind := by
  have read := readHeader?_header first left tail
  rw [same, readHeader?_header second right] at read
  simp only [Option.some.injEq, Prod.mk.injEq, Heading.mk.injEq, true_and] at read
  obtain ⟨⟨code, rfl⟩, rfl⟩ := read
  refine ⟨?_, rfl, rfl⟩
  cases first <;> cases second <;> first | rfl | cases code

/-! ## The messages behind the frames -/

/-- The message that was sent as this frame. -/
def Unmasked.sent? (frame : Unmasked) : Option (MessageKind × Bytes) :=
  if frame.fin then
    ((Opcode.ofCode frame.opcode).toOption.bind Opcode.kind?).map (·, frame.payload)
  else none

theorem sent?_whole (message : MessageKind × Bytes) : (whole message).sent? = some message := by
  obtain ⟨kind, payload⟩ := message
  cases kind <;> rfl

theorem map_sent?_readAll {messages : List (MessageKind × Bytes)}
    (words : ∀ message ∈ messages, message.2.length < 2 ^ 64) :
    (readAll (encodeAll messages)).1.map Unmasked.sent? = messages.map some ∧
      (readAll (encodeAll messages)).2 = [] := by
  rw [readAll_encodeAll words, List.map_map]
  exact ⟨List.map_congr_left fun message _ => sent?_whole message, rfl⟩

end Frame

namespace Outbound

variable {out : Outbound} {messages : List (MessageKind × Bytes)}

/-- The output behind messages that are sent one after another. -/
def sendAll (out : Outbound) (messages : List (MessageKind × Bytes)) : Outbound :=
  messages.foldl (fun out message => (out.send message.1 message.2).2) out

/-- Messages of which an open output refuses none: control frames are small, and nothing comes
behind a close frame. -/
def AllFit (messages : List (MessageKind × Bytes)) : Prop :=
  LastIfClose messages ∧
    ∀ message ∈ messages, message.1.isControl = true → message.2.length ≤ Error.maxControlPayload

theorem allFit_nil : AllFit [] :=
  ⟨fun front message back split => by simp at split, List.forall_mem_nil _⟩

theorem allFit_cons_iff {message : MessageKind × Bytes} :
    AllFit (message :: messages) ↔
      (message.1 = .close → messages = []) ∧
        (message.1.isControl = true → message.2.length ≤ Error.maxControlPayload) ∧
        AllFit messages := by
  constructor
  · rintro ⟨last, small⟩
    obtain ⟨now, later⟩ := List.forall_mem_cons.mp small
    refine ⟨fun close => last [] message messages rfl close, now, ?_, later⟩
    intro front final back split
    exact last (message :: front) final back (by rw [split]; rfl)
  · rintro ⟨first, now, last, later⟩
    refine ⟨fun front final back split close => ?_, List.forall_mem_cons.mpr ⟨now, later⟩⟩
    cases front with
    | nil =>
      obtain ⟨rfl, rfl⟩ := List.cons.inj split
      exact first close
    | cons other front => exact last front final back (List.cons.inj split).2 close

theorem exists_sent (takes : out.sink.TakesAll) (messages : List (MessageKind × Bytes)) :
    ∃ sent, sent.Sublist messages ∧
      (out.sendAll messages).admitted.toList = out.admitted.toList ++ sent ∧
      (out.sendAll messages).sink.written.toList =
        out.sink.written.toList ++ Frame.encodeAll sent ∧
      (out.attached = true → out.closing = false → AllFit messages → sent = messages) := by
  induction messages generalizing out with
  | nil => exact ⟨[], .slnil, (List.append_nil _).symm, (List.append_nil _).symm, fun _ _ _ => rfl⟩
  | cons message messages ih =>
    obtain ⟨kind, payload⟩ := message
    have sends : out.sendAll ((kind, payload) :: messages) =
        (out.send kind payload).2.sendAll messages := rfl
    cases refused : out.refusal? kind payload with
    | some error =>
      rw [send_of_refused refused] at sends
      rw [sends]
      obtain ⟨sent, among, admitted, written, -⟩ := ih takes
      refine ⟨sent, among.cons _, admitted, written, fun attached further fits => ?_⟩
      have small := (allFit_cons_iff.mp fits).2.1
      rw [refusal?_eq_none_iff.mpr ⟨attached, further, small⟩] at refused
      cases refused
    | none =>
      have pushed : (out.push kind payload).sink =
          { out.sink with written := out.sink.written ++ Frame.encode kind payload } := by
        rw [push, Sink.send_of_takesAll takes]
      have takesOn : (out.push kind payload).sink.TakesAll := pushed ▸ takes
      rw [send_of_admitted refused] at sends
      rw [sends]
      obtain ⟨sent, among, admitted, written, all⟩ := ih takesOn
      refine ⟨(kind, payload) :: sent, among.cons_cons _, ?_, ?_, fun attached further fits => ?_⟩
      · rw [admitted]
        simp [push]
      · rw [written, pushed]
        simp [Frame.encodeAll]
      · obtain ⟨last, -, later⟩ := allFit_cons_iff.mp fits
        by_cases close : kind = .close
        · have nothing : messages = [] := last close
          subst nothing
          rw [List.sublist_nil.mp among]
        · have still : (out.push kind payload).closing = false := by simp [push, further, close]
          rw [all attached still later]

/-- **What this side writes can be read in one way.** A header has the shortest form that says its
opcode and its length, is written at the front of a buffer that stays as it is behind it, and is
read back; nothing else that is read as the same is shorter, and no header is the beginning of
another one. So the frames of any messages, one after another, are read back as these messages,
and an output that takes all writes the frames of the messages that it admits: all of them, if
control frames are small and none comes behind a close frame. -/
theorem sent_sendAll :
    (∀ opcode length buffer, length < 2 ^ 64 → buffer.length = Frame.maxHeader →
      let (size, filled) := Frame.writeHeader opcode length buffer
      size = (if length < 126 then 2 else if length < 65536 then 4 else 10) ∧
        filled.length = Frame.maxHeader ∧ filled.take size = Frame.header opcode length ∧
        filled.drop size = buffer.drop size ∧
        (∀ rest, Frame.readHeader? (filled.take size ++ rest) =
          some (⟨true, opcode.code, length⟩, rest)) ∧
        ∀ bytes rest, Frame.readHeader? bytes = some (⟨true, opcode.code, length⟩, rest) →
          size + rest.length ≤ bytes.length) ∧
      (∀ first second m n, m < 2 ^ 64 → n < 2 ^ 64 →
        Frame.header first m <+: Frame.header second n → first = second ∧ m = n) ∧
      (∀ messages, (∀ message ∈ messages, message.2.length < 2 ^ 64) →
        (Frame.readAll (Frame.encodeAll messages)).1.map Frame.Unmasked.sent? =
            messages.map some ∧
          (Frame.readAll (Frame.encodeAll messages)).2 = []) ∧
      ∀ (out : Outbound) messages, out.sink.TakesAll →
        ∃ sent, sent.Sublist messages ∧
          (out.sendAll messages).admitted.toList = out.admitted.toList ++ sent ∧
          (out.sendAll messages).sink.written.toList =
            out.sink.written.toList ++ Frame.encodeAll sent ∧
          (out.attached = true → out.closing = false → AllFit messages → sent = messages) := by
  refine ⟨fun opcode length buffer word size => ?_, fun first second m n left right begins => ?_,
    fun messages words => Frame.map_sent?_readAll words, fun out messages takes =>
    exists_sent takes messages⟩
  · have fits := Frame.length_header_le_max opcode length
    refine ⟨Frame.length_header opcode length, ?_, List.take_left .., List.drop_left ..,
      fun rest => ?_, fun bytes rest read => Frame.length_header_le read⟩
    · simp only [List.length_append, List.length_drop]
      omega
    · rw [List.take_left]
      exact Frame.readHeader?_header opcode word rest
  · obtain ⟨tail, same⟩ := begins
    have split : Frame.header first m ++ tail = Frame.header second n ++ [] := by
      rw [same, List.append_nil]
    obtain ⟨opcode, length, -⟩ := Frame.header_inj left right split
    exact ⟨opcode, length⟩

/-- The first length of the longest form in a used buffer, and three messages of which the last
comes behind a close frame. -/
theorem sent_sendAll_close :
    let buffer : Bytes := List.replicate 10 0xEE
    let messages : List (MessageKind × Bytes) := [(.text, [129, 0]), (.close, []), (.pong, [1])]
    let fitting : List (MessageKind × Bytes) := [(.text, [129, 0]), (.close, [])]
    let out : Outbound := { sink := {} }
    buffer.length = Frame.maxHeader ∧
      (Frame.writeHeader .binary 65535 buffer).1 = 4 ∧
      Frame.readHeader? ((Frame.writeHeader .binary 65536 buffer).2.take 10) =
        some (⟨true, 2, 65536⟩, []) ∧
      ¬ Frame.header .text 2 <+: Frame.header .text 126 ∧
      (Frame.readAll (Frame.encodeAll messages)).1.map Frame.Unmasked.sent? = messages.map some ∧
      out.sink.TakesAll ∧ AllFit fitting ∧
      (out.sendAll fitting).sink.written.toList = Frame.encodeAll fitting := by
  intro buffer messages fitting out
  obtain ⟨headers, apart, reads, sends⟩ := sent_sendAll
  have full : buffer.length = Frame.maxHeader := rfl
  obtain ⟨short, -⟩ := headers .binary 65535 buffer (by decide) full
  obtain ⟨-, -, -, -, long, -⟩ := headers .binary 65536 buffer (by decide) full
  have words : ∀ message ∈ messages, message.2.length < 2 ^ 64 := by decide
  have takes : out.sink.TakesAll := ⟨rfl, rfl⟩
  have last : AllFit [fitting[1]] := allFit_cons_iff.mpr ⟨by decide, by decide, allFit_nil⟩
  have fits : AllFit fitting := allFit_cons_iff.mpr ⟨by decide, by decide, last⟩
  obtain ⟨sent, -, -, written, all⟩ := sends out fitting takes
  refine ⟨full, short, long [], fun begins => ?_, (reads messages words).1, takes, fits, ?_⟩
  · have same := (apart .text .text 2 126 (by decide) (by decide) begins).2
    cases same
  · rw [written, all rfl rfl fits]
    rfl

end Outbound

end WebSocket
