import WebSocket.Proofs.Reassembly.Reports
import WebSocket.Proofs.Reassembly.RoundTrip

/-!
# The fragments of a message

A reader takes a frame from the front of a byte string just if the bytes spell a frame that may
come there (`Grammar.readFrame_eq_whole_iff`). So a message that is reported has come in whole
frames, one behind the other: the first of them tells its kind, the last of them is the final one,
and its payload is theirs, without what control frames between them carry
(`Reassembler.delivers_of_feed`).
-/

namespace WebSocket.Grammar

variable {limits : Limits} {unfinished : Option Unfinished} {bytes rest : Bytes}
  {frame : Frame.Client} {fin assembling : Bool} {opcode : Opcode} {length : Nat} {mask : Mask}
  {payload : Bytes}

/-! ## What a frame was read from -/

theorem readOpening_eq_whole (read : readOpening assembling bytes = .whole (fin, opcode) rest) :
    bytes = ((if fin then 0x80 else 0) ||| UInt8.ofNat opcode.code) :: rest ∧
      misplaced? assembling fin opcode = none := by
  have all : ∀ bits : BitVec 8, bits.toNat / 16 % 8 = 0 →
      (opcode? (bits.toNat % 16)).all fun opcode =>
        UInt8.ofBitVec bits ==
          ((if decide (128 ≤ bits.toNat) then 0x80 else 0) ||| UInt8.ofNat opcode.code) := by
    decide +kernel
  cases bytes with
  | nil => cases read
  | cons byte tail =>
    simp only [readOpening] at read
    split at read
    · cases read
    · next reserved =>
      split at read
      · cases read
      · next named =>
        split at read
        · cases read
        · next placed =>
          cases read
          have spelled := all byte.toBitVec (Decidable.not_not.mp reserved)
          rw [show byte.toBitVec.toNat = byte.toNat from rfl, named] at spelled
          exact ⟨congrArg (· :: rest) (beq_iff_eq.mp spelled), placed⟩

theorem readNumber_eq_whole {low : Nat} (small : low < 128)
    (read : readNumber low bytes = .whole length rest) :
    ∃ digits, bytes = digits ++ rest ∧
      Spells length ((0x80 ||| UInt8.ofNat low) :: digits) := by
  simp only [readNumber] at read
  split at read
  · cases read
  · next enough =>
    obtain ⟨value, behind⟩ := Reading.whole.inj read
    refine ⟨bytes.take (lengthWidth low), ?_, ?_⟩
    · rw [← behind, List.take_append_drop]
    · have width : (bytes.take (lengthWidth low)).length = lengthWidth low := by
        rw [List.length_take]
        omega
      have digits := BigEndian.encode_decode (bytes.take (lengthWidth low))
      have room := BigEndian.decode_lt (bytes.take (lengthWidth low))
      rw [width] at digits room
      by_cases short : low = 126
      · subst short
        rw [← digits, ← value]
        exact .short room
      · by_cases long : low = 127
        · subst long
          rw [← digits, ← value]
          exact .long room
        · have inline : lengthWidth low = 0 := by rw [lengthWidth, if_neg short, if_neg long]
          rw [inline] at value ⊢
          rw [← value, List.take_zero]
          exact .inline (by rw [if_pos rfl]; omega)

theorem readLength_eq_whole (read : readLength bytes = .whole length rest) :
    ∃ field, bytes = field ++ rest ∧ Spells length field := by
  cases bytes with
  | nil => cases read
  | cons byte tail =>
    simp only [readLength] at read
    split at read
    · cases read
    · next masked =>
      have bound := byte.toNat_lt
      have small : byte.toNat - 128 < 128 := by omega
      obtain ⟨digits, rfl, spelled⟩ := readNumber_eq_whole small read
      have same : 0x80 ||| UInt8.ofNat (byte.toNat - 128) = byte := by
        refine UInt8.toNat_inj.mp ?_
        rw [toNat_maskBit_or small]
        omega
      rw [same] at spelled
      exact ⟨byte :: digits, rfl, spelled⟩

theorem readKey_eq_whole (read : readKey bytes = .whole mask rest) :
    bytes = mask.toBytes ++ rest := by
  unfold readKey at read
  split at read
  · cases read
    rfl
  · cases read

theorem readPayload_eq_whole (read : readPayload mask length bytes = .whole payload rest) :
    bytes = mask.apply payload ++ rest ∧ payload.length = length := by
  unfold readPayload at read
  split at read
  · cases read
  · next enough =>
    obtain ⟨same, behind⟩ := Reading.whole.inj read
    have plain : payload = mask.applyAt 0 (bytes.take length) := by
      rw [← same, Mask.applyAt_eq_mapIdx]
      simp only [Nat.zero_add]
    constructor
    · rw [plain, Mask.apply_eq_applyAt, Mask.applyAt_applyAt, ← behind, List.take_append_drop]
    · rw [plain, Mask.length_applyAt, List.length_take]
      omega

theorem le_of_oversize {held : Nat} (small : oversize? limits held opcode length = none) :
    length ≤ limits.maxPayload ∧ length < 2 ^ 63 ∧
      (if opcode.isControl then length ≤ 125 ∧ length ≤ limits.maxMessage
        else held + length ≤ limits.maxMessage) := by
  unfold oversize? at small
  split_ifs at small ⊢ <;> omega

/-- A frame that is neither misplaced nor too large is one that may come. -/
theorem mayCome_of_none (placed : misplaced? unfinished.isSome frame.fin frame.opcode = none)
    (small : oversize? limits (held (begin unfinished frame.opcode)) frame.opcode
      frame.payload.length = none) : Fits limits frame ∧ MayCome limits unfinished frame := by
  obtain ⟨payload, memory, room⟩ := le_of_oversize small
  refine ⟨⟨payload, memory⟩, ?_⟩
  unfold MayCome
  split
  case h_1 named | h_2 named =>
    rw [named] at placed room
    have idle : unfinished.isSome = false := by simpa [misplaced?] using placed
    have within : 0 + frame.payload.length ≤ limits.maxMessage := room
    exact ⟨Option.not_isSome_iff_eq_none.mp (by simp [idle]), by omega⟩
  case h_3 named =>
    rw [named] at placed room
    exact ⟨by simpa [misplaced?] using placed, room⟩
  all_goals
    next named =>
      rw [named] at placed room
      exact ⟨by simpa [misplaced?] using placed, room⟩

/-- **A reader takes just the frames that may come.** -/
theorem readFrame_eq_whole_iff :
    readFrame limits unfinished bytes = .whole frame rest ↔
      ∃ field, bytes = encodeWith frame field ++ rest ∧ Spells frame.payload.length field ∧
        Fits limits frame ∧ MayCome limits unfinished frame := by
  constructor
  · intro read
    obtain ⟨⟨fin, opcode⟩, afterOpening, opening, read⟩ := andThen_eq_whole read
    obtain ⟨length, afterSize, size, read⟩ := andThen_eq_whole read
    obtain ⟨mask, afterKey, key, read⟩ := andThen_eq_whole read
    obtain ⟨payload, afterPayload, collected, read⟩ := andThen_eq_whole read
    cases read
    obtain ⟨number, afterLength, told, admitted⟩ := andThen_eq_whole size
    obtain ⟨rfl, placed⟩ := readOpening_eq_whole opening
    obtain ⟨field, rfl, spelled⟩ := readLength_eq_whole told
    unfold allow at admitted
    split at admitted
    · cases admitted
    · next small =>
      cases admitted
      obtain rfl := readKey_eq_whole key
      obtain ⟨rfl, rfl⟩ := readPayload_eq_whole collected
      refine ⟨field, ?_, spelled, mayCome_of_none placed small⟩
      simp only [encodeWith, List.cons_append, List.append_assoc]
  · rintro ⟨field, rfl, spelled, fits, mayCome⟩
    exact readFrame_encodeWith fits mayCome spelled rest

/-! ## The frames of a message -/

/-- Frames and their bytes, whichever forms their lengths have. -/
inductive Spelled : List Frame.Client → Bytes → Prop where
  | nil : Spelled [] []
  | cons {frame : Frame.Client} {field : Bytes} {frames : List Frame.Client} {bytes : Bytes}
    (spelled : Spells frame.payload.length field) (more : Spelled frames bytes) :
    Spelled (frame :: frames) (encodeWith frame field ++ bytes)

/-- What is left of a message that has begun: the rest of its payload, and the frames that bring
it. Control frames may stand between. -/
inductive Completes : Bytes → List Frame.Client → Prop where
  | final {frame : Frame.Client} (further : frame.opcode = .continuation)
    (fin : frame.fin = true) : Completes frame.payload [frame]
  | fragment {frame : Frame.Client} {payload : Bytes} {frames : List Frame.Client}
    (further : frame.opcode = .continuation) (fin : frame.fin = false)
    (more : Completes payload frames) : Completes (frame.payload ++ payload) (frame :: frames)
  | control {frame : Frame.Client} {payload : Bytes} {frames : List Frame.Client}
    (aside : frame.opcode.isControl = true) (more : Completes payload frames) :
    Completes payload (frame :: frames)

/-- A whole message and its frames, from the first, which tells its kind, to the final one. -/
inductive Makes (kind : MessageKind) : Bytes → List Frame.Client → Prop where
  | single {frame : Frame.Client} (first : frame.opcode = kind.opcode)
    (data : frame.opcode.isControl = false) (fin : frame.fin = true) :
    Makes kind frame.payload [frame]
  | fragments {frame : Frame.Client} {payload : Bytes} {frames : List Frame.Client}
    (first : frame.opcode = kind.opcode) (data : frame.opcode.isControl = false)
    (fin : frame.fin = false) (more : Completes payload frames) :
    Makes kind (frame.payload ++ payload) (frame :: frames)

/-! ## What one frame does -/

theorem absorb_of_control (control : frame.opcode.isControl = true) :
    (absorb unfinished frame).2 = unfinished ∧
      ∀ kind payload, (absorb unfinished frame).1 ≠ some (.message kind payload) := by
  unfold absorb
  split
  case h_1 | h_2 | h_3 => exact ⟨rfl, nofun⟩
  all_goals
    next named =>
      rw [named] at control
      cases control

/-- A data frame that may come begins a message or goes on with the one in progress. -/
theorem begin_of_mayCome (data : frame.opcode.isControl = false)
    (mayCome : MayCome limits unfinished frame) :
    ∃ kind part, begin unfinished frame.opcode = some ⟨kind, part⟩ ∧
      (frame.opcode = .continuation ∧ unfinished = some ⟨kind, part⟩ ∨
        frame.opcode = kind.opcode ∧ unfinished = none ∧ part = []) := by
  unfold MayCome at mayCome
  split at mayCome
  case h_1 named => exact ⟨.text, [], by rw [named]; rfl, .inr ⟨named, mayCome.1, rfl⟩⟩
  case h_2 named => exact ⟨.binary, [], by rw [named]; rfl, .inr ⟨named, mayCome.1, rfl⟩⟩
  case h_3 named =>
    obtain ⟨⟨kind, part⟩, begun⟩ := Option.ne_none_iff_exists'.mp mayCome.1
    exact ⟨kind, part, by rw [named]; exact begun, .inl ⟨named, begun⟩⟩
  all_goals
    next named =>
      rw [named] at data
      cases data

end WebSocket.Grammar

namespace WebSocket.Reassembler

open Grammar

variable {limits : Limits} {machine : Reassembler} {unfinished : Option Unfinished} {bytes : Bytes}
  {kind : MessageKind} {payload : Bytes}

/-- The frames of a message stand in these bytes, at a place where a machine that has read what
stands before them is between two frames and holds nothing. -/
def Delivers (limits : Limits) (unfinished : Option Unfinished) (bytes : Bytes) (kind : MessageKind)
    (payload : Bytes) : Prop :=
  ∃ front wire back frames, bytes = front ++ wire ++ back ∧ Spelled frames wire ∧
    Makes kind payload frames ∧
    ∀ machine : Reassembler, machine.AtFrame unfinished →
      (machine.feed limits front).machine.AtFrame none

/-- The frames that end a message in progress stand at the front of these bytes. -/
def Ends (unfinished : Option Unfinished) (bytes : Bytes) (kind : MessageKind) (payload : Bytes) :
    Prop :=
  ∃ part rest wire back frames, unfinished = some ⟨kind, part⟩ ∧ payload = part ++ rest ∧
    bytes = wire ++ back ∧ Spelled frames wire ∧ Completes rest frames

section Behind

variable {frame : Frame.Client} {field rest : Bytes}
  (spelled : Spells frame.payload.length field) (fits : Fits limits frame)
  (mayCome : MayCome limits unfinished frame)
include spelled

/-- A control frame in front of what ends a message leaves it so. -/
theorem Ends.aside (control : frame.opcode.isControl = true)
    (ends : Ends unfinished rest kind payload) :
    Ends unfinished (encodeWith frame field ++ rest) kind payload := by
  obtain ⟨part, remainder, wire, back, frames, begun, split, rfl, written, completes⟩ := ends
  exact ⟨part, remainder, encodeWith frame field ++ wire, back, frame :: frames, begun, split,
    by simp, .cons spelled written, .control control completes⟩

include fits mayCome

theorem Delivers.behind (further : frame.opcode ≠ .close)
    (later : Delivers limits (absorb unfinished frame).2 rest kind payload) :
    Delivers limits unfinished (encodeWith frame field ++ rest) kind payload := by
  obtain ⟨front, wire, back, frames, rfl, written, makes, reached⟩ := later
  refine ⟨encodeWith frame field ++ front, wire, back, frames, by simp, written, makes, ?_⟩
  intro machine there
  obtain ⟨next, passed, fed⟩ :=
    agrees_readFrame there (readFrame_encodeWith fits mayCome spelled front) #[]
  rw [feed, fed, feedFrom_eq]
  exact reached next (passed.atFrame further)

end Behind

/-- A message that begins with the first of these bytes is delivered. -/
theorem delivers_here {frames : List Frame.Client} {wire back : Bytes}
    (makes : Makes kind payload frames) (written : Spelled frames wire) :
    Delivers limits none (wire ++ back) kind payload := by
  refine ⟨[], wire, back, frames, rfl, written, makes, fun machine there => ?_⟩
  have waits : machine.proceed limits [] = .pause machine := by
    simp only [proceed, there.stage, readStart]
  rw [feed, feedFrom_of_pause waits]
  exact there

section Data

variable {frame : Frame.Client} {field rest part : Bytes} {begun : MessageKind}
  (spelled : Spells frame.payload.length field)
  (belongs : frame.opcode = .continuation ∧ unfinished = some ⟨begun, part⟩ ∨
    frame.opcode = begun.opcode ∧ unfinished = none ∧ part = [])
  (data : frame.opcode.isControl = false)
include spelled belongs data

/-- The final fragment is here. -/
theorem ends_or_delivers_of_final (fin : frame.fin = true) :
    Ends unfinished (encodeWith frame field ++ rest) begun (part ++ frame.payload) ∨
      Delivers limits unfinished (encodeWith frame field ++ rest) begun
        (part ++ frame.payload) := by
  have one : Spelled [frame] (encodeWith frame field) := by
    simpa using Spelled.cons spelled .nil
  rcases belongs with ⟨further, rfl⟩ | ⟨first, rfl, rfl⟩
  · exact .inl ⟨part, frame.payload, encodeWith frame field, rest, [frame], rfl, rfl, rfl, one,
      .final further fin⟩
  · exact .inr (delivers_here (.single first data fin) one)

/-- The final fragment comes later. -/
theorem ends_or_delivers_of_fragment (fin : frame.fin = false)
    (later : Ends (some ⟨begun, part ++ frame.payload⟩) rest kind payload) :
    Ends unfinished (encodeWith frame field ++ rest) kind payload ∨
      Delivers limits unfinished (encodeWith frame field ++ rest) kind payload := by
  obtain ⟨gathered, remainder, wire, back, frames, same, rfl, rfl, written, completes⟩ := later
  cases same
  rw [← List.append_assoc]
  rcases belongs with ⟨further, rfl⟩ | ⟨first, rfl, rfl⟩
  · exact .inl ⟨part, frame.payload ++ remainder, encodeWith frame field ++ wire, back,
      frame :: frames, rfl, List.append_assoc .., rfl, .cons spelled written,
      .fragment further fin completes⟩
  · exact .inr (delivers_here (.fragments first data fin completes) (.cons spelled written))

end Data

theorem exists_frames_of_decode
    (reported : .message kind payload ∈ (decode limits unfinished bytes).events) :
    Ends unfinished bytes kind payload ∨ Delivers limits unfinished bytes kind payload := by
  fun_induction decode limits unfinished bytes with
  | case1 | case2 => cases reported
  | case3 unfinished bytes frame rest reads event after absorbed close =>
    have control : frame.opcode.isControl = true := by rw [close]; rfl
    have same : (absorb unfinished frame).1 = some (.message kind payload) := by
      simpa [absorbed] using reported
    exact absurd same ((absorb_of_control control).2 kind payload)
  | case4 unfinished bytes frame rest reads event after absorbed further ih =>
    obtain ⟨field, rfl, spelled, fits, mayCome⟩ := readFrame_eq_whole_iff.mp reads
    have left : (absorb unfinished frame).2 = after := by rw [absorbed]
    have told : (absorb unfinished frame).1 = event := by rw [absorbed]
    have behind (later : Delivers limits after rest kind payload) :=
      Delivers.behind spelled fits mayCome further (left ▸ later)
    have now_or_later : event = some (.message kind payload) ∨
        .message kind payload ∈ (decode limits after rest).events := by
      simpa [Decoding.behind] using reported
    by_cases control : frame.opcode.isControl = true
    · obtain ⟨same, silent⟩ := absorb_of_control control
      rcases now_or_later with now | later
      · exact absurd (told.trans now) (silent kind payload)
      · rcases ih later with ends | delivers
        · rw [← left, same] at ends
          exact .inl (ends.aside spelled control)
        · exact .inr (behind delivers)
    · have data : frame.opcode.isControl = false := Bool.eq_false_iff.mpr control
      obtain ⟨begun, part, begins, belongs⟩ := begin_of_mayCome data mayCome
      rw [absorb_of_data data, begins, Option.elim_some] at left told
      cases fin : frame.fin with
      | true =>
        rw [if_pos fin] at left told
        rcases now_or_later with now | later
        · cases told.trans now
          exact ends_or_delivers_of_final spelled belongs data fin
        · rcases ih later with ⟨_, _, _, _, _, same, -⟩ | delivers
          · cases left.trans same
          · exact .inr (behind delivers)
      | false =>
        rw [fin, if_neg Bool.false_ne_true] at left told
        rcases now_or_later with now | later
        · cases told.trans now
        · rcases ih later with ends | delivers
          · rw [← left] at ends
            exact ends_or_delivers_of_fragment spelled belongs data fin ends
          · exact .inr (behind delivers)

/-- **A message that is reported has come in whole frames.** -/
theorem delivers_of_feed (reported : .message kind payload ∈ (feed limits {} bytes).events) :
    Delivers limits none bytes kind payload := by
  have decoded := (feed_eq_decode limits bytes).1
  rw [← Array.mem_toList_iff, decoded] at reported
  rcases exists_frames_of_decode reported with ⟨_, _, _, _, _, nothing, -⟩ | delivers
  · cases nothing
  · exact delivers

end WebSocket.Reassembler
