import WebSocket.Proofs.BigEndian
import WebSocket.Proofs.Reassembly.Conformance

/-!
# Reading what a client writes

A frame that may come where it comes, and that the limits allow, is read back from its bytes and
leaves what stands behind it (`readFrame_encode`). By induction over its frames, a whole legal
conversation is reported as it was meant, and the machine ends where the conversation ends
(`feed_flatMap_encode`).
-/

namespace WebSocket.Grammar

variable {limits : Limits} {unfinished : Option Unfinished} {frame : Frame.Client}
  {frames : List Frame.Client}

/-! ## Legal conversations -/

/-- A payload that is within the bound for one frame and, as every byte string in memory, has a
length below `2 ^ 63`. -/
def Fits (limits : Limits) (frame : Frame.Client) : Prop :=
  frame.payload.length ≤ limits.maxPayload ∧ frame.payload.length < 2 ^ 63

/-- A frame that may come while `unfinished` is in progress. -/
def MayCome (limits : Limits) (unfinished : Option Unfinished) (frame : Frame.Client) : Prop :=
  match frame.opcode with
  | .text | .binary => unfinished = none ∧ frame.payload.length ≤ limits.maxMessage
  | .continuation =>
    unfinished ≠ none ∧ held unfinished + frame.payload.length ≤ limits.maxMessage
  | .close | .ping | .pong =>
    frame.fin = true ∧ frame.payload.length ≤ 125 ∧ frame.payload.length ≤ limits.maxMessage

/-- Frames that a client may send one after another while `unfinished` is in progress. Nothing
comes behind a close frame. -/
def Legal (limits : Limits) : Option Unfinished → List Frame.Client → Prop
  | _, [] => True
  | unfinished, frame :: frames =>
    Fits limits frame ∧ MayCome limits unfinished frame ∧
      if frame.opcode = .close then frames = []
      else Legal limits (absorb unfinished frame).2 frames

instance : Decidable (Fits limits frame) := inferInstanceAs (Decidable (_ ∧ _))

instance : Decidable (MayCome limits unfinished frame) :=
  match frame with
  | ⟨_, .text, _, _⟩ | ⟨_, .binary, _, _⟩ | ⟨_, .continuation, _, _⟩ =>
    inferInstanceAs (Decidable (_ ∧ _))
  | ⟨_, .close, _, _⟩ | ⟨_, .ping, _, _⟩ | ⟨_, .pong, _, _⟩ =>
    inferInstanceAs (Decidable (_ ∧ _ ∧ _))

instance decidableLegal :
    (unfinished : Option Unfinished) → (frames : List Frame.Client) →
      Decidable (Legal limits unfinished frames)
  | _, [] => .isTrue trivial
  | unfinished, frame :: frames =>
    have := decidableLegal (absorb unfinished frame).2 frames
    inferInstanceAs (Decidable (_ ∧ _ ∧ ite _ _ _))

/-- What frames report, in the order of the wire: each message at its last fragment and each ping
and close frame where it comes. -/
def reports : Option Unfinished → List Frame.Client → List Event
  | _, [] => []
  | unfinished, frame :: frames =>
    let (event, unfinished) := absorb unfinished frame
    event.toList ++ reports unfinished frames

/-- The message that is unfinished behind frames. -/
def leaves (unfinished : Option Unfinished) (frames : List Frame.Client) : Option Unfinished :=
  frames.foldl (fun unfinished frame => (absorb unfinished frame).2) unfinished

def closes (frames : List Frame.Client) : Bool := frames.any (·.opcode = .close)

/-! ## One frame -/

theorem misplaced_of_mayCome (h : MayCome limits unfinished frame) :
    misplaced? unfinished.isSome frame.fin frame.opcode = none := by
  unfold MayCome at h
  split at h
  case h_1 opcode | h_2 opcode =>
    simp only [opcode, misplaced?, h.1, Option.isSome_none, Bool.false_eq_true, if_false]
  case h_3 opcode =>
    simp only [opcode, misplaced?, Option.isSome_iff_ne_none.mpr h.1, if_true]
  all_goals
    next opcode => simp only [opcode, misplaced?, h.1, if_true]

theorem oversize_of_mayCome (fits : Fits limits frame) (h : MayCome limits unfinished frame) :
    oversize? limits (held (begin unfinished frame.opcode)) frame.opcode frame.payload.length =
      none := by
  obtain ⟨payload, memory⟩ := fits
  have positive : ¬ frame.payload.length > 2 ^ 63 - 1 := by omega
  rw [oversize?, if_neg positive, if_neg (Nat.not_lt.mpr payload)]
  unfold MayCome at h
  split at h
  case h_1 opcode | h_2 opcode =>
    have total : held (begin unfinished frame.opcode) + frame.payload.length ≤
        limits.maxMessage := by
      rw [opcode]
      exact (Nat.zero_add _).symm ▸ h.2
    rw [if_neg (by rw [opcode]; decide), if_neg (Nat.not_lt.mpr total)]
  case h_3 opcode =>
    have total : held (begin unfinished frame.opcode) + frame.payload.length ≤
        limits.maxMessage := by
      rw [opcode]
      exact h.2
    rw [if_neg (by rw [opcode]; decide), if_neg (Nat.not_lt.mpr total)]
  all_goals
    next opcode =>
      obtain ⟨-, short, total⟩ := h
      rw [if_pos (by rw [opcode]; decide), if_neg (Nat.not_lt.mpr short),
        if_neg (Nat.not_lt.mpr total)]

theorem readOpening_encode {assembling fin : Bool} {opcode : Opcode} (rest : Bytes)
    (placed : misplaced? assembling fin opcode = none) :
    readOpening assembling
      (((if fin then 0x80 else 0) ||| UInt8.ofNat opcode.code) :: rest) =
        .whole (fin, opcode) rest := by
  have bits : ∀ (fin : Bool) (opcode : Opcode),
      let byte : UInt8 := (if fin then 0x80 else 0) ||| UInt8.ofNat opcode.code
      byte.toNat / 16 % 8 = 0 ∧ opcode? (byte.toNat % 16) = some opcode ∧
        decide (128 ≤ byte.toNat) = fin := by
    intro fin opcode
    cases fin <;> cases opcode <;> decide
  obtain ⟨reserved, named, final⟩ := bits fin opcode
  generalize ((if fin then 0x80 else 0) ||| UInt8.ofNat opcode.code : UInt8) = byte
    at reserved named final ⊢
  simp only [readOpening, if_neg (not_not.mpr reserved), named, final, placed]

/-- A byte with the mask bit and a length of seven bits. -/
theorem toNat_maskBit_or {low : Nat} (h : low < 128) :
    (0x80 ||| UInt8.ofNat low).toNat = 128 + low := by
  rw [UInt8.toNat_or, UInt8.toNat_ofNat', Nat.mod_eq_of_lt (by omega)]
  exact (Nat.two_pow_add_eq_or_of_lt (i := 7) h 1).symm

/-- The length that a byte with the mask bit gives or announces. -/
theorem readLength_maskBit {low : Nat} (h : low < 128) (rest : Bytes) :
    readLength ((0x80 ||| UInt8.ofNat low) :: rest) = readNumber low rest := by
  have value := toNat_maskBit_or h
  generalize (0x80 ||| UInt8.ofNat low : UInt8) = byte at value ⊢
  rw [readLength, if_neg (by omega), value, Nat.add_sub_cancel_left]

/-- An announced length that its field has room for is read back. -/
theorem readNumber_encode {low length : Nat} (escape : lengthWidth low ≠ 0)
    (room : length < 256 ^ lengthWidth low) (rest : Bytes) :
    readNumber low (BigEndian.encode (lengthWidth low) length ++ rest) = .whole length rest := by
  have width := BigEndian.length_encode (lengthWidth low) length
  have enough : ¬ (BigEndian.encode (lengthWidth low) length ++ rest).length < lengthWidth low := by
    rw [List.length_append, width]
    omega
  simp only [readNumber, if_neg enough, if_neg escape, List.take_left' width,
    List.drop_left' width, BigEndian.decode_encode, Nat.mod_eq_of_lt room]

/-- The forms of a length behind a set mask bit: in seven bits, in two bytes or in eight, the longer
ones also where a shorter one has room. -/
inductive Spells (length : Nat) : Bytes → Prop where
  | inline (room : length < 126) : Spells length [0x80 ||| UInt8.ofNat length]
  | short (room : length < 256 ^ 2) : Spells length ((0x80 ||| 126) :: BigEndian.encode 2 length)
  | long (room : length < 256 ^ 8) : Spells length ((0x80 ||| 127) :: BigEndian.encode 8 length)

theorem spells_lengthBytes {length : Nat} (memory : length < 2 ^ 63) :
    Spells length (Frame.lengthBytes 0x80 length) := by
  unfold Frame.lengthBytes
  split
  · next inline => exact .inline inline
  · split
    · next short => exact .short short
    · exact .long (Nat.lt_trans memory (by decide))

/-- Each of the three forms of a length is read back. -/
theorem readLength_of_spells {length : Nat} {field : Bytes} (spelled : Spells length field)
    (rest : Bytes) : readLength (field ++ rest) = .whole length rest := by
  cases spelled with
  | inline room =>
    have width : lengthWidth length = 0 := by
      rw [lengthWidth, if_neg (by omega), if_neg (by omega)]
    rw [List.singleton_append, readLength_maskBit (by omega)]
    simp only [readNumber, width, Nat.not_lt_zero, if_false, if_true, List.drop_zero]
  | short room =>
    exact (readLength_maskBit (show 126 < 128 by decide) _).trans
      (readNumber_encode (by decide) room rest)
  | long room =>
    exact (readLength_maskBit (show 127 < 128 by decide) _).trans
      (readNumber_encode (by decide) room rest)

theorem readKey_toBytes (mask : Mask) (rest : Bytes) :
    readKey (mask.toBytes ++ rest) = .whole mask rest := rfl

theorem readPayload_apply (mask : Mask) (payload rest : Bytes) :
    readPayload mask payload.length (mask.apply payload ++ rest) = .whole payload rest := by
  have same : (mask.apply payload).length = payload.length := by
    rw [Mask.apply_eq_applyAt, Mask.length_applyAt]
  have enough : ¬ (mask.apply payload ++ rest).length < payload.length := by
    rw [List.length_append, same]
    omega
  have twice : (mask.apply payload).mapIdx (fun place byte => byte ^^^ mask.byteAt place) =
      payload := by
    calc (mask.apply payload).mapIdx (fun place byte => byte ^^^ mask.byteAt place)
      _ = mask.applyAt 0 (mask.applyAt 0 payload) := by
        rw [Mask.applyAt_eq_mapIdx mask 0 (mask.applyAt 0 payload)]
        simp only [Nat.zero_add, Mask.apply_eq_applyAt]
      _ = payload := Mask.applyAt_applyAt mask 0 payload
  rw [readPayload, if_neg enough, List.take_left' same, List.drop_left' same, twice]

/-- The bytes of a frame with this field for its length. -/
def encodeWith (frame : Frame.Client) (field : Bytes) : Bytes :=
  ((if frame.fin then 0x80 else 0) ||| UInt8.ofNat frame.opcode.code) :: field ++
    frame.mask.toBytes ++ frame.mask.apply frame.payload

/-- A frame is read back, whichever form its length has. -/
theorem readFrame_encodeWith {field : Bytes} (fits : Fits limits frame)
    (h : MayCome limits unfinished frame) (spelled : Spells frame.payload.length field)
    (rest : Bytes) :
    readFrame limits unfinished (encodeWith frame field ++ rest) = .whole frame rest := by
  have encoded : encodeWith frame field ++ rest =
      ((if frame.fin then 0x80 else 0) ||| UInt8.ofNat frame.opcode.code) ::
        (field ++ (frame.mask.toBytes ++ (frame.mask.apply frame.payload ++ rest))) := by
    simp only [encodeWith, List.cons_append, List.append_assoc]
  have size (rest : Bytes) : readSize limits (held (begin unfinished frame.opcode)) frame.opcode
      (field ++ rest) = .whole frame.payload.length rest := by
    simp only [readSize, readLength_of_spells spelled, Reading.andThen, allow,
      oversize_of_mayCome fits h]
  rw [encoded, readFrame, readOpening_encode _ (misplaced_of_mayCome h)]
  simp only [Reading.andThen, size, readKey_toBytes, readPayload_apply]

/-- **A frame that a client encodes is read back.** -/
theorem readFrame_encode (fits : Fits limits frame) (h : MayCome limits unfinished frame)
    (rest : Bytes) : readFrame limits unfinished (frame.encode ++ rest) = .whole frame rest :=
  readFrame_encodeWith fits h (spells_lengthBytes fits.2) rest

end WebSocket.Grammar

namespace WebSocket.Reassembler

open Grammar

/-! ## Whole conversations -/

/-- The machine reports what the frames report and ends where they end. -/
theorem feedFrom_flatMap_encode {limits : Limits} {machine : Reassembler}
    {unfinished : Option Unfinished} {frames : List Frame.Client}
    (there : machine.AtFrame unfinished) (legal : Legal limits unfinished frames)
    (events : Array Event) :
    let fed := machine.feedFrom limits (frames.flatMap Frame.Client.encode) events
    fed.violation = none ∧ fed.events.toList = events.toList ++ reports unfinished frames ∧
      if closes frames then fed.machine.stage = .closing
      else fed.machine.AtFrame (leaves unfinished frames) := by
  induction frames generalizing machine unfinished events with
  | nil =>
    have waits : machine.proceed limits [] = .pause machine := by
      simp only [proceed, there.stage, readStart]
    rw [List.flatMap_nil, feedFrom_of_pause waits]
    exact ⟨rfl, (List.append_nil _).symm, there⟩
  | cons frame frames ih =>
    obtain ⟨fits, mayCome, legal⟩ := legal
    obtain ⟨next, passed, fed⟩ := agrees_readFrame there (readFrame_encode fits mayCome _) events
    rw [List.flatMap_cons, fed]
    by_cases close : frame.opcode = .close
    · rw [if_pos close] at legal
      rw [feedFrom_of_closing (passed.closed close)]
      simp [legal, reports, closes, close, passed.closed close]
    · rw [if_neg close] at legal
      have ends := ih (passed.atFrame close) legal (events ++ (absorb unfinished frame).1.toArray)
      have same : closes (frame :: frames) = closes frames := by simp [closes, close]
      rw [same]
      simpa [reports, leaves] using ends

/-- **Feeding what a client encodes gives back what it meant.** The events of a legal conversation
come in the order of the wire. Behind a close frame the machine is closed; without one, and when
the last message is complete, it holds nothing and waits for a new frame. -/
theorem feed_flatMap_encode {limits : Limits} {frames : List Frame.Client}
    (legal : Legal limits none frames) :
    let fed := feed limits {} (frames.flatMap Frame.Client.encode)
    fed.violation = none ∧ fed.events.toList = reports none frames ∧
      (closes frames = true → fed.machine.isClosed = true) ∧
      (closes frames = false → leaves none frames = none →
        fed.machine.stage = .start ∧ fed.machine.isAssembling = false ∧
          fed.machine.buffered = 0) := by
  obtain ⟨accepted, reported, ended⟩ := feedFrom_flatMap_encode atFrame_fresh legal #[]
  refine ⟨accepted, reported, fun close => ?_, fun further complete => ?_⟩
  · rw [if_pos close] at ended
    exact decide_eq_true ended
  · rw [if_neg (by simp [further]), complete] at ended
    exact ⟨ended.stage, ended.assembling, ended.toHolds.buffered_eq⟩

/-- Two fragments around a ping, the first of them under the key that changes nothing. -/
theorem feed_flatMap_encode_fragments :
    let frames : List Frame.Client :=
      [⟨false, .text, [72, 105], .zero⟩, ⟨true, .ping, [7], ⟨1, 2, 3, 4⟩⟩,
        ⟨true, .continuation, [33], ⟨5, 6, 7, 8⟩⟩, ⟨true, .pong, [], ⟨9, 9, 9, 9⟩⟩,
        ⟨true, .close, [3, 232], ⟨0, 1, 0, 1⟩⟩]
    let fed := feed {} {} (frames.flatMap Frame.Client.encode)
    Legal {} none frames ∧ fed.violation = none ∧
      fed.events.toList = [.ping [7], .message .text [72, 105, 33], .close [3, 232]] ∧
      fed.machine.isClosed = true := by
  intro frames fed
  have legal : Legal {} none frames := by decide
  obtain ⟨accepted, reported, closed, -⟩ := feed_flatMap_encode legal
  exact ⟨legal, accepted, reported.trans (by decide), closed (by decide)⟩

end WebSocket.Reassembler
