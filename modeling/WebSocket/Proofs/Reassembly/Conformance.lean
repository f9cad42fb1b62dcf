import Mathlib.Tactic.IntervalCases
import WebSocket.Proofs.Reassembly.Blocks
import WebSocket.Proofs.Reassembly.Grammar

/-!
# Conformance to the grammar

A fresh machine reports the events and the breach that the grammar finds, for every byte string
(`feed_eq_decode`). Both are followed through one frame: each reader of the grammar has a lemma
that says which machine the stages leave behind when it reads a value, and that they pause or
reject where it reads none. `Follows` is the common form of these lemmas, and `Follows.andThen`
joins them.
-/

namespace WebSocket.Reassembler

open Grammar

variable {limits : Limits} {machine : Reassembler} {bytes rest : Bytes}
  {unfinished message : Option Unfinished} {fin : Bool} {opcode : Opcode} {length : Nat}
  {mask : Mask}

/-! ## Following a reader -/

/-- A feed ends, after the events before it, as a reader says: where a value is read, the event of
the value is reported and the feed goes on with the rest from a machine as in `reached`. -/
def Agrees {α : Type} (limits : Limits) (events : Array Event) (fed : Feed) (reading : Reading α)
    (report : α → Option Event) (reached : Reassembler → α → Prop) : Prop :=
  match reading with
  | .incomplete => ∃ next, fed = { machine := next, events }
  | .wrong error => ∃ next, fed = { machine := next, events, violation := some error }
  | .whole value rest => ∃ next, reached next value ∧
      fed = feedFrom limits next rest (events ++ (report value).toArray)

def Follows {α : Type} (limits : Limits) (machine : Reassembler) (bytes : Bytes)
    (reading : Reading α) (report : α → Option Event) (reached : Reassembler → α → Prop) : Prop :=
  ∀ events, Agrees limits events (machine.feedFrom limits bytes events) reading report reached

section Follows

variable {α β : Type} {reading : Reading α}

/-- A reader that reports nothing can be followed by another one. -/
theorem Follows.andThen {next : α → Bytes → Reading β} {report : β → Option Event}
    {between : Reassembler → α → Prop} {reached : Reassembler → β → Prop}
    (first : Follows limits machine bytes reading (fun _ => none) between)
    (second : ∀ value rest machine, between machine value →
      Follows limits machine rest (next value rest) report reached) :
    Follows limits machine bytes (reading.andThen next) report reached := by
  intro events
  cases reading with
  | incomplete => exact first events
  | wrong error => exact first events
  | whole value rest =>
    obtain ⟨machine, reached, goesOn⟩ := first events
    rw [Option.toArray_none, Array.append_empty] at goesOn
    rw [goesOn]
    exact second value rest machine reached events

theorem Follows.map {f : α → β} {report : β → Option Event} {reached : Reassembler → β → Prop}
    (follows : Follows limits machine bytes reading (fun value => report (f value))
      fun next value => reached next (f value)) :
    Follows limits machine bytes (reading.andThen fun value rest => .whole (f value) rest) report
      reached := by
  intro events
  cases reading <;> exact follows events

variable {report : α → Option Event} {reached : Reassembler → α → Prop}

theorem follows_of_pause (h : ∃ next, machine.proceed limits bytes = .pause next) :
    Follows limits machine bytes .incomplete report reached :=
  fun _ => h.imp fun _ => feedFrom_of_pause

theorem follows_of_reject {next : Reassembler} {error : Error}
    (h : machine.proceed limits bytes = .reject next error) :
    Follows limits machine bytes (.wrong error) report reached :=
  fun _ => ⟨next.abort, feedFrom_of_reject h⟩

theorem follows_of_advance {next : Reassembler} {value : α}
    (h : machine.proceed limits bytes = .advance next rest (report value))
    (there : reached next value) :
    Follows limits machine bytes (.whole value rest) report reached :=
  fun _ => ⟨next, there, feedFrom_of_advance h⟩

/-- A stage that reports nothing is passed before the reader begins. -/
theorem Follows.of_advance {next : Reassembler}
    (follows : Follows limits next rest reading report reached)
    (h : machine.proceed limits bytes = .advance next rest none) :
    Follows limits machine bytes reading report reached := by
  intro events
  rw [feedFrom_of_advance h, Option.toArray_none, Array.append_empty]
  exact follows events

end Follows

/-! ## The message in progress -/

/-- The machine holds this message and nothing of a control frame. -/
structure Holds (machine : Reassembler) (message : Option Unfinished) : Prop where
  control : machine.control.buffer = #[]
  assembling : machine.message.opcode.isSome = message.isSome
  kind : machine.message.opcode.bind Opcode.kind? = message.map (·.kind)
  payload : machine.message.buffer.toList = message.elim [] (·.payload)

/-- Between two frames. -/
structure AtFrame (machine : Reassembler) (unfinished : Option Unfinished) : Prop
    extends machine.Holds unfinished where
  stage : machine.stage = .start

/-- Within a frame, of which no payload is taken. -/
structure InFrame (machine : Reassembler) (message : Option Unfinished) (fin : Bool)
    (opcode : Opcode) : Prop extends machine.Holds message where
  fin_eq : machine.fin = fin
  opcode_eq : machine.opcode = opcode
  started : opcode.isControl = false → message.isSome

/-- Only the buffers and the opening of the frame count. -/
theorem InFrame.congr {next : Reassembler} (there : machine.InFrame message fin opcode)
    (h : (next.control, next.message, next.fin, next.opcode) =
      (machine.control, machine.message, machine.fin, machine.opcode)) :
    next.InFrame message fin opcode := by
  simp only [Prod.mk.injEq] at h
  obtain ⟨control, message, fin, opcode⟩ := h
  constructor
  · constructor
    · exact control ▸ there.control
    · exact message ▸ there.assembling
    · exact message ▸ there.kind
    · exact message ▸ there.payload
  · exact fin ▸ there.fin_eq
  · exact opcode ▸ there.opcode_eq
  · exact there.started

theorem Holds.buffered_eq (holds : machine.Holds message) : machine.buffered = held message := by
  rw [buffered, ← Array.length_toList, holds.payload]
  rfl

/-! ## The first byte -/

theorem toNat_and_low (byte : UInt8) : (byte &&& 0x0F).toNat = byte.toNat % 16 := by
  rw [UInt8.toNat_and]
  exact Nat.and_two_pow_sub_one_eq_mod byte.toNat 4

theorem and_reserved_ne_zero_iff (byte : UInt8) :
    byte &&& 0x70 ≠ 0 ↔ byte.toNat / 16 % 8 ≠ 0 := by
  have all : ∀ bits : BitVec 8,
      UInt8.ofBitVec bits &&& 0x70 ≠ 0 ↔ bits.toNat / 16 % 8 ≠ 0 := by decide +kernel
  exact all byte.toBitVec

theorem and_top_ne_zero_iff (byte : UInt8) : byte &&& 0x80 ≠ 0 ↔ 128 ≤ byte.toNat := by
  have all : ∀ bits : BitVec 8, UInt8.ofBitVec bits &&& 0x80 ≠ 0 ↔ 128 ≤ bits.toNat := by
    decide +kernel
  exact all byte.toBitVec

theorem ofCode_eq (number : Nat) (nibble : number < 16) :
    Opcode.ofCode number =
      match opcode? number with
      | some opcode => .ok opcode
      | none => .error (.reservedOpcode number) := by
  interval_cases number <;> rfl

theorem openFrame_eq (byte : UInt8) :
    machine.openFrame byte =
      if byte.toNat / 16 % 8 ≠ 0 then .error .reservedBitsSet
      else
        match opcode? (byte.toNat % 16) with
        | none => .error (.reservedOpcode (byte.toNat % 16))
        | some opcode => machine.beginFrame (128 ≤ byte.toNat) opcode := by
  simp only [openFrame, and_reserved_ne_zero_iff, and_top_ne_zero_iff, toNat_and_low,
    ofCode_eq _ (Nat.mod_lt _ (show 0 < 16 by decide))]
  cases opcode? (byte.toNat % 16) <;> rfl

theorem beginFrame_of_misplaced {error : Error} (holds : machine.Holds unfinished)
    (h : misplaced? unfinished.isSome fin opcode = some error) :
    machine.beginFrame fin opcode = .error error := by
  have assembling : machine.isAssembling = unfinished.isSome := holds.assembling
  cases opcode
  all_goals
    simp only [misplaced?] at h
    split at h
    all_goals simp_all [beginFrame, Opcode.isControl, Opcode.code]

theorem beginFrame_of_placed (holds : machine.Holds unfinished)
    (h : misplaced? unfinished.isSome fin opcode = none) :
    ∃ next, machine.beginFrame fin opcode = .ok next ∧
      next.InFrame (begin unfinished opcode) fin opcode := by
  have assembling : machine.isAssembling = unfinished.isSome := holds.assembling
  cases opcode
  case text | binary =>
    simp only [misplaced?] at h
    split at h
    · cases h
    · next idle =>
      have none_there : unfinished = none := by simpa using idle
      subst none_there
      simp only [beginFrame, Opcode.isControl, Opcode.code, assembling]
      exact ⟨_, rfl, ⟨⟨holds.control, rfl, rfl, holds.payload⟩, rfl, rfl, fun _ => rfl⟩⟩
  all_goals
    simp only [misplaced?] at h
    split at h
    · next placed =>
      simp only [beginFrame, Opcode.isControl, Opcode.code, assembling, placed]
      refine ⟨_, rfl, ⟨⟨holds.control, holds.assembling, holds.kind, holds.payload⟩, rfl, rfl, ?_⟩⟩
      simp [Opcode.isControl, Opcode.code, begin, placed]
    · cases h

theorem follows_readOpening (there : machine.AtFrame unfinished) :
    Follows limits machine bytes (readOpening unfinished.isSome bytes) (fun _ => none)
      fun next opening => next.stage = .length ∧
        next.InFrame (begin unfinished opening.2) opening.1 opening.2 := by
  have now (bytes : Bytes) : machine.proceed limits bytes = machine.readStart bytes := by
    simp only [proceed, there.stage]
  cases bytes with
  | nil => exact follows_of_pause ⟨_, now []⟩
  | cons byte rest =>
    have rejects {error : Error} (h : machine.openFrame byte = .error error) :
        machine.proceed limits (byte :: rest) = .reject machine error := by
      simp only [now, readStart, h]
    have opens : machine.openFrame byte = _ := openFrame_eq byte
    by_cases reserved : byte.toNat / 16 % 8 ≠ 0
    · simp only [readOpening, if_pos reserved] at opens ⊢
      exact follows_of_reject (rejects opens)
    simp only [readOpening, if_neg reserved] at opens ⊢
    cases named : opcode? (byte.toNat % 16) with
    | none =>
      simp only [named] at opens ⊢
      exact follows_of_reject (rejects opens)
    | some opcode =>
      simp only [named] at opens ⊢
      cases misplaced : misplaced? unfinished.isSome (decide (128 ≤ byte.toNat)) opcode with
      | some error =>
        exact follows_of_reject
          (rejects (opens.trans (beginFrame_of_misplaced there.toHolds misplaced)))
      | none =>
        obtain ⟨next, begun, inFrame⟩ := beginFrame_of_placed there.toHolds misplaced
        have opened : machine.proceed limits (byte :: rest) =
            .advance { next with stage := .length } rest none := by
          simp only [now, readStart, opens, begun]
        exact follows_of_advance opened ⟨rfl, inFrame.congr rfl⟩

/-! ## The length -/

/-- A byte put behind those of a length; nothing is lost while the top byte is free. -/
theorem toNat_shiftIn {value : UInt64} (byte : UInt8) (free : value.toNat < 2 ^ 56) :
    (value <<< 8 ||| byte.toUInt64).toNat = value.toNat * 256 + byte.toNat := by
  have fits : value.toNat <<< 8 < 2 ^ 64 := by
    rw [Nat.shiftLeft_eq]
    omega
  rw [UInt64.toNat_or, UInt64.toNat_shiftLeft, UInt8.toNat_toUInt64,
    show (8 : UInt64).toNat % 64 = 8 from rfl, Nat.mod_eq_of_lt fits,
    ← Nat.shiftLeft_add_eq_or_of_lt byte.toNat_lt, Nat.shiftLeft_eq]

theorem maxValue_lt_iff (value : UInt64) :
    Int64.maxValue.toUInt64 < value ↔ 2 ^ 63 - 1 < value.toNat :=
  UInt64.lt_iff_toNat_lt

/-- A length with the top bit set reads as a negative number. -/
theorem toInt_toInt64_of_gt {value : UInt64} (h : 2 ^ 63 - 1 < value.toNat) :
    value.toInt64.toInt = (value.toNat : Int) - 2 ^ 64 := by
  have bound := value.toNat_lt
  rw [← Int64.toInt_toBitVec, UInt64.toBitVec_toInt64, BitVec.toInt_eq_toNat_cond,
    UInt64.toNat_toBitVec]
  split <;> omega

/-- The machine once it has taken these bytes of a length. -/
def takeLengths (machine : Reassembler) (digits : Bytes) : Reassembler :=
  digits.foldl takeLength machine

theorem readWhile_length {goOn : Reassembler → Bytes → Progress} :
    machine.readWhile wantsLength takeLength goOn bytes =
      if bytes.length < machine.lengthMissing then .pause (machine.takeLengths bytes)
      else
        goOn (machine.takeLengths (bytes.take machine.lengthMissing))
          (bytes.drop machine.lengthMissing) :=
  readWhile_of_counts (fun _ => rfl) fun _ _ => rfl

theorem InFrame.takeLengths (there : machine.InFrame message fin opcode) (digits : Bytes) :
    (machine.takeLengths digits).InFrame message fin opcode := by
  induction digits generalizing machine with
  | nil => exact there
  | cons byte rest ih => exact ih (there.congr rfl)

/-- The length is the number that its bytes spell, if it has room for all of them. -/
theorem toNat_takeLengths (digits : Bytes)
    (room : (machine.payloadLength.toNat + 1) * 256 ^ digits.length ≤ 2 ^ 64) :
    (machine.takeLengths digits).payloadLength.toNat =
      digits.foldl (fun value byte => value * 256 + byte.toNat) machine.payloadLength.toNat := by
  induction digits generalizing machine with
  | nil => rfl
  | cons byte rest ih =>
    have bound := byte.toNat_lt
    have positive : 0 < 256 ^ rest.length := Nat.pow_pos (by decide)
    rw [List.length_cons, Nat.pow_succ, Nat.mul_comm (256 ^ rest.length), ← Nat.mul_assoc] at room
    have free : machine.payloadLength.toNat < 2 ^ 56 := by
      have := Nat.le_trans (Nat.le_mul_of_pos_right _ positive) room
      omega
    have shifted : (machine.takeLength byte).payloadLength.toNat =
        machine.payloadLength.toNat * 256 + byte.toNat := toNat_shiftIn byte free
    have roomLeft : ((machine.takeLength byte).payloadLength.toNat + 1) * 256 ^ rest.length ≤
        2 ^ 64 := by
      refine Nat.le_trans (Nat.mul_le_mul_right _ ?_) room
      omega
    rw [List.foldl_cons, ← shifted]
    exact ih roomLeft

theorem checkLength_eq (there : machine.InFrame message fin opcode) :
    machine.checkLength limits =
      match oversize? limits (held message) opcode machine.payloadLength.toNat with
      | some error => .error error
      | none => .ok () := by
  simp only [checkLength, oversize?, Limits.checkPayload, Limits.checkMessage, there.opcode_eq,
    there.toHolds.buffered_eq, gt_iff_lt, maxValue_lt_iff]
  by_cases negative : 2 ^ 63 - 1 < machine.payloadLength.toNat
  · simp only [if_pos negative, toInt_toInt64_of_gt negative]
  · simp only [if_neg negative]
    by_cases large : limits.maxPayload < machine.payloadLength.toNat
    · simp only [if_pos large]
    · simp only [if_neg large]
      cases opcode.isControl with
      | false =>
        simp only [Bool.not_false, if_true, Bool.false_eq_true, if_false]
        by_cases full : limits.maxMessage < held message + machine.payloadLength.toNat
        · simp only [if_pos full]
        · simp only [if_neg full]
      | true =>
        simp only [Bool.not_true, if_true, Bool.false_eq_true, if_false]
        by_cases long : Error.maxControlPayload < machine.payloadLength.toNat
        · rw [if_pos long, if_pos (show 125 < machine.payloadLength.toNat from long)]
        · rw [if_neg long, if_neg (show ¬ 125 < machine.payloadLength.toNat from long)]
          by_cases full : limits.maxMessage < machine.payloadLength.toNat
          · simp only [if_pos full]
          · simp only [if_neg full]

/-- The machine when the length is read and accepted. -/
def AtKey (machine : Reassembler) (message : Option Unfinished) (fin : Bool) (opcode : Opcode)
    (length : Nat) : Prop :=
  machine.stage = .key ∧ machine.keyRead = 0 ∧ machine.remaining = length ∧
    machine.InFrame message fin opcode

theorem follows_allow {reader : Reassembler}
    (now : reader.proceed limits bytes = machine.endLength limits rest)
    (there : machine.InFrame message fin opcode) :
    Follows limits reader bytes
      (allow limits (held message) opcode machine.payloadLength.toNat rest) (fun _ => none)
      fun next length => next.AtKey message fin opcode length := by
  have checked : machine.checkLength limits = _ := checkLength_eq there
  unfold allow
  cases oversize : oversize? limits (held message) opcode machine.payloadLength.toNat with
  | some error =>
    simp only [oversize] at checked
    exact follows_of_reject (now.trans (by simp only [endLength, checked]; rfl))
  | none =>
    simp only [oversize] at checked
    have accepted : machine.endLength limits rest =
        .advance { machine with
          stage := .key, remaining := machine.payloadLength.toNat, keyRead := 0 } rest none := by
      simp only [endLength, checked]
    exact follows_of_advance (now.trans accepted) ⟨rfl, rfl, rfl, there.congr rfl⟩

theorem lengthWidth_le (low : Nat) : lengthWidth low ≤ 8 := by
  unfold lengthWidth
  split
  · decide
  · split <;> decide

theorem follows_readNumber {low : Nat} (now : machine.stage = .extendedLength)
    (there : machine.InFrame message fin opcode) (width : machine.lengthMissing = lengthWidth low)
    (start : machine.payloadLength.toNat = if lengthWidth low = 0 then low else 0) :
    Follows limits machine bytes
      ((readNumber low bytes).andThen (allow limits (held message) opcode)) (fun _ => none)
      fun next length => next.AtKey message fin opcode length := by
  have proceeds : machine.proceed limits bytes =
      machine.readWhile wantsLength takeLength (endLength limits) bytes := by
    simp only [proceed, now, readExtendedLength]
  by_cases short : bytes.length < lengthWidth low
  · simp only [readNumber, if_pos short, Reading.andThen]
    rw [← width] at short
    exact follows_of_pause ⟨_, proceeds.trans (readWhile_length.trans (if_pos short))⟩
  · have enough : machine.lengthMissing ≤ bytes.length := by omega
    have value : (machine.takeLengths (bytes.take (lengthWidth low))).payloadLength.toNat =
        if lengthWidth low = 0 then low else BigEndian.decode (bytes.take (lengthWidth low)) := by
      split at start
      · next inline =>
        rw [inline, List.take_zero, if_pos rfl]
        exact start
      · next escape =>
        have room : (machine.payloadLength.toNat + 1) *
            256 ^ (bytes.take (lengthWidth low)).length ≤ 2 ^ 64 := by
          rw [start, Nat.zero_add, Nat.one_mul]
          refine Nat.le_trans (Nat.pow_le_pow_right (by decide) ?_) (Nat.le_refl (256 ^ 8))
          exact Nat.le_trans (List.length_take_le ..) (lengthWidth_le low)
        rw [toNat_takeLengths _ room, start, if_neg escape]
        rfl
    simp only [readNumber, if_neg short, Reading.andThen, ← value]
    refine follows_allow ?_ (there.takeLengths _)
    rw [proceeds, readWhile_length, if_neg (Nat.not_lt.mpr enough), width]

theorem toNat_and_lengthBits (byte : UInt8) : (byte &&& 0x7F).toNat = byte.toNat % 128 := by
  rw [UInt8.toNat_and]
  exact Nat.and_two_pow_sub_one_eq_mod byte.toNat 7

theorem toNat_sub_top (byte : UInt8) (top : 128 ≤ byte.toNat) :
    byte.toNat - 128 = (byte &&& 0x7F).toNat := by
  have bound := byte.toNat_lt
  rw [toNat_and_lengthBits]
  omega

theorem announced_snd (low : UInt8) : (announced low).2 = lengthWidth low.toNat := by
  simp only [announced, lengthWidth, ← UInt8.toNat_inj]
  split
  · next h => simp [h]
  · split <;> simp_all

theorem toNat_announced_fst (low : UInt8) :
    (announced low).1.toNat = if lengthWidth low.toNat = 0 then low.toNat else 0 := by
  simp only [announced, lengthWidth, ← UInt8.toNat_inj]
  split
  · next h => simp [h]
  · split <;> simp_all

theorem follows_readSize (now : machine.stage = .length)
    (there : machine.InFrame message fin opcode) :
    Follows limits machine bytes (readSize limits (held message) opcode bytes) (fun _ => none)
      fun next length => next.AtKey message fin opcode length := by
  have proceeds (bytes : Bytes) : machine.proceed limits bytes = machine.readLength bytes := by
    simp only [proceed, now]
  cases bytes with
  | nil => exact follows_of_pause ⟨_, proceeds []⟩
  | cons byte rest =>
    simp only [readSize, Grammar.readLength]
    split
    · next unmasked =>
      have clear : byte &&& 0x80 = 0 :=
        Decidable.not_not.mp (mt (and_top_ne_zero_iff byte).mp (Nat.not_le.mpr unmasked))
      exact follows_of_reject ((proceeds _).trans (if_pos clear))
    · next masked =>
      have top : 128 ≤ byte.toNat := Nat.le_of_not_lt masked
      have passed : machine.proceed limits (byte :: rest) =
          .advance { machine with
            stage := .extendedLength
            payloadLength := (announced (byte &&& 0x7F)).1
            lengthMissing := (announced (byte &&& 0x7F)).2 } rest none := by
        rw [proceeds, readLength, if_neg ((and_top_ne_zero_iff byte).mpr top)]
      have low := toNat_sub_top byte top
      generalize byte.toNat - 128 = seven at low ⊢
      subst low
      refine Follows.of_advance ?_ passed
      exact follows_readNumber rfl (there.congr rfl) (announced_snd _) (toNat_announced_fst _)

/-! ## The key -/

/-- The machine when the key is read. -/
structure AtExtension (machine : Reassembler) (message : Option Unfinished) (fin : Bool)
    (opcode : Opcode) (length : Nat) (mask : Mask) : Prop
    extends machine.InFrame message fin opcode where
  stage : machine.stage = .extension
  remaining : machine.remaining = length
  offset : machine.offset = 0
  mask_eq : machine.mask = mask
  masked : machine.masked = decide (mask ≠ .zero)

/-- The machine once it has taken these bytes of a key. -/
def takeKeys (machine : Reassembler) (key : Bytes) : Reassembler := key.foldl takeKey machine

theorem readWhile_key {goOn : Reassembler → Bytes → Progress} :
    machine.readWhile wantsKey takeKey goOn bytes =
      if bytes.length < 4 - machine.keyRead then .pause (machine.takeKeys bytes)
      else
        goOn (machine.takeKeys (bytes.take (4 - machine.keyRead)))
          (bytes.drop (4 - machine.keyRead)) := by
  have wanting (machine : Reassembler) : machine.wantsKey = decide (0 < 4 - machine.keyRead) := by
    simp [wantsKey]
  have counts (machine : Reassembler) (byte : UInt8) :
      4 - (machine.takeKey byte).keyRead = 4 - machine.keyRead - 1 :=
    (Nat.sub_sub 4 machine.keyRead 1).symm
  exact readWhile_of_counts wanting counts

theorem follows_readKey (there : machine.AtKey message fin opcode length) :
    Follows limits machine bytes (Grammar.readKey bytes) (fun _ => none)
      fun next mask => next.AtExtension message fin opcode length mask := by
  obtain ⟨now, keyRead, remaining, inFrame⟩ := there
  have proceeds (bytes : Bytes) :
      machine.proceed limits bytes = machine.readWhile wantsKey takeKey endKey bytes := by
    simp only [proceed, now, readKey]
  have waits {bytes : Bytes} (short : bytes.length < 4) :
      ∃ next, machine.proceed limits bytes = .pause next := by
    rw [proceeds]
    exact ⟨_, readWhile_key.trans (if_pos (by rw [keyRead]; exact short))⟩
  rcases bytes with _ | ⟨first, _ | ⟨second, _ | ⟨third, _ | ⟨fourth, rest⟩⟩⟩⟩
  · exact follows_of_pause (waits (show 0 < 4 by decide))
  · exact follows_of_pause (waits (show 1 < 4 by decide))
  · exact follows_of_pause (waits (show 2 < 4 by decide))
  · exact follows_of_pause (waits (show 3 < 4 by decide))
  · have passes : machine.proceed limits (first :: second :: third :: fourth :: rest) =
        endKey { machine with mask := ⟨first, second, third, fourth⟩, keyRead := 4 } rest := by
      rw [proceeds]
      simp only [readWhile, wantsKey, takeKey, keyRead]
      exact readWhile_of_not_wants rfl
    exact follows_of_advance passes ⟨inFrame.congr rfl, rfl, remaining, rfl, rfl, rfl⟩

/-! ## The payload and the end of the frame -/

/-- Where the key changes nothing, leaving it out makes no difference. -/
theorem unmask_eq_applyAt (masked : machine.masked = decide (machine.mask ≠ .zero))
    (bytes : Bytes) : machine.unmask bytes = machine.mask.applyAt machine.offset bytes := by
  unfold unmask
  split
  · rfl
  · next h =>
    have zero : machine.mask = .zero := by simpa [masked] using h
    rw [zero, Mask.applyAt_zero]

theorem unmask_eq_mapIdx (offset : machine.offset = 0)
    (masked : machine.masked = decide (machine.mask ≠ .zero)) (bytes : Bytes) :
    machine.unmask bytes = bytes.mapIdx fun place byte => byte ^^^ machine.mask.byteAt place := by
  rw [unmask_eq_applyAt masked, offset, Mask.applyAt_eq_mapIdx]
  simp only [Nat.zero_add]

/-- Behind a frame: closed, or between two frames again. -/
def Passed (machine : Reassembler) (unfinished : Option Unfinished) (frame : Frame.Client) :
    Prop :=
  if frame.opcode = .close then machine.stage = .closing
  else machine.AtFrame (absorb unfinished frame).2

theorem Passed.closed {frame : Frame.Client} (passed : machine.Passed unfinished frame)
    (close : frame.opcode = .close) : machine.stage = .closing := by
  rwa [Passed, if_pos close] at passed

theorem Passed.atFrame {frame : Frame.Client} (passed : machine.Passed unfinished frame)
    (further : frame.opcode ≠ .close) : machine.AtFrame (absorb unfinished frame).2 := by
  rwa [Passed, if_neg further] at passed

theorem toList_append (accumulator : Accumulator) (bytes : Bytes) :
    (accumulator.append bytes).buffer.toList = accumulator.buffer.toList ++ bytes := by
  simp [Accumulator.append]

/-- A control frame goes to the buffer of its own and leaves the message alone. -/
theorem InFrame.collect_of_control (there : machine.InFrame message fin opcode)
    (control : opcode.isControl) (bytes : Bytes) :
    (machine.collect bytes).control.buffer.toList = machine.unmask bytes ∧
      (machine.collect bytes).message = machine.message := by
  simp only [collect, append, there.opcode_eq, control, if_true, toList_append, there.control,
    List.nil_append, and_self]

/-- A data frame is put behind what the message has. -/
theorem InFrame.collect_of_data {message : Unfinished}
    (there : machine.InFrame (some message) fin opcode) (data : opcode.isControl = false)
    (bytes : Bytes) :
    (machine.collect bytes).Holds
      (some { message with payload := message.payload ++ machine.unmask bytes }) := by
  have collected : (machine.collect bytes).message =
      machine.message.append (machine.unmask bytes) := by
    simp only [collect, append, there.opcode_eq, data, Bool.false_eq_true, if_false]
  constructor
  · simp only [collect, append, there.opcode_eq, data, Bool.false_eq_true, if_false, there.control]
  · rw [collected]
    exact there.assembling
  · rw [collected]
    exact there.kind
  · rw [collected, toList_append, there.payload]
    rfl

/-- The end of a frame reports what the frame says and leaves the message that it leaves. -/
theorem complete_collect (there : machine.InFrame (begin unfinished opcode) fin opcode)
    (bytes : Bytes) (mask : Mask) :
    let frame : Frame.Client := { fin, opcode, payload := machine.unmask bytes, mask }
    let ended := (machine.collect bytes).complete
    ended.2 = (absorb unfinished frame).1 ∧ ended.1.Passed unfinished frame := by
  have opcode_eq : (machine.collect bytes).opcode = opcode := there.opcode_eq
  have fin_eq : (machine.collect bytes).fin = fin := there.fin_eq
  cases opcode with
  | close =>
    obtain ⟨payload, -⟩ := there.collect_of_control rfl bytes
    simp only [complete, opcode_eq, absorb, payload, true_and]
    rfl
  | ping | pong =>
    obtain ⟨payload, same⟩ := there.collect_of_control rfl bytes
    simp only [complete, opcode_eq, absorb, payload, true_and]
    exact ⟨⟨rfl, same ▸ there.assembling, same ▸ there.kind, same ▸ there.payload⟩, rfl⟩
  | text | binary | continuation =>
    obtain ⟨message, begun⟩ := Option.isSome_iff_exists.mp (there.started rfl)
    rw [begun] at there
    have holds := there.collect_of_data rfl bytes
    have kind : (machine.collect bytes).message.opcode.bind Opcode.kind? = some message.kind :=
      holds.kind
    have payload : (machine.collect bytes).message.buffer.toList =
        message.payload ++ machine.unmask bytes := holds.payload
    simp only [complete, opcode_eq, fin_eq, absorb, Passed, begun, kind, payload, Option.getD_some]
    cases fin with
    | true => exact ⟨rfl, ⟨holds.control, rfl, rfl, rfl⟩, rfl⟩
    | false => exact ⟨rfl, ⟨holds.control, holds.assembling, holds.kind, holds.payload⟩, rfl⟩

theorem follows_readPayload
    (there : machine.AtExtension (begin unfinished opcode) fin opcode length mask) :
    Follows limits machine bytes (Grammar.readPayload mask length bytes)
      (fun payload => (absorb unfinished { fin, opcode, payload, mask }).1)
      fun next payload => next.Passed unfinished { fin, opcode, payload, mask } := by
  have passes : machine.proceed limits bytes =
      .advance { machine with stage := .payload } bytes none := by
    simp only [proceed, there.stage]
  refine Follows.of_advance ?_ passes
  have proceeds : proceed limits { machine with stage := .payload } bytes =
      readPayload { machine with stage := .payload } bytes := rfl
  simp only [Grammar.readPayload]
  split
  · next short =>
    rw [← there.remaining] at short
    have missing : 0 < machine.remaining - (bytes.take machine.remaining).length := by
      rw [List.length_take]
      omega
    exact follows_of_pause ⟨_, proceeds.trans (if_pos missing)⟩
  · next enough =>
    rw [← there.remaining] at enough
    have nothing : ¬ 0 < machine.remaining - (bytes.take machine.remaining).length := by
      rw [List.length_take]
      omega
    have inFrame : InFrame { machine with stage := .payload } (begin unfinished opcode) fin
        opcode := there.toInFrame.congr rfl
    obtain ⟨reports, ends⟩ := complete_collect inFrame (bytes.take machine.remaining) mask
    have plain : unmask { machine with stage := .payload } (bytes.take machine.remaining) =
        (bytes.take length).mapIdx fun place byte => byte ^^^ mask.byteAt place := by
      rw [← there.remaining, ← there.mask_eq]
      exact unmask_eq_mapIdx there.offset (there.masked.trans (by rw [← there.mask_eq])) _
    rw [plain] at reports ends
    refine follows_of_advance ?_ ends
    rw [← reports, ← there.remaining]
    exact proceeds.trans (if_neg nothing)

/-! ## Whole frames -/

theorem follows_readFrame (there : machine.AtFrame unfinished) :
    Follows limits machine bytes (readFrame limits unfinished bytes)
      (fun frame => (absorb unfinished frame).1)
      fun next frame => next.Passed unfinished frame := by
  refine (follows_readOpening there).andThen ?_
  rintro ⟨fin, opcode⟩ rest machine ⟨atLength, inFrame⟩
  refine (follows_readSize atLength inFrame).andThen ?_
  intro length rest machine atKey
  refine (follows_readKey atKey).andThen ?_
  intro mask rest machine atExtension
  exact (follows_readPayload atExtension).map

theorem agrees_readFrame {reading : Reading Frame.Client} (there : machine.AtFrame unfinished)
    (reads : readFrame limits unfinished bytes = reading) (events : Array Event) :
    Agrees limits events (machine.feedFrom limits bytes events) reading
      (fun frame => (absorb unfinished frame).1) fun next frame => next.Passed unfinished frame :=
  reads ▸ follows_readFrame there events

/-- The machine reports the events and the breach that the decoder finds. -/
theorem feedFrom_eq_decode (there : machine.AtFrame unfinished) (events : Array Event) :
    let fed := machine.feedFrom limits bytes events
    let decoded := decode limits unfinished bytes
    fed.events.toList = events.toList ++ decoded.events ∧ fed.violation = decoded.fault := by
  fun_induction decode limits unfinished bytes generalizing machine events with
  | case1 unfinished bytes reads =>
    obtain ⟨next, fed⟩ := agrees_readFrame there reads events
    simp only [fed, List.append_nil, and_self]
  | case2 unfinished bytes error reads =>
    obtain ⟨next, fed⟩ := agrees_readFrame there reads events
    simp only [fed, List.append_nil, and_self]
  | case3 unfinished bytes frame rest reads event after absorbed close =>
    obtain ⟨next, passed, fed⟩ := agrees_readFrame there reads events
    simp only [fed, feedFrom_of_closing (passed.closed close), absorbed, Array.toList_append,
      Option.toList_toArray, and_self]
  | case4 unfinished bytes frame rest reads event after absorbed further ih =>
    obtain ⟨next, passed, fed⟩ := agrees_readFrame there reads events
    have atFrame : next.AtFrame after := by
      simpa only [absorbed] using passed.atFrame further
    obtain ⟨reported, broken⟩ := ih atFrame (events ++ event.toArray)
    simp only [fed, absorbed, reported, broken, Decoding.behind, Array.toList_append,
      Option.toList_toArray, List.append_assoc, and_self]

theorem atFrame_fresh : AtFrame {} none := ⟨⟨rfl, rfl, rfl, rfl⟩, rfl⟩

/-- **Feeding bytes to a fresh machine is decoding them frame by frame.** -/
theorem feed_eq_decode (limits : Limits) (bytes : Bytes) :
    let fed := feed limits {} bytes
    let decoded := decode limits none bytes
    fed.events.toList = decoded.events ∧ fed.violation = decoded.fault :=
  feedFrom_eq_decode atFrame_fresh #[]

end WebSocket.Reassembler
