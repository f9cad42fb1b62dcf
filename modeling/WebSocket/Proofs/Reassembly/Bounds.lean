import WebSocket.Proofs.Reassembly.Conformance
import WebSocket.Proofs.Reassembly.Reports

/-!
# What a machine holds

The length of a frame is checked once, against what is held of its message, before any of its
payload is taken. What a machine holds and what it has still to take of a frame stay within the
limits from then on, over as many blocks as the payload comes in and with control frames between
(`Reassembler.Bounded`). This is carried by an invariant (`Reassembler.Sound`) that every stage
keeps (`sound_proceed`), so that all machines which a feed passes have it, those between two stages
as well as those between two blocks (`bounded_passesEach`).
-/

namespace WebSocket

/-- A property of the machine that a stage leaves, however it leaves it. -/
def Progress.Keeps (property : Reassembler → Prop) : Progress → Prop
  | .pause machine => property machine
  | .advance machine _ _ => property machine
  | .reject machine _ => property machine.abort

theorem Accumulator.eq_of_eq {first second : Accumulator} (buffer : first.buffer = second.buffer)
    (opcode : first.opcode = second.opcode) : first = second := by
  cases first
  cases second
  cases buffer
  cases opcode
  rfl

/-- The most that a control frame can carry. -/
def Limits.maxControl (limits : Limits) : Nat :=
  min Error.maxControlPayload (min limits.maxPayload limits.maxMessage)

namespace Reassembler

variable {limits : Limits} {machine next : Reassembler} {bytes : Bytes} {events : Array Event}
  {property : Reassembler → Prop}

/-! ## The machines that a feed passes -/

/-- The machines of a feed: the one that it starts from, one behind each stage that is over, and
the one that it leaves. -/
def passes (limits : Limits) (machine : Reassembler) (bytes : Bytes) : List Reassembler :=
  match _h : machine.proceed limits bytes with
  | .pause next => [machine, next]
  | .advance next rest _ => machine :: next.passes limits rest
  | .reject next _ => [machine, next.abort]
termination_by machine.workLeft bytes
decreasing_by exact workLeft_lt_of_advance _h

/-- The machines of several feeds, one after another. -/
def passesEach (limits : Limits) (machine : Reassembler) : List Bytes → List Reassembler
  | [] => [machine]
  | block :: blocks =>
    machine.passes limits block ++ (machine.feed limits block).machine.passesEach limits blocks

/-- What every stage keeps, every machine of a feed has. -/
theorem keeps_passes
    (keeps : ∀ machine bytes, property machine → (machine.proceed limits bytes).Keeps property)
    (start : property machine) : ∀ passed ∈ machine.passes limits bytes, property passed := by
  fun_induction passes limits machine bytes with
  | case1 machine bytes next h =>
    have kept := keeps machine bytes start
    rw [h] at kept
    simpa using ⟨start, kept⟩
  | case2 machine bytes next rest event h ih =>
    have kept := keeps machine bytes start
    rw [h] at kept
    simpa using ⟨start, ih kept⟩
  | case3 machine bytes next error h =>
    have kept := keeps machine bytes start
    rw [h] at kept
    simpa using ⟨start, kept⟩

/-- A feed leaves one of the machines that it passes. -/
theorem mem_passes_feedFrom :
    (machine.feedFrom limits bytes events).machine ∈ machine.passes limits bytes := by
  fun_induction feedFrom limits machine bytes events with
  | case1 machine bytes events next h =>
    rw [passes]
    split <;> simp_all
  | case2 machine bytes events next rest event h ih =>
    rw [passes]
    split <;> simp_all
  | case3 machine bytes events next error h =>
    rw [passes]
    split <;> simp_all

theorem keeps_passesEach
    (keeps : ∀ machine bytes, property machine → (machine.proceed limits bytes).Keeps property)
    (start : property machine) (blocks : List Bytes) :
    ∀ passed ∈ machine.passesEach limits blocks, property passed := by
  induction blocks generalizing machine with
  | nil => simpa [passesEach] using start
  | cons block blocks ih =>
    have all : ∀ passed ∈ machine.passes limits block, property passed := keeps_passes keeps start
    have left : property (machine.feed limits block).machine := all _ mem_passes_feedFrom
    intro passed member
    rcases List.mem_append.mp member with now | later
    · exact all passed now
    · exact ih left passed later

theorem keeps_readWhile {wants : Reassembler → Bool} {take : Reassembler → UInt8 → Reassembler}
    {goOn : Reassembler → Bytes → Progress} (during : Reassembler → Prop)
    (takes : ∀ machine byte, during machine → during (take machine byte))
    (waits : ∀ machine, during machine → property machine)
    (ends : ∀ machine bytes, during machine → (goOn machine bytes).Keeps property)
    (start : during machine) : (machine.readWhile wants take goOn bytes).Keeps property := by
  fun_induction readWhile wants take goOn machine bytes with
  | case1 => exact waits _ start
  | case2 => exact ends _ _ start
  | case3 machine byte rest wanted ih => exact ih (takes _ _ start)
  | case4 => exact ends _ _ start

/-! ## The invariant -/

/-- A frame is being read. -/
def isReading (machine : Reassembler) : Bool :=
  match machine.stage with
  | .start | .closing => false
  | .length | .extendedLength | .key | .extension | .payload => true

/-- The length of the frame that is being read is accepted. -/
def isAccepted (machine : Reassembler) : Bool :=
  match machine.stage with
  | .key | .extension | .payload => true
  | .start | .length | .extendedLength | .closing => false

/-- How many bytes the buffer of the frame's class has. -/
def gathered (machine : Reassembler) : Nat :=
  if machine.opcode.isControl then machine.control.buffer.size else machine.buffered

/-- How many it may have. -/
def allowance (limits : Limits) (machine : Reassembler) : Nat :=
  if machine.opcode.isControl then limits.maxControl else limits.maxMessage

/-- What every machine that a feed passes keeps to. -/
structure Sound (limits : Limits) (machine : Reassembler) : Prop where
  message : machine.buffered ≤ limits.maxMessage
  room : machine.isAccepted = true → machine.gathered + machine.remaining ≤ machine.allowance limits
  payload : machine.isAccepted = true → machine.remaining ≤ limits.maxPayload
  /-- Nothing of a payload is taken before the stage of its own. -/
  whole : machine.stage = .key ∨ machine.stage = .extension →
    machine.remaining = machine.payloadLength.toNat
  /-- Only the payload of a control frame goes to its buffer. -/
  untouched : machine.stage ≠ .payload ∨ machine.opcode.isControl = false →
    machine.control.buffer = #[]
  unbegun : machine.isAssembling = false → machine.buffered = 0
  begun : machine.isReading = true → machine.opcode.isControl = false →
    machine.isAssembling = true
  kind : ∀ opcode ∈ machine.message.opcode, opcode = .text ∨ opcode = .binary
  plain : machine.control.opcode = none

theorem isReading_of_isAccepted (accepted : machine.isAccepted = true) :
    machine.isReading = true := by
  cases now : machine.stage <;> simp_all [isAccepted, isReading]

/-- Between two frames only what is held counts. -/
theorem sound_of_idle (idle : machine.isReading = false)
    (message : machine.buffered ≤ limits.maxMessage)
    (unbegun : machine.isAssembling = false → machine.buffered = 0)
    (kind : ∀ opcode ∈ machine.message.opcode, opcode = .text ∨ opcode = .binary)
    (empty : machine.control = {}) : machine.Sound limits where
  message := message
  room accepted := absurd (isReading_of_isAccepted accepted) (by simp [idle])
  payload accepted := absurd (isReading_of_isAccepted accepted) (by simp [idle])
  whole := by
    rintro (now | now)
    all_goals simp [isReading, now] at idle
  untouched _ := by rw [empty]
  unbegun := unbegun
  begun reading := absurd reading (by simp [idle])
  kind := kind
  plain := by rw [empty]

theorem sound_fresh : Sound limits {} :=
  sound_of_idle rfl (Nat.zero_le _) (fun _ => rfl) nofun rfl

theorem sound_abort (machine : Reassembler) : machine.abort.Sound limits :=
  sound_of_idle rfl (Nat.zero_le _) (fun _ => rfl) nofun rfl

/-- Nothing of a control frame is held in a stage before its payload. -/
theorem Sound.empty (sound : machine.Sound limits) (before : machine.stage ≠ .payload) :
    machine.control.buffer = #[] :=
  sound.untouched (.inl before)

/-! ## The header of a frame -/

/-- In the header of a frame the buffers stay as they are; what is accepted has to be sound. -/
theorem Sound.header (sound : machine.Sound limits) (before : machine.stage ≠ .payload)
    (reading : machine.isReading = true)
    (same : (next.opcode, next.control, next.message) =
      (machine.opcode, machine.control, machine.message))
    (room : next.isAccepted = true → machine.gathered + next.remaining ≤ machine.allowance limits)
    (payload : next.isAccepted = true → next.remaining ≤ limits.maxPayload)
    (whole : next.stage = .key ∨ next.stage = .extension →
      next.remaining = next.payloadLength.toNat) : next.Sound limits := by
  simp only [Prod.mk.injEq] at same
  obtain ⟨opcode, control, message⟩ := same
  have buffered : next.buffered = machine.buffered := by simp only [buffered, message]
  have gathered : next.gathered = machine.gathered := by
    simp only [gathered, buffered, opcode, control]
  have assembling : next.isAssembling = machine.isAssembling := by
    simp only [isAssembling, message]
  exact {
    message := buffered ▸ sound.message
    room := fun accepted => by
      rw [gathered, allowance, opcode]
      exact room accepted
    payload := payload
    whole := whole
    untouched := fun _ => control ▸ sound.empty before
    unbegun := fun idle => buffered.trans (sound.unbegun (assembling.symm.trans idle))
    begun := fun _ data => assembling.trans (sound.begun reading (opcode ▸ data))
    kind := message ▸ sound.kind
    plain := control ▸ sound.plain }

/-- The opening of a frame that belongs to the message in progress, or to none. -/
theorem Sound.opened (sound : machine.Sound limits) (now : machine.stage = .start) {fin : Bool}
    {opcode : Opcode} (belongs : opcode.isControl = false → machine.isAssembling = true) :
    Sound limits { machine with fin, opcode, stage := .length } where
  message := sound.message
  room := nofun
  payload := nofun
  whole := by simp
  untouched _ := sound.empty (by simp [now])
  unbegun := sound.unbegun
  begun _ := belongs
  kind := sound.kind
  plain := sound.plain

/-- The opening of a message. -/
theorem Sound.started (sound : machine.Sound limits) (now : machine.stage = .start) {fin : Bool}
    {opcode : Opcode} (kind : opcode = .text ∨ opcode = .binary) :
    Sound limits { machine with
      stage := .length, fin, opcode
      message := { machine.message with opcode := some opcode } } where
  message := sound.message
  room := nofun
  payload := nofun
  whole := by simp
  untouched _ := sound.empty (by simp [now])
  unbegun := nofun
  begun _ _ := rfl
  kind := by simpa using kind
  plain := sound.plain

theorem Sound.openFrame {byte : UInt8} (sound : machine.Sound limits)
    (now : machine.stage = .start) (opens : machine.openFrame byte = .ok next) :
    Sound limits { next with stage := .length } := by
  unfold Reassembler.openFrame at opens
  split at opens
  · cases opens
  · split at opens
    · cases opens
    · next opcode named =>
      simp only [beginFrame] at opens
      split at opens
      · next control =>
        split at opens
        · cases opens
          exact sound.opened now fun data => absurd control (Bool.eq_false_iff.mp data)
        · cases opens
      · next data =>
        split at opens
        · split at opens
          · next assembling =>
            cases opens
            exact sound.opened now fun _ => assembling
          · cases opens
        · split at opens
          · cases opens
          · cases opens
            refine sound.started now ?_
            cases opcode <;> simp_all [Opcode.isControl, Opcode.code]

theorem Sound.announced (sound : machine.Sound limits) (now : machine.stage = .length)
    (payloadLength : UInt64) (lengthMissing : Nat) :
    Sound limits { machine with stage := .extendedLength, payloadLength, lengthMissing } :=
  sound.header (by simp [now]) (by simp only [isReading, now]) rfl nofun nofun (by simp)

theorem checkPayload_eq_ok_iff {size : Nat} :
    limits.checkPayload size = .ok () ↔ size ≤ limits.maxPayload := by
  unfold Limits.checkPayload
  split <;> simp_all

theorem checkMessage_eq_ok_iff {size : Nat} :
    limits.checkMessage size = .ok () ↔ size ≤ limits.maxMessage := by
  unfold Limits.checkMessage
  split <;> simp_all

theorem le_maxPayload_of_checkLength (accepted : machine.checkLength limits = .ok ()) :
    machine.payloadLength.toNat ≤ limits.maxPayload := by
  simp only [checkLength] at accepted
  split at accepted
  · cases accepted
  · split at accepted
    · cases accepted
    · next within => exact checkPayload_eq_ok_iff.mp within

/-- A length that is accepted has room behind what is there. -/
theorem room_of_checkLength (empty : machine.control.buffer = #[])
    (accepted : machine.checkLength limits = .ok ()) :
    machine.payloadLength.toNat ≤ limits.maxPayload ∧
      machine.gathered + machine.payloadLength.toNat ≤ machine.allowance limits := by
  have payload := le_maxPayload_of_checkLength accepted
  refine ⟨payload, ?_⟩
  simp only [checkLength, checkPayload_eq_ok_iff.mpr payload] at accepted
  split at accepted
  · cases accepted
  · cases control : machine.opcode.isControl with
    | false =>
      simp only [control, Bool.not_false, if_true] at accepted
      simpa [gathered, allowance, control] using checkMessage_eq_ok_iff.mp accepted
    | true =>
      simp only [control, Bool.not_true, Bool.false_eq_true, if_false] at accepted
      split at accepted
      · cases accepted
      · next short =>
        have message := checkMessage_eq_ok_iff.mp accepted
        simp only [gathered, allowance, control, if_true, empty, Limits.maxControl]
        simp only [List.size_toArray, List.length_nil, Nat.zero_add]
        omega

theorem Sound.accepted (sound : machine.Sound limits) (now : machine.stage = .extendedLength)
    (accepted : machine.checkLength limits = .ok ()) :
    Sound limits { machine with
      stage := .key, remaining := machine.payloadLength.toNat, keyRead := 0 } := by
  obtain ⟨payload, room⟩ := room_of_checkLength (sound.empty (by simp [now])) accepted
  exact sound.header (by simp [now]) (by simp only [isReading, now]) rfl (fun _ => room)
    (fun _ => payload) fun _ => rfl

theorem Sound.keyed (sound : machine.Sound limits) (now : machine.stage = .key) {masked : Bool} :
    Sound limits { machine with stage := .extension, keyRead := 0, offset := 0, masked } := by
  have accepted : machine.isAccepted = true := by simp only [isAccepted, now]
  exact sound.header (by simp [now]) (isReading_of_isAccepted accepted) rfl
    (fun _ => sound.room accepted) (fun _ => sound.payload accepted) fun _ => sound.whole (.inl now)

theorem Sound.extended (sound : machine.Sound limits) (now : machine.stage = .extension) :
    Sound limits { machine with stage := .payload } := by
  have accepted : machine.isAccepted = true := by simp only [isAccepted, now]
  exact sound.header (by simp [now]) (isReading_of_isAccepted accepted) rfl
    (fun _ => sound.room accepted) (fun _ => sound.payload accepted) (by simp)

/-! ## The payload -/

theorem length_unmask (bytes : Bytes) : (machine.unmask bytes).length = bytes.length := by
  unfold unmask
  split
  · exact Mask.length_applyAt ..
  · rfl

theorem size_append (accumulator : Accumulator) (bytes : Bytes) :
    (accumulator.append bytes).buffer.size = accumulator.buffer.size + bytes.length := by
  rw [← Array.length_toList, toList_append, List.length_append, Array.length_toList]

theorem gathered_collect (bytes : Bytes) :
    (machine.collect bytes).gathered = machine.gathered + bytes.length := by
  cases control : machine.opcode.isControl <;>
    simp [gathered, buffered, collect, append, control, size_append, length_unmask]

theorem message_opcode_collect (machine : Reassembler) (bytes : Bytes) :
    (machine.collect bytes).message.opcode = machine.message.opcode := by
  simp only [collect, append]
  split <;> rfl

theorem control_opcode_collect (machine : Reassembler) (bytes : Bytes) :
    (machine.collect bytes).control.opcode = machine.control.opcode := by
  simp only [collect, append]
  split <;> rfl

/-- The bytes go to one of the two buffers and leave the other one as it is. -/
theorem buffers_collect (machine : Reassembler) (bytes : Bytes) :
    if machine.opcode.isControl then (machine.collect bytes).buffered = machine.buffered
    else (machine.collect bytes).gathered = (machine.collect bytes).buffered ∧
      (machine.collect bytes).control = machine.control := by
  cases control : machine.opcode.isControl <;>
    simp [gathered, buffered, collect, append, control]

theorem Sound.collect (sound : machine.Sound limits) (now : machine.stage = .payload)
    (fits : bytes.length ≤ machine.remaining) : (machine.collect bytes).Sound limits := by
  have accepted : machine.isAccepted = true := by simp only [isAccepted, now]
  have reading : machine.isReading = true := by simp only [isReading, now]
  have room : (machine.collect bytes).gathered + (machine.collect bytes).remaining ≤
      machine.allowance limits := by
    have before := sound.room accepted
    have left : (machine.collect bytes).remaining = machine.remaining - bytes.length := rfl
    rw [gathered_collect, left]
    omega
  have assembling : (machine.collect bytes).isAssembling = machine.isAssembling :=
    congrArg Option.isSome (message_opcode_collect machine bytes)
  have opcode : (machine.collect bytes).opcode = machine.opcode := rfl
  have stage : (machine.collect bytes).stage = machine.stage := rfl
  have buffers := buffers_collect machine bytes
  constructor
  case message =>
    split at buffers
    · exact buffers ▸ sound.message
    · next data =>
      rw [allowance, if_neg data, buffers.1] at room
      omega
  case room => exact fun _ => room
  case payload => exact fun _ => Nat.le_trans (Nat.sub_le ..) (sound.payload accepted)
  case whole => simp [stage, now]
  case untouched =>
    rintro (other | data)
    · exact absurd now (stage ▸ other)
    · rw [opcode] at data
      rw [if_neg (Bool.eq_false_iff.mp data)] at buffers
      rw [buffers.2]
      exact sound.untouched (.inr data)
  case unbegun =>
    -- Between two messages only a control frame has a payload.
    rw [assembling]
    intro idle
    split at buffers
    · exact buffers.trans (sound.unbegun idle)
    · next data => exact absurd (sound.begun reading (Bool.eq_false_iff.mpr data)) (by simp [idle])
  case begun => exact fun _ data => assembling.trans (sound.begun reading data)
  case kind =>
    rw [message_opcode_collect]
    exact sound.kind
  case plain => exact (control_opcode_collect machine bytes).trans sound.plain

/-- The end of a frame empties the buffer of what is handed over. -/
theorem Sound.complete (sound : machine.Sound limits) : machine.complete.1.Sound limits := by
  have plain := sound.plain
  unfold Reassembler.complete
  split
  case h_1 | h_2 => exact sound_of_idle rfl sound.message sound.unbegun sound.kind rfl
  case h_3 =>
    exact sound_of_idle rfl sound.message sound.unbegun sound.kind (Accumulator.eq_of_eq rfl plain)
  all_goals
    next opcode =>
      have buffer : machine.control.buffer = #[] := sound.untouched (.inr (opcode ▸ rfl))
      have empty : machine.control = {} := Accumulator.eq_of_eq buffer plain
      split
      · exact sound_of_idle rfl (Nat.zero_le _) (fun _ => rfl) nofun empty
      · exact sound_of_idle rfl sound.message sound.unbegun sound.kind empty

/-! ## Every stage -/

theorem sound_proceed (machine : Reassembler) (bytes : Bytes) (sound : machine.Sound limits) :
    (machine.proceed limits bytes).Keeps (Sound limits) := by
  unfold proceed
  split
  case h_1 now =>
    unfold readStart
    split
    · exact sound
    · split
      · exact sound_abort machine
      · next opens => exact sound.openFrame now opens
  case h_2 now =>
    unfold readLength
    split
    · exact sound
    · split
      · exact sound_abort machine
      · exact sound.announced now _ _
  case h_3 now =>
    refine keeps_readWhile (fun machine => machine.stage = .extendedLength ∧ machine.Sound limits)
      ?_ (fun _ during => during.2) ?_ ⟨now, sound⟩
    · rintro machine byte ⟨now, sound⟩
      refine ⟨now, sound.header (by simp [now]) (by simp only [isReading, now]) rfl ?_ ?_ ?_⟩
      all_goals simp [takeLength, isAccepted, now]
    · rintro machine bytes ⟨now, sound⟩
      unfold endLength
      split
      · exact sound_abort machine
      · next accepted => exact sound.accepted now accepted
  case h_4 now =>
    refine keeps_readWhile (fun machine => machine.stage = .key ∧ machine.Sound limits) ?_
      (fun _ during => during.2) ?_ ⟨now, sound⟩
    · rintro machine byte ⟨now, sound⟩
      exact ⟨now, { sound with }⟩
    · rintro machine bytes ⟨now, sound⟩
      exact sound.keyed now
  case h_5 now => exact sound.extended now
  case h_6 now =>
    have taken := sound.collect now (List.length_take_le machine.remaining bytes)
    simp only [readPayload]
    split
    · exact taken
    · exact taken.complete
  case h_7 => exact sound

theorem Sound.feedFrom (sound : machine.Sound limits) :
    (machine.feedFrom limits bytes events).machine.Sound limits :=
  keeps_passes sound_proceed sound _ mem_passes_feedFrom

/-! ## Between the blocks -/

theorem last_feedEach_of_closing (closed : machine.stage = .closing) (blocks : List Bytes) :
    machine.last (machine.feedEach limits blocks) = machine := by
  induction blocks with
  | nil => rfl
  | cons block blocks ih =>
    have silent : machine.feed limits block = { machine } := feedFrom_of_closing closed
    simp only [feedEach, last, silent]
    exact ih

theorem exists_abort_of_violation {error : Error}
    (h : (machine.feedFrom limits bytes events).violation = some error) :
    ∃ rejected : Reassembler, (machine.feedFrom limits bytes events).machine = rejected.abort := by
  fun_induction feedFrom limits machine bytes events with
  | case1 => cases h
  | case2 machine bytes events next rest event _ ih => exact ih h
  | case3 machine bytes events next => exact ⟨next, rfl⟩

/-- After a breach nothing is held any more. -/
theorem last_of_violation (blocks : List Bytes)
    (broken : ∃ fed ∈ machine.feedEach limits blocks, fed.violation.isSome = true) :
    ∃ rejected : Reassembler, machine.last (machine.feedEach limits blocks) = rejected.abort := by
  induction blocks generalizing machine with
  | nil =>
    obtain ⟨fed, member, -⟩ := broken
    cases member
  | cons block blocks ih =>
    simp only [feedEach, last]
    cases now : (machine.feed limits block).violation with
    | some error =>
      obtain ⟨rejected, aborted⟩ := exists_abort_of_violation now
      have closed : (machine.feed limits block).machine.stage = .closing := stage_of_violation now
      exact ⟨rejected, (last_feedEach_of_closing closed blocks).trans aborted⟩
    | none =>
      refine ih ?_
      obtain ⟨fed, member, violation⟩ := broken
      rcases List.mem_cons.mp member with rfl | later
      · simp [now] at violation
      · exact ⟨fed, later, violation⟩

/-- The machine behind the blocks is one of those that their feeds pass. -/
theorem last_mem_passesEach (blocks : List Bytes) :
    machine.last (machine.feedEach limits blocks) ∈ machine.passesEach limits blocks := by
  induction blocks generalizing machine with
  | nil => exact List.mem_singleton_self _
  | cons block blocks ih => exact List.mem_append_right _ ih

/-- Whatever blocks a machine has been fed, it is sound. -/
theorem sound_last (limits : Limits) (blocks : List Bytes) :
    Sound limits (last {} (feedEach limits {} blocks)) :=
  keeps_passesEach sound_proceed sound_fresh blocks _ (last_mem_passesEach blocks)

/-! ## The bounds -/

/-- What the frame of a data message has still to bring, once its length is accepted. -/
def dataDue (machine : Reassembler) : Nat :=
  if machine.isAccepted && !machine.opcode.isControl then machine.remaining else 0

/-- What a control frame has still to bring, once its length is accepted. -/
def controlDue (machine : Reassembler) : Nat :=
  if machine.isAccepted && machine.opcode.isControl then machine.remaining else 0

/-- What the buffer of the frame's class is asked to make room for: the whole payload, in the stage
before any of it is taken. -/
def reserve (machine : Reassembler) : Nat :=
  if machine.stage = .extension then machine.payloadLength.toNat else 0

/-- What a machine holds and has still to take is within the limits. -/
structure Bounded (limits : Limits) (machine : Reassembler) : Prop where
  message : machine.buffered + machine.dataDue ≤ limits.maxMessage
  control : machine.control.buffer.size + machine.controlDue ≤
    min Error.maxControlPayload (min limits.maxPayload limits.maxMessage)
  /-- Nothing of a control frame is held unless one is being read. -/
  silent : ¬ (machine.isReading = true ∧ machine.opcode.isControl = true) →
    machine.control.buffer = #[]
  /-- Nothing of a message is held unless one is in progress. -/
  unbegun : machine.isAssembling = false → machine.buffered = 0
  payload : machine.reserve ≤ limits.maxPayload
  reserved : machine.gathered + machine.reserve ≤ machine.allowance limits

theorem Sound.size_control (sound : machine.Sound limits) :
    machine.control.buffer.size + machine.controlDue ≤ limits.maxControl := by
  unfold controlDue
  split
  · next reads =>
    obtain ⟨accepted, control⟩ := Bool.and_eq_true_iff.mp reads
    simpa only [gathered, allowance, control, if_true] using sound.room accepted
  · next other =>
    have empty : machine.control.buffer = #[] := by
      refine sound.untouched ?_
      by_cases now : machine.stage = .payload
      · exact .inr (by simpa [isAccepted, now] using other)
      · exact .inl now
    simp [empty]

theorem Sound.bounded (sound : machine.Sound limits) : machine.Bounded limits where
  message := by
    unfold dataDue
    split
    · next reads =>
      obtain ⟨accepted, data⟩ := Bool.and_eq_true_iff.mp reads
      have data : machine.opcode.isControl = false := by simpa using data
      simpa only [gathered, allowance, data, Bool.false_eq_true, if_false] using
        sound.room accepted
    · exact sound.message
  control := sound.size_control
  silent idle := by
    refine sound.untouched ?_
    by_cases now : machine.stage = .payload
    · exact .inr (by simpa [isReading, now] using idle)
    · exact .inl now
  unbegun := sound.unbegun
  payload := by
    unfold reserve
    split
    · next now =>
      rw [← sound.whole (.inr now)]
      exact sound.payload (by simp only [isAccepted, now])
    · exact Nat.zero_le _
  reserved := by
    unfold reserve
    split
    · next now =>
      rw [← sound.whole (.inr now)]
      exact sound.room (by simp only [isAccepted, now])
    · unfold gathered allowance
      split
      · exact Nat.le_trans (Nat.add_le_add_left (Nat.zero_le _) _) sound.size_control
      · exact sound.message

/-- **What is held and what is reported is within the limits.** However the bytes of a client are
cut into blocks, every machine that is passed keeps to the bounds, between two stages of a frame and
between two blocks; after a breach nothing is held; and so no event exceeds the limits. -/
theorem bounded_passesEach (limits : Limits) (blocks : List Bytes) :
    let fresh : Reassembler := {}
    let feeds := fresh.feedEach limits blocks
    (∀ machine ∈ fresh.passesEach limits blocks, machine.Bounded limits) ∧
      fresh.last feeds ∈ fresh.passesEach limits blocks ∧
      ((∃ fed ∈ feeds, fed.violation.isSome = true) →
        (fresh.last feeds).control.buffer = #[] ∧ (fresh.last feeds).message.buffer = #[]) ∧
      ∀ fed ∈ feeds, ∀ event ∈ fed.events, event.Within limits := by
  intro fresh feeds
  refine ⟨fun machine member => ?_, last_mem_passesEach blocks, fun broken => ?_, ?_⟩
  · exact (keeps_passesEach sound_proceed sound_fresh blocks machine member).bounded
  · obtain ⟨rejected, aborted⟩ := last_of_violation blocks broken
    exact aborted ▸ ⟨rfl, rfl⟩
  · intro fed member event reported
    have joined := (feedEach_of_isSettled blocks (isSettled_fresh : fresh.IsSettled limits)).1
    have decoded : (fresh.feed limits blocks.flatten).events.toList =
        (Grammar.decode limits none blocks.flatten).events :=
      (feedFrom_eq_decode atFrame_fresh #[]).1
    have among : event ∈ feeds.flatMap (·.events.toList) :=
      List.mem_flatMap.mpr ⟨fed, member, Array.mem_toList_iff.mpr reported⟩
    have none_unfinished : Grammar.IsData none := by simp [Grammar.IsData]
    rw [joined, decoded] at among
    exact Grammar.within_decode none_unfinished event among

/-- A ping that is cut, between two fragments of which the second is refused. -/
theorem bounded_passesEach_cut :
    let limits : Limits := { maxPayload := 4, maxMessage := 5 }
    let fresh : Reassembler := {}
    let blocks : List Bytes :=
      [[0x01, 0x82, 0, 0, 0, 0, 72, 105, 0x89, 0x83, 1, 2, 3, 4, 9], [9, 9], [0x80, 0x84]]
    let feeds := fresh.feedEach limits blocks
    let last := fresh.last feeds
    last.Bounded limits ∧ last.control.buffer = #[] ∧ last.message.buffer = #[] ∧
      Event.Within limits (.ping [8, 11, 10]) := by
  intro limits fresh blocks feeds last
  obtain ⟨bounded, passed, spent, within⟩ := bounded_passesEach limits blocks
  have broken : ∃ fed ∈ feeds, fed.violation.isSome = true := by decide +kernel
  have reported : ∃ fed ∈ feeds, .ping [8, 11, 10] ∈ fed.events := by decide +kernel
  obtain ⟨fed, member, pinged⟩ := reported
  exact ⟨bounded last passed, (spent broken).1, (spent broken).2, within fed member _ pinged⟩

end Reassembler

end WebSocket
