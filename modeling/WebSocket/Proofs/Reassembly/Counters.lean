import WebSocket.Proofs.BigEndian
import WebSocket.Proofs.Reassembly.Bounds
import WebSocket.Proofs.Reassembly.Visits

/-!
# What the counters count

Between two bytes a machine keeps its place in a frame by counting: how many bytes of the length are
missing, how many of the key are read, how many of the payload are read and how many are missing.
`Partway` says for each stage what the bytes of the frame that have been read make of these
counters, of the length, the key and the buffers. Every stage leaves what the next one needs
(`accounts_proceed`), so that each machine that a feed comes to has accounted for all bytes before
it (`Visits.accounted_behind`), and no counter runs past its end (`visits_feed`).

What a counter loses in a stage is stated as a sum, since a difference of natural numbers that ran
below zero would be zero.
-/

namespace WebSocket.Reassembler

variable {limits : Limits} {base machine next last : Reassembler}
  {bytes rest digits key content more read consumed : Bytes} {first second : UInt8}
  {event : Option Event} {error : Error} {visits front back : List Visit} {visit : Visit}

/-! ## The bytes of a frame -/

/-- How many bytes of length follow the second byte of a frame. -/
def digitsOf (second : UInt8) : Nat := Grammar.lengthWidth (second.toNat % 128)

/-- The length that the second byte of a frame and the bytes behind it spell. -/
def lengthOf (second : UInt8) (digits : Bytes) : Nat :=
  if digitsOf second = 0 then second.toNat % 128 else BigEndian.decode digits

/-- A whole frame: each part of it is as long as those before it say. -/
inductive IsFrame : Bytes → Prop where
  | intro {first second : UInt8} {digits key content : Bytes}
    (width : digits.length = digitsOf second) (four : key.length = 4)
    (size : content.length = lengthOf second digits) :
    IsFrame (first :: second :: digits ++ key ++ content)

/-- Since it was `base` the machine has begun a frame with this byte and has put this content behind
what the buffer of the frame's class had. -/
structure Added (base machine : Reassembler) (first : UInt8) (content : Bytes) : Prop where
  opcode : machine.opcode.code = first.toNat % 16
  control : machine.control.buffer.toList =
    base.control.buffer.toList ++ if machine.opcode.isControl then content else []
  message : machine.message.buffer.toList =
    base.message.buffer.toList ++ if machine.opcode.isControl then [] else content

/-- The machine has read a length from all its bytes. -/
structure Measured (machine : Reassembler) (second : UInt8) (digits : Bytes) : Prop where
  width : digits.length = digitsOf second
  value : machine.payloadLength.toNat = lengthOf second digits

/-- Since it was `base`, between two frames, the machine has read these bytes of a frame. -/
inductive Partway (limits : Limits) (base : Reassembler) : Bytes → Reassembler → Prop where
  | start (now : base.stage = .start) : Partway limits base [] base
  | length {machine : Reassembler} {first : UInt8} (now : machine.stage = .length)
    (added : base.Added machine first []) : Partway limits base [first] machine
  | extendedLength {machine : Reassembler} {first second : UInt8} {digits : Bytes}
    (now : machine.stage = .extendedLength) (added : base.Added machine first [])
    (count : digits.length + machine.lengthMissing = digitsOf second)
    (value : machine.payloadLength.toNat = lengthOf second digits) :
    Partway limits base (first :: second :: digits) machine
  | key {machine : Reassembler} {first second : UInt8} {digits key : Bytes}
    (now : machine.stage = .key) (added : base.Added machine first [])
    (measured : machine.Measured second digits)
    (accepted : machine.payloadLength.toNat ≤ limits.maxPayload)
    (remaining : machine.remaining = machine.payloadLength.toNat)
    (count : machine.keyRead = key.length) (short : key.length < 4)
    (placed : machine.mask.toBytes.take key.length = key) :
    Partway limits base (first :: second :: digits ++ key) machine
  | extension {machine : Reassembler} {first second : UInt8} {digits key : Bytes}
    (now : machine.stage = .extension) (added : base.Added machine first [])
    (measured : machine.Measured second digits)
    (accepted : machine.payloadLength.toNat ≤ limits.maxPayload)
    (remaining : machine.remaining = machine.payloadLength.toNat)
    (placed : machine.mask.toBytes = key)
    (masked : machine.masked = decide (machine.mask ≠ .zero)) (offset : machine.offset = 0) :
    Partway limits base (first :: second :: digits ++ key) machine
  | payload {machine : Reassembler} {first second : UInt8} {digits key content : Bytes}
    (now : machine.stage = .payload)
    (added : base.Added machine first (machine.mask.applyAt 0 content))
    (measured : machine.Measured second digits)
    (accepted : machine.payloadLength.toNat ≤ limits.maxPayload)
    (placed : machine.mask.toBytes = key)
    (masked : machine.masked = decide (machine.mask ≠ .zero))
    (count : machine.offset = content.length)
    (balance : machine.offset + machine.remaining = machine.payloadLength.toNat) :
    Partway limits base (first :: second :: digits ++ key ++ content) machine

/-- Only the opcode and the buffers count. -/
theorem Added.congr (added : base.Added machine first content)
    (same : (next.opcode, next.control, next.message) =
      (machine.opcode, machine.control, machine.message)) : base.Added next first content := by
  simp only [Prod.mk.injEq] at same
  obtain ⟨opcode, control, message⟩ := same
  constructor
  · exact opcode ▸ added.opcode
  · rw [opcode, control]
    exact added.control
  · rw [opcode, message]
    exact added.message

/-! ## The header -/

theorem code_of_ofCode {number : Nat} {opcode : Opcode}
    (named : Opcode.ofCode number = .ok opcode) : opcode.code = number := by
  unfold Opcode.ofCode at named
  split at named
  all_goals
    cases named
    try rfl

theorem added_of_openFrame (opens : machine.openFrame first = .ok next) :
    machine.Added { next with stage := .length } first [] := by
  unfold openFrame at opens
  split at opens
  · cases opens
  · split at opens
    · cases opens
    · next opcode named =>
      have code : opcode.code = first.toNat % 16 :=
        (code_of_ofCode named).trans (toNat_and_low first)
      simp only [beginFrame] at opens
      split_ifs at opens
      all_goals
        cases opens
        exact ⟨code, by simp, by simp⟩

theorem takeLengths_eq (machine : Reassembler) (digits : Bytes) :
    machine.takeLengths digits =
      { machine with
        payloadLength := (machine.takeLengths digits).payloadLength
        lengthMissing := machine.lengthMissing - digits.length } := by
  induction digits generalizing machine with
  | nil => rfl
  | cons byte rest ih =>
    refine (ih (machine.takeLength byte)).trans ?_
    simp only [takeLength, List.length_cons, Nat.sub_sub, Nat.add_comm 1]
    rfl

/-- No bit of a length is shifted out. -/
theorem toNat_takeLengths_lengthOf (value : machine.payloadLength.toNat = lengthOf second digits)
    (room : digits.length + more.length ≤ digitsOf second) :
    (machine.takeLengths more).payloadLength.toNat = lengthOf second (digits ++ more) := by
  by_cases inline : digitsOf second = 0
  · -- Seven bits are the whole length.
    have nothing : more = [] := List.eq_nil_of_length_eq_zero (by omega)
    rw [nothing, List.append_nil]
    exact value
  · rw [lengthOf, if_neg inline] at value ⊢
    have widest : digitsOf second ≤ 8 := lengthWidth_le _
    have fits : (machine.payloadLength.toNat + 1) * 256 ^ more.length ≤ 2 ^ 64 :=
      calc (machine.payloadLength.toNat + 1) * 256 ^ more.length
        _ ≤ 256 ^ digits.length * 256 ^ more.length := by
          rw [value]
          exact Nat.mul_le_mul_right _ (BigEndian.decode_lt digits)
        _ = 256 ^ (digits.length + more.length) := (Nat.pow_add ..).symm
        _ ≤ 256 ^ 8 := Nat.pow_le_pow_right (by decide) (Nat.le_trans room widest)
    rw [toNat_takeLengths more fits, value, BigEndian.decode, BigEndian.decode, List.foldl_append]

/-! ## The key -/

theorem takeKeys_eq (machine : Reassembler) (key : Bytes) :
    machine.takeKeys key =
      { machine with
        mask := (machine.takeKeys key).mask, keyRead := machine.keyRead + key.length } := by
  induction key generalizing machine with
  | nil => rfl
  | cons byte rest ih =>
    refine (ih (machine.takeKey byte)).trans ?_
    simp only [takeKey, List.length_cons, Nat.add_assoc, Nat.add_comm 1]
    rfl

theorem take_set (mask : Mask) {place : Nat} (within : place < 4) (byte : UInt8) :
    (mask.set place byte).toBytes.take (place + 1) = mask.toBytes.take place ++ [byte] := by
  match place with
  | 0 | 1 | 2 | 3 => rfl

/-- The bytes of a key are put one behind the other, and none of them beyond its end. -/
theorem placed_takeKeys (count : machine.keyRead = key.length)
    (placed : machine.mask.toBytes.take key.length = key) (room : key.length + more.length ≤ 4) :
    (machine.takeKeys more).mask.toBytes.take (key ++ more).length = key ++ more := by
  induction more generalizing machine key with
  | nil =>
    rw [List.append_nil]
    exact placed
  | cons byte rest ih =>
    rw [List.length_cons] at room
    have within : key.length < 4 := by omega
    have longer : (key ++ [byte]).length = key.length + 1 := List.length_append
    have further : (machine.takeKey byte).mask.toBytes.take (key ++ [byte]).length =
        key ++ [byte] := by
      rw [longer, takeKey, count, take_set machine.mask within, placed]
    have counted : (machine.takeKey byte).keyRead = (key ++ [byte]).length := by
      rw [longer, takeKey, count]
    have later := ih counted further (by rw [longer]; omega)
    rwa [List.append_assoc] at later

/-! ## The payload -/

theorem Added.collect (added : base.Added machine first content) (bytes : Bytes) :
    base.Added (machine.collect bytes) first (content ++ machine.unmask bytes) := by
  obtain ⟨opcode, control, message⟩ := added
  constructor
  · exact opcode
  all_goals
    simp only [Reassembler.collect, append]
    split_ifs at control message ⊢
    all_goals simp_all [toList_append]

/-! ## Every stage -/

/-- Where the machine was reading a length, `next` has it from these bytes of the frame. -/
def Told (machine next : Reassembler) (read : Bytes) : Prop :=
  machine.stage = .extendedLength → ∃ first second digits,
    read = first :: second :: digits ∧ next.Measured second digits

theorem told_of_stage {stage : Stage} (now : machine.stage = stage)
    (elsewhere : stage ≠ .extendedLength) : Told machine next read :=
  fun here => absurd (now.symm.trans here) elsewhere

/-- What a stage makes of the bytes that it takes: more of the frame of which `read` has been read,
or all of it. When a length ends, it is told by its bytes, also where it is refused. -/
inductive Accounts (limits : Limits) (base machine : Reassembler) (read taken : Bytes) :
    Progress → Prop where
  | pause {next : Reassembler} (partway : Partway limits base (read ++ taken) next) :
    Accounts limits base machine read taken (.pause next)
  | advance {next : Reassembler} {rest : Bytes} {event : Option Event}
    (partway : Partway limits base (read ++ taken) next)
    (told : Told machine next (read ++ taken)) :
    Accounts limits base machine read taken (.advance next rest event)
  | complete {next : Reassembler} {rest : Bytes} {event : Option Event}
    (frame : IsFrame (read ++ taken)) (ended : next.stage = .start ∨ next.stage = .closing)
    (told : Told machine next (read ++ taken)) :
    Accounts limits base machine read taken (.advance next rest event)
  | reject {next : Reassembler} {error : Error}
    (told : Told machine next (read ++ taken)) :
    Accounts limits base machine read taken (.reject next error)

theorem accounts_readStart (now : machine.stage = .start) :
    Accounts limits machine machine [] (bytes.take 1) (machine.readStart bytes) := by
  cases bytes with
  | nil => exact .pause (.start now)
  | cons first rest =>
    simp only [readStart]
    split
    · exact .reject (told_of_stage now (by decide))
    · next opens =>
      exact .advance (.length rfl (added_of_openFrame opens)) (told_of_stage now (by decide))

theorem accounts_readLength (now : machine.stage = .length)
    (added : base.Added machine first []) :
    Accounts limits base machine [first] (bytes.take 1) (machine.readLength bytes) := by
  cases bytes with
  | nil => exact .pause (.length now added)
  | cons second rest =>
    simp only [readLength]
    split
    · exact .reject (told_of_stage now (by decide))
    · have partway : Partway limits base (first :: second :: [])
          { machine with
            stage := .extendedLength
            payloadLength := (announced (second &&& 0x7F)).1
            lengthMissing := (announced (second &&& 0x7F)).2 } := by
        refine .extendedLength rfl (added.congr rfl) ?_ ?_
        · simp only [List.length_nil, Nat.zero_add, announced_snd, toNat_and_lengthBits]
          rfl
        · simp only [toNat_announced_fst, toNat_and_lengthBits]
          rfl
      exact .advance partway (told_of_stage now (by decide))

theorem accounts_readExtendedLength (now : machine.stage = .extendedLength)
    (added : base.Added machine first [])
    (count : digits.length + machine.lengthMissing = digitsOf second)
    (value : machine.payloadLength.toNat = lengthOf second digits) :
    Accounts limits base machine (first :: second :: digits) (bytes.take machine.lengthMissing)
      (machine.readExtendedLength limits bytes) := by
  have still (more : Bytes) : base.Added (machine.takeLengths more) first [] :=
    added.congr (by rw [takeLengths_eq])
  rw [readExtendedLength, readWhile_length]
  split
  · next short =>
    rw [List.take_of_length_le (Nat.le_of_lt short)]
    have partway : Partway limits base (first :: second :: (digits ++ bytes))
        (machine.takeLengths bytes) := by
      refine .extendedLength ?_ (still bytes) ?_ (toNat_takeLengths_lengthOf value (by omega))
      · rw [takeLengths_eq]
        exact now
      · rw [takeLengths_eq, List.length_append, Nat.add_assoc, ← count]
        exact congrArg (digits.length + ·) (Nat.add_sub_cancel' (Nat.le_of_lt short))
    exact .pause partway
  · next enough =>
    have all : (bytes.take machine.lengthMissing).length = machine.lengthMissing := by
      rw [List.length_take]
      omega
    generalize bytes.take machine.lengthMissing = taken at all ⊢
    have measured : (machine.takeLengths taken).Measured second (digits ++ taken) := by
      constructor
      · rw [List.length_append, all, count]
      · exact toNat_takeLengths_lengthOf value (by omega)
    have told : Told machine (machine.takeLengths taken) (first :: second :: digits ++ taken) :=
      fun _ => ⟨first, second, digits ++ taken, rfl, measured⟩
    unfold endLength
    split
    · exact .reject told
    · next accepted =>
      have partway : Partway limits base (first :: second :: (digits ++ taken) ++ [])
          { machine.takeLengths taken with
            stage := .key, remaining := (machine.takeLengths taken).payloadLength.toNat
            keyRead := 0 } :=
        .key rfl ((still taken).congr rfl) ⟨measured.width, measured.value⟩
          (le_maxPayload_of_checkLength accepted) rfl rfl (by decide) rfl
      rw [List.append_nil] at partway
      exact .advance partway fun _ =>
        ⟨first, second, digits ++ taken, rfl, measured.width, measured.value⟩

section Accepted

variable (measured : machine.Measured second digits)
  (accepted : machine.payloadLength.toNat ≤ limits.maxPayload)
include measured accepted

theorem accounts_readKey (now : machine.stage = .key) (added : base.Added machine first [])
    (remaining : machine.remaining = machine.payloadLength.toNat)
    (count : machine.keyRead = key.length) (short : key.length < 4)
    (placed : machine.mask.toBytes.take key.length = key) :
    Accounts limits base machine (first :: second :: digits ++ key)
      (bytes.take (4 - machine.keyRead)) (machine.readKey bytes) := by
  rw [readKey, readWhile_key]
  split
  · next fewer =>
    rw [List.take_of_length_le (Nat.le_of_lt fewer)]
    have placed : (machine.takeKeys bytes).mask.toBytes.take (key ++ bytes).length = key ++ bytes :=
      placed_takeKeys count placed (by omega)
    have longer : (machine.takeKeys bytes).keyRead = (key ++ bytes).length := by
      rw [takeKeys_eq, List.length_append, count]
    have room : (key ++ bytes).length < 4 := by
      rw [List.length_append]
      omega
    have partway : Partway limits base (first :: second :: digits ++ (key ++ bytes))
        (machine.takeKeys bytes) := by
      refine .key ?_ (added.congr ?_) ?_ ?_ ?_ longer room placed
      all_goals rw [takeKeys_eq]
      · exact now
      · exact ⟨measured.width, measured.value⟩
      · exact accepted
      · exact remaining
    rw [← List.append_assoc] at partway
    exact .pause partway
  · next enough =>
    have four : (key ++ bytes.take (4 - machine.keyRead)).length = 4 := by
      rw [List.length_append, List.length_take]
      omega
    generalize bytes.take (4 - machine.keyRead) = taken at four ⊢
    have placed : (machine.takeKeys taken).mask.toBytes.take (key ++ taken).length = key ++ taken :=
      placed_takeKeys count placed (by rw [← List.length_append, four])
    rw [four] at placed
    have partway : Partway limits base (first :: second :: digits ++ (key ++ taken))
        { machine.takeKeys taken with
          stage := .extension, keyRead := 0, offset := 0
          masked := (machine.takeKeys taken).mask ≠ .zero } := by
      refine .extension rfl (added.congr ?_) ?_ ?_ ?_ placed rfl rfl
      all_goals rw [takeKeys_eq]
      · exact ⟨measured.width, measured.value⟩
      · exact accepted
      · exact remaining
    rw [← List.append_assoc] at partway
    exact .advance partway (told_of_stage now (by decide))

theorem accounts_extension (now : machine.stage = .extension)
    (added : base.Added machine first [])
    (remaining : machine.remaining = machine.payloadLength.toNat)
    (placed : machine.mask.toBytes = key)
    (masked : machine.masked = decide (machine.mask ≠ .zero)) (offset : machine.offset = 0) :
    Accounts limits base machine (first :: second :: digits ++ key) (bytes.take 0)
      (.advance { machine with stage := .payload } bytes none) := by
  have balance : machine.offset + machine.remaining = machine.payloadLength.toNat := by
    rw [offset, remaining, Nat.zero_add]
  have partway : Partway limits base (first :: second :: digits ++ key ++ [])
      { machine with stage := .payload } :=
    .payload rfl (added.congr rfl) ⟨measured.width, measured.value⟩ accepted placed masked offset
      balance
  exact .advance partway (told_of_stage now (by decide))

theorem accounts_readPayload (now : machine.stage = .payload)
    (added : base.Added machine first (machine.mask.applyAt 0 content))
    (placed : machine.mask.toBytes = key)
    (masked : machine.masked = decide (machine.mask ≠ .zero))
    (count : machine.offset = content.length)
    (balance : machine.offset + machine.remaining = machine.payloadLength.toNat) :
    Accounts limits base machine (first :: second :: digits ++ key ++ content)
      (bytes.take machine.remaining) (machine.readPayload bytes) := by
  have fits : (bytes.take machine.remaining).length ≤ machine.remaining := List.length_take_le ..
  simp only [readPayload]
  generalize bytes.take machine.remaining = taken at fits ⊢
  have longer : (machine.collect taken).offset = (content ++ taken).length := by
    rw [List.length_append, ← count]
    rfl
  have still : (machine.collect taken).offset + (machine.collect taken).remaining =
      machine.payloadLength.toNat := by
    simp only [collect]
    omega
  split
  · have plain : machine.unmask taken = machine.mask.applyAt (0 + content.length) taken := by
      rw [unmask_eq_applyAt masked, count, Nat.zero_add]
    have collected := added.collect taken
    rw [plain, ← Mask.applyAt_append] at collected
    have partway : Partway limits base (first :: second :: digits ++ key ++ (content ++ taken))
        (machine.collect taken) :=
      .payload now collected ⟨measured.width, measured.value⟩ accepted placed masked longer still
    rw [← List.append_assoc] at partway
    exact .pause partway
  · next complete =>
    have frame : IsFrame (first :: second :: digits ++ key ++ (content ++ taken)) := by
      refine .intro measured.width (placed ▸ rfl) ?_
      rw [← measured.value, ← still, ← longer]
      omega
    rw [← List.append_assoc] at frame
    exact .complete frame (stage_complete _) (told_of_stage now (by decide))

end Accepted

/-- Every stage leaves what the next one needs. -/
theorem accounts_proceed (partway : Partway limits base read machine) :
    Accounts limits base machine read (bytes.take machine.wanted)
      (machine.proceed limits bytes) := by
  cases partway with
  | start now =>
    simp only [proceed, wanted, now]
    exact accounts_readStart now
  | length now added =>
    simp only [proceed, wanted, now]
    exact accounts_readLength now added
  | extendedLength now added count value =>
    simp only [proceed, wanted, now]
    exact accounts_readExtendedLength now added count value
  | key now added measured accepted remaining count short placed =>
    simp only [proceed, wanted, now]
    exact accounts_readKey measured accepted now added remaining count short placed
  | extension now added measured accepted remaining placed masked offset =>
    simp only [proceed, wanted, now]
    exact accounts_extension measured accepted now added remaining placed masked offset
  | payload now added measured accepted placed masked count balance =>
    simp only [proceed, wanted, now]
    exact accounts_readPayload measured accepted now added placed masked count balance

/-! ## Behind the bytes of the wire -/

/-- The machine stands where these bytes lead a fresh one. Unless it is closed they are whole frames
and what it has read of one more. -/
structure Accounted (limits : Limits) (consumed : Bytes) (machine : Reassembler) : Prop where
  reached : (feed limits {} consumed).machine = (machine.feed limits []).machine
  partway : machine.stage ≠ .closing → ∃ (frames : List Bytes) (read : Bytes),
    consumed = frames.flatten ++ read ∧ (∀ frame ∈ frames, IsFrame frame) ∧
    Partway limits (feed limits {} frames.flatten).machine read machine

theorem accounted_fresh (limits : Limits) : Accounted limits [] {} := by
  have here : feed limits {} [] = { machine := {} } := feed_nil isSettled_fresh
  refine ⟨rfl, fun _ => ⟨[], [], rfl, nofun, ?_⟩⟩
  rw [List.flatten_nil, here]
  exact .start rfl

namespace Accounted

variable (accounted : machine.Accounted limits consumed)
include accounted

/-- It goes on as a fresh machine does that has been fed the bytes before. -/
theorem machine_feed (more : Bytes) :
    (feed limits {} (consumed ++ more)).machine = (machine.feed limits more).machine := by
  have alone := feed_append limits machine [] more
  rw [List.nil_append] at alone
  rw [feed_append, alone]
  simp only [accounted.reached]

theorem pause (paused : machine.proceed limits bytes = .pause next) :
    next.Accounted limits (consumed ++ bytes.take machine.wanted) := by
  rcases wanted_of_pause paused with ⟨closed, rfl⟩ | short
  · rw [wanted_of_closing closed, List.take_zero, List.append_nil]
    exact accounted
  · have awake : machine.stage ≠ .closing := by
      intro closed
      rw [wanted_of_closing closed] at short
      omega
    obtain ⟨frames, read, rfl, whole, partway⟩ := accounted.partway awake
    have accounts : Accounts limits _ machine read (bytes.take machine.wanted)
        (machine.proceed limits bytes) := accounts_proceed partway
    rw [paused] at accounts
    cases accounts with
    | pause partway =>
      refine ⟨?_, fun _ => ⟨frames, _, List.append_assoc .., whole, partway⟩⟩
      have fed : machine.feed limits bytes = { machine := next } := feedFrom_of_pause paused
      have settled : (machine.feed limits bytes).machine.IsSettled limits := isSettled_feedFrom
      rw [List.take_of_length_le (Nat.le_of_lt short), accounted.machine_feed]
      rw [fed] at settled ⊢
      rw [feed_nil settled]

theorem advance (passed : machine.proceed limits bytes = .advance next rest event) :
    next.Accounted limits (consumed ++ bytes.take machine.wanted) := by
  have reached : (feed limits {} (consumed ++ bytes.take machine.wanted)).machine =
      (next.feed limits []).machine := by
    rw [accounted.machine_feed, feed, feedFrom_of_advance (proceed_taken_of_advance passed),
      feedFrom_eq]
  refine ⟨reached, fun awake => ?_⟩
  obtain ⟨frames, read, rfl, whole, partway⟩ := accounted.partway (awake_of_advance passed)
  have accounts : Accounts limits _ machine read (bytes.take machine.wanted)
      (machine.proceed limits bytes) := accounts_proceed partway
  rw [passed] at accounts
  cases accounts with
  | advance partway => exact ⟨frames, _, List.append_assoc .., whole, partway⟩
  | complete frame ended =>
    -- The machine that the next frame begins with is the one that the frames so far lead to.
    have start : next.stage = .start := ended.resolve_right awake
    have settled : next.IsSettled limits := by simp only [IsSettled, proceed, start, readStart]
    have further : (frames ++ [read ++ bytes.take machine.wanted]).flatten =
        frames.flatten ++ read ++ bytes.take machine.wanted := by simp
    refine ⟨frames ++ [read ++ bytes.take machine.wanted], [], ?_, ?_, ?_⟩
    · rw [further, List.append_nil]
    · exact List.forall_mem_append.mpr ⟨whole, List.forall_mem_singleton.mpr frame⟩
    · rw [further, reached, feed_nil settled]
      exact .start start

theorem reject (rejected : machine.proceed limits bytes = .reject next error) :
    next.abort.Accounted limits (consumed ++ bytes.take machine.wanted) where
  reached := by
    have closed : next.abort.IsSettled limits := isSettled_of_closing rfl
    rw [accounted.machine_feed, feed, feedFrom_of_reject (proceed_taken_of_reject rejected),
      feed_nil closed]
  partway awake := absurd rfl awake

end Accounted

theorem Visits.accounted (visited : Visits limits machine bytes visits last)
    (start : machine.Accounted limits consumed) :
    last.Accounted limits (consumed ++ visits.flatMap (·.taken)) := by
  induction visited generalizing consumed with
  | pause paused =>
    rw [List.flatMap_singleton]
    exact start.pause paused
  | reject rejected =>
    rw [List.flatMap_singleton]
    exact start.reject rejected
  | advance passed more ih =>
    rw [List.flatMap_cons, ← List.append_assoc]
    exact ih (start.advance passed)

/-- Each machine that a feed comes to has accounted for all bytes before it. -/
theorem Visits.accounted_behind
    (visited : Visits limits machine bytes (front ++ visit :: back) last)
    (start : machine.Accounted limits consumed) :
    visit.machine.Accounted limits (consumed ++ front.flatMap (·.taken)) := by
  induction front generalizing machine bytes consumed with
  | nil =>
    rw [List.flatMap_nil, List.append_nil, visited.machine_eq]
    exact start
  | cons first front ih =>
    obtain ⟨next, event, passed, rfl, more⟩ := visited.of_cons (by simp)
    have later := ih more (start.advance passed)
    rwa [List.append_assoc] at later

theorem accounted_feed (limits : Limits) (bytes : Bytes) :
    (feed limits {} bytes).machine.Accounted limits bytes := by
  obtain ⟨visits, visited⟩ := exists_visits limits {} bytes #[]
  have settled : (feed limits {} bytes).machine.IsSettled limits := isSettled_feedFrom
  refine ⟨by rw [feed_nil settled], fun awake => ?_⟩
  have accounted := visited.accounted (accounted_fresh limits)
  rw [visited.taken.2 awake, List.nil_append] at accounted
  exact accounted.partway awake

/-! ## Every visit -/

/-- What the counters lose or gain in a visit is what the stage takes. -/
structure Visit.Balanced (visit : Visit) : Prop where
  length : visit.machine.stage = .extendedLength →
    visit.next.lengthMissing + visit.taken.length = visit.machine.lengthMissing
  key : visit.machine.stage = .key → visit.next.stage = .key →
    visit.next.keyRead = visit.machine.keyRead + visit.taken.length
  payload : visit.machine.stage = .payload →
    visit.next.remaining + visit.taken.length = visit.machine.remaining ∧
      visit.next.offset = visit.machine.offset + visit.taken.length

theorem counters_complete (machine : Reassembler) :
    machine.complete.1.remaining = machine.remaining ∧
      machine.complete.1.offset = machine.offset := by
  unfold complete
  split
  case h_4 | h_5 | h_6 => split <;> exact ⟨rfl, rfl⟩
  all_goals exact ⟨rfl, rfl⟩

theorem balanced_visit (limits : Limits) (machine : Reassembler) (bytes : Bytes) :
    (machine.visit bytes (machine.proceed limits bytes).left).Balanced where
  length := by
    simp only [visit]
    intro now
    have missing (digits : Bytes) (fits : digits.length ≤ machine.lengthMissing) :
        (machine.takeLengths digits).lengthMissing + digits.length = machine.lengthMissing := by
      rw [takeLengths_eq]
      exact Nat.sub_add_cancel fits
    simp only [proceed, wanted, now, readExtendedLength, readWhile_length]
    split
    · next short =>
      rw [List.take_of_length_le (Nat.le_of_lt short)]
      exact missing bytes (Nat.le_of_lt short)
    · have fits := missing (bytes.take machine.lengthMissing) (List.length_take_le ..)
      unfold endLength
      split <;> exact fits
  key := by
    simp only [visit]
    intro now
    simp only [proceed, wanted, now, readKey, readWhile_key]
    split
    · next short =>
      intro _
      rw [List.take_of_length_le (Nat.le_of_lt short), Progress.left, takeKeys_eq]
    · intro after
      cases after
  payload := by
    simp only [visit]
    intro now
    have fits : (bytes.take machine.remaining).length ≤ machine.remaining :=
      List.length_take_le ..
    simp only [proceed, wanted, now, readPayload]
    generalize bytes.take machine.remaining = taken at fits ⊢
    have collected : (machine.collect taken).remaining + taken.length = machine.remaining :=
      Nat.sub_add_cancel fits
    split
    · exact ⟨collected, rfl⟩
    · obtain ⟨remaining, offset⟩ := counters_complete (machine.collect taken)
      simp only [Progress.left]
      rw [remaining, offset]
      exact ⟨collected, rfl⟩

/-- What a visit does behind these bytes of the wire. -/
structure Visit.Exact (limits : Limits) (consumed : Bytes) (visit : Visit) : Prop
    extends visit.Balanced where
  accounted : visit.machine.Accounted limits consumed
  within : visit.taken.length ≤ visit.machine.wanted
  /-- A length has no more than eight bytes behind it. -/
  missing : visit.machine.stage = .extendedLength → visit.machine.lengthMissing ≤ 8
  /-- The next byte of a key has a place. -/
  place : visit.machine.stage = .key → visit.machine.keyRead < 4
  /-- When no byte of a length is missing any more, the length is what its bytes spell. -/
  told : visit.machine.stage = .extendedLength → visit.next.lengthMissing = 0 →
    ∃ (frames : List Bytes) (first second : UInt8) (digits : Bytes),
      consumed ++ visit.taken = frames.flatten ++ first :: second :: digits ∧
      (∀ frame ∈ frames, IsFrame frame) ∧ visit.next.Measured second digits

theorem Partway.lengthMissing_le (partway : Partway limits base read machine)
    (now : machine.stage = .extendedLength) : machine.lengthMissing ≤ 8 := by
  cases partway with
  | @extendedLength _ _ second digits _ _ count =>
    have widest : digitsOf second ≤ 8 := lengthWidth_le _
    omega
  | _ => simp_all

theorem Partway.keyRead_lt (partway : Partway limits base read machine)
    (now : machine.stage = .key) : machine.keyRead < 4 := by
  cases partway with
  | key _ _ _ _ _ count short => exact count ▸ short
  | _ => simp_all

theorem proceed_ne_pause_of_complete (next : Reassembler) (now : machine.stage = .extendedLength)
    (complete : (machine.proceed limits bytes).left.lengthMissing = 0) :
    machine.proceed limits bytes ≠ .pause next := by
  intro paused
  rw [paused] at complete
  simp only [proceed, now, readExtendedLength, readWhile_length] at paused
  split at paused
  · next short =>
    cases paused
    rw [Progress.left, takeLengths_eq] at complete
    exact absurd complete (Nat.sub_ne_zero_of_lt short)
  · unfold endLength at paused
    split at paused <;> cases paused

theorem Accounts.told {progress : Progress} (ends : ∀ next, progress ≠ .pause next)
    (accounts : Accounts limits base machine read content progress) :
    Told machine progress.left (read ++ content) := by
  cases accounts with
  | pause => exact absurd rfl (ends _)
  | advance _ told | complete _ _ told | reject told => exact told

theorem Accounted.exact_visit (accounted : machine.Accounted limits consumed) (bytes : Bytes) :
    (machine.visit bytes (machine.proceed limits bytes).left).Exact limits consumed where
  toBalanced := balanced_visit limits machine bytes
  accounted := accounted
  within := List.length_take_le ..
  missing now := by
    obtain ⟨frames, read, -, -, partway⟩ := accounted.partway (ne_of_eq_of_ne now (by decide))
    exact partway.lengthMissing_le now
  place now := by
    obtain ⟨frames, read, -, -, partway⟩ := accounted.partway (ne_of_eq_of_ne now (by decide))
    exact partway.keyRead_lt now
  told now complete := by
    obtain ⟨frames, read, rfl, whole, partway⟩ := accounted.partway (ne_of_eq_of_ne now (by decide))
    have accounts : Accounts limits _ machine read (bytes.take machine.wanted)
        (machine.proceed limits bytes) := accounts_proceed partway
    have ends (next : Reassembler) := proceed_ne_pause_of_complete next now complete
    obtain ⟨first, second, digits, bytes, measured⟩ := accounts.told ends now
    exact ⟨frames, first, second, digits, by rw [List.append_assoc, ← bytes]; rfl, whole, measured⟩

/-- The first of the visits does what it has to. -/
theorem Visits.exact_here (visited : Visits limits machine bytes (visit :: back) last)
    (start : machine.Accounted limits consumed) : visit.Exact limits consumed := by
  have exact := start.exact_visit bytes
  cases visited with
  | pause outcome | reject outcome | advance outcome => rwa [outcome] at exact

/-- **The counters are exact, and a feed ends.** Whatever blocks a machine has been fed, and
whatever block comes next, the feed comes to finitely many stages. They take the bytes of the block
in their order and each of them once, all of them unless the machine closes. Between two bytes at
most two stages take none. Each visit moves the counters by what it takes, within their bounds, and
the machine before it, as the one that the feed leaves, has accounted for every byte of the wire so
far. -/
theorem visits_feed (limits : Limits) (blocks : List Bytes) (block : Bytes) :
    let fresh : Reassembler := {}
    let machine := fresh.last (fresh.feedEach limits blocks)
    let fed := machine.feed limits block
    ∃ visits, Visits limits machine block visits fed.machine ∧
      visits.flatMap (·.taken) <+: block ∧
      (fed.machine.stage ≠ .closing → visits.flatMap (·.taken) = block) ∧
      visits.length ≤ 3 * block.length + 3 ∧
      (∀ front idle visit back, visits = front ++ idle ++ visit :: back →
        (∀ visit ∈ idle, visit.taken = []) → idle.length ≤ 2) ∧
      (∀ front visit back, visits = front ++ visit :: back →
        visit.Exact limits (blocks.flatten ++ front.flatMap (·.taken))) ∧
      fed.machine.Accounted limits (blocks.flatten ++ block) := by
  intro fresh machine fed
  have same : machine = (fresh.feed limits blocks.flatten).machine :=
    (feedEach_of_isSettled blocks isSettled_fresh).2.2
  have start : machine.Accounted limits blocks.flatten := same ▸ accounted_feed limits _
  have accounted : fed.machine.Accounted limits (blocks.flatten ++ block) := by
    have further := start.machine_feed block
    exact further ▸ accounted_feed limits _
  obtain ⟨visits, visited⟩ := exists_visits limits machine block #[]
  have exact : ∀ front visit back, visits = front ++ visit :: back →
      visit.Exact limits (blocks.flatten ++ front.flatMap (·.taken)) := by
    rintro front visit back rfl
    obtain ⟨rest, -, later⟩ := visited.behind
    exact later.exact_here (visited.accounted_behind start)
  have keyed : Keyed visits := by
    intro visit member
    obtain ⟨front, back, split⟩ := List.append_of_mem member
    exact (exact front visit back split).place
  obtain ⟨inOrder, all⟩ := visited.taken
  refine ⟨visits, visited, inOrder, all, ?_, ?_, exact, accounted⟩
  · have bound := visited.length_le keyed
    have ahead := machine.stage.idleAhead_le
    omega
  · intro front idle visit back split nothing
    exact visited.idle_le keyed split nothing

end WebSocket.Reassembler
