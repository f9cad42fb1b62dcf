import WebSocket.Proofs.Reassembly.Bounds
import WebSocket.Proofs.Reassembly.RoundTrip

/-!
# Pings and pongs between data

A ping or a pong between two frames changes nothing but what it reports: whatever comes behind it
leads to what it would have led to without it (`feedEach_interlude`).

The frame does overwrite the fields that all frames share. `Reassembler.live` clears the fields
that are overwritten again before they are read. A stage does the same with a machine as with what
is live of it (`live_proceed`), so machines of which the same is live show the same ever after
(`shown_feedEach`); and in front of a frame nothing is live but what is held (`live_of_atFrame`).
-/

namespace WebSocket

variable {limits : Limits} {machine first second next : Reassembler} {bytes : Bytes}

/-- The first `count` bytes of a key. -/
def Mask.upTo (mask : Mask) (count : Nat) : Mask where
  first := if 0 < count then mask.first else 0
  second := if 1 < count then mask.second else 0
  third := if 2 < count then mask.third else 0
  fourth := if 3 < count then mask.fourth else 0

/-- A machine without the fields that are overwritten before they are read. -/
def Reassembler.live (machine : Reassembler) : Reassembler :=
  match machine.stage with
  | .start | .closing =>
    { stage := machine.stage, control := machine.control, message := machine.message }
  | .length =>
    { stage := machine.stage, control := machine.control, message := machine.message
      fin := machine.fin, opcode := machine.opcode }
  | .extendedLength =>
    { machine with remaining := 0, mask := .zero, keyRead := 0, masked := false, offset := 0 }
  | .key =>
    { machine with mask := machine.mask.upTo machine.keyRead, masked := false, offset := 0 }
  | .extension | .payload => machine

def Progress.live : Progress → Progress
  | .pause machine => .pause machine.live
  | .advance machine rest event => .advance machine.live rest event
  | .reject machine error => .reject machine.live error

def Feed.live (fed : Feed) : Feed := { fed with machine := fed.machine.live }

/-- What can be seen of a feed and of the machine that it leaves. -/
structure Shown where
  events : Array Event
  violation : Option Error
  stage : Stage
  isAssembling : Bool
  buffered : Nat
  deriving DecidableEq, Repr

def Feed.shown (fed : Feed) : Shown where
  events := fed.events
  violation := fed.violation
  stage := fed.machine.stage
  isAssembling := fed.machine.isAssembling
  buffered := fed.machine.buffered

namespace Mask

theorem upTo_of_le {mask : Mask} {count : Nat} (whole : 4 ≤ count) : mask.upTo count = mask := by
  simp only [upTo, show 0 < count by omega, show 1 < count by omega, show 2 < count by omega,
    show 3 < count by omega, if_true]

theorem upTo_upTo (mask : Mask) (count : Nat) : (mask.upTo count).upTo count = mask.upTo count := by
  simp only [upTo]
  split_ifs <;> rfl

/-- The next byte of a key comes behind those that are there. -/
theorem set_upTo (mask : Mask) (count : Nat) (byte : UInt8) :
    (mask.upTo count).set count byte = (mask.set count byte).upTo (count + 1) := by
  rcases count with _ | _ | _ | _ | count
  case succ.succ.succ.succ => rw [upTo_of_le (by omega), upTo_of_le (by omega)]
  all_goals rfl

end Mask

namespace Reassembler

/-! ## What is kept of a machine -/

@[simp] theorem stage_live (machine : Reassembler) : machine.live.stage = machine.stage := by
  unfold live
  split <;> rfl

@[simp] theorem control_live (machine : Reassembler) : machine.live.control = machine.control := by
  unfold live
  split <;> rfl

@[simp] theorem message_live (machine : Reassembler) : machine.live.message = machine.message := by
  unfold live
  split <;> rfl

@[simp] theorem isAssembling_live (machine : Reassembler) :
    machine.live.isAssembling = machine.isAssembling := by
  simp only [isAssembling, message_live]

@[simp] theorem buffered_live (machine : Reassembler) :
    machine.live.buffered = machine.buffered := by
  simp only [buffered, message_live]

theorem live_live (machine : Reassembler) : machine.live.live = machine.live := by
  cases now : machine.stage
  all_goals simp only [live, now, Mask.upTo_upTo]

theorem shown_live (fed : Feed) : fed.live.shown = fed.shown := by
  simp only [Feed.shown, Feed.live, stage_live, isAssembling_live, buffered_live]

/-! ## What a stage does with it -/

/-- What is live behind the first byte of a frame. -/
def opened (machine : Reassembler) : Reassembler := live { machine with stage := .length }

theorem opened_openFrame (machine : Reassembler) (byte : UInt8) :
    (machine.live.openFrame byte).map opened = (machine.openFrame byte).map opened := by
  unfold openFrame
  split
  · rfl
  · split
    · rfl
    · simp only [beginFrame, isAssembling_live, control_live, message_live]
      split_ifs <;> rfl

theorem live_readStart_cons (machine : Reassembler) (byte : UInt8) (rest : Bytes) :
    (machine.readStart (byte :: rest)).live =
      match (machine.openFrame byte).map opened with
      | .error error => .reject machine.live error
      | .ok next => .advance next rest none := by
  rw [readStart]
  cases machine.openFrame byte <;> rfl

theorem live_readStart (machine : Reassembler) :
    (machine.live.readStart bytes).live = (machine.readStart bytes).live := by
  cases bytes with
  | nil => exact congrArg Progress.pause (live_live machine)
  | cons byte rest =>
    rw [live_readStart_cons, live_readStart_cons, opened_openFrame, live_live]

theorem live_readLength (now : machine.stage = .length) :
    (machine.live.readLength bytes).live = (machine.readLength bytes).live := by
  cases bytes with
  | nil => exact congrArg Progress.pause (live_live machine)
  | cons byte rest =>
    simp only [readLength]
    split
    · exact congrArg (Progress.reject · _) (live_live machine)
    · simp only [live, now]
      rfl

/-- A stage that takes bytes one by one does so if each of its parts does. -/
theorem live_readWhile {wants : Reassembler → Bool} {take : Reassembler → UInt8 → Reassembler}
    {goOn : Reassembler → Bytes → Progress} {stage : Stage} (now : machine.stage = stage)
    (keeps : ∀ machine byte, (take machine byte).stage = machine.stage)
    (wanted : ∀ machine : Reassembler, machine.stage = stage → wants machine.live = wants machine)
    (takes : ∀ machine byte, machine.stage = stage →
      take machine.live byte = (take machine byte).live)
    (ends : ∀ machine bytes, machine.stage = stage → wants machine = false →
      (goOn machine.live bytes).live = (goOn machine bytes).live) :
    (machine.live.readWhile wants take goOn bytes).live =
      (machine.readWhile wants take goOn bytes).live := by
  fun_induction readWhile wants take goOn machine bytes with
  | case1 machine wants =>
    rw [readWhile, wanted machine now, if_pos wants]
    exact congrArg Progress.pause (live_live machine)
  | case2 machine done =>
    have done := Bool.eq_false_iff.mpr done
    rw [readWhile_of_not_wants ((wanted machine now).trans done)]
    exact ends machine [] now done
  | case3 machine byte rest wants ih =>
    rw [readWhile, wanted machine now, if_pos wants, takes machine byte now]
    exact ih ((keeps machine byte).trans now)
  | case4 machine byte rest done =>
    have done := Bool.eq_false_iff.mpr done
    rw [readWhile_of_not_wants ((wanted machine now).trans done)]
    exact ends machine (byte :: rest) now done

theorem live_endLength (now : machine.stage = .extendedLength) :
    (machine.live.endLength limits bytes).live = (machine.endLength limits bytes).live := by
  have same : machine.live.checkLength limits = machine.checkLength limits := by
    simp only [checkLength, buffered_live]
    simp only [live, now]
  unfold endLength
  rw [same]
  split
  · exact congrArg (Progress.reject · _) (live_live machine)
  · simp only [live, now]
    rfl

theorem live_endKey (now : machine.stage = .key) (done : machine.wantsKey = false) :
    (machine.live.endKey bytes).live = (machine.endKey bytes).live := by
  -- All four bytes have been set, so nothing of an earlier key is left.
  have whole : 4 ≤ machine.keyRead := by simpa [wantsKey] using done
  simp only [endKey, live, now, Mask.upTo_of_le whole]

/-- **A stage does the same with a machine as with what is live of it.** -/
theorem live_proceed (machine : Reassembler) (bytes : Bytes) :
    (machine.live.proceed limits bytes).live = (machine.proceed limits bytes).live := by
  unfold proceed
  rw [stage_live]
  split
  case h_1 => exact live_readStart machine
  case h_2 now => exact live_readLength now
  case h_3 now =>
    refine live_readWhile now (fun _ _ => rfl) ?_ ?_ fun _ _ now _ => live_endLength now
    · intro machine now
      simp only [wantsLength, live, now]
    · intro machine byte now
      simp only [takeLength, live, now]
  case h_4 now =>
    refine live_readWhile now (fun _ _ => rfl) ?_ ?_ fun _ _ => live_endKey
    · intro machine now
      simp only [wantsKey, live, now]
    · intro machine byte now
      simp only [takeKey, live, now, Mask.set_upTo]
  case h_5 now => simp only [live, now]
  case h_6 now => simp only [live, now]
  case h_7 => exact congrArg Progress.pause (live_live machine)

/-! ## Feeds -/

theorem live_eq_pause {progress : Progress} (same : (Progress.pause next).live = progress.live) :
    ∃ other, progress = .pause other ∧ next.live = other.live := by
  cases progress with
  | pause other => exact ⟨other, rfl, Progress.pause.inj same⟩
  | advance | reject => cases same

theorem live_eq_advance {progress : Progress} {rest : Bytes} {event : Option Event}
    (same : (Progress.advance next rest event).live = progress.live) :
    ∃ other, progress = .advance other rest event ∧ next.live = other.live := by
  cases progress with
  | advance other =>
    obtain ⟨alike, rfl, rfl⟩ := Progress.advance.inj same
    exact ⟨other, rfl, alike⟩
  | pause | reject => cases same

theorem live_eq_reject {progress : Progress} {error : Error}
    (same : (Progress.reject next error).live = progress.live) :
    ∃ other, progress = .reject other error := by
  cases progress with
  | reject other =>
    obtain ⟨-, rfl⟩ := Progress.reject.inj same
    exact ⟨other, rfl⟩
  | pause | advance => cases same

/-- Machines of which the same is live are fed alike. -/
theorem live_feedFrom (same : first.live = second.live) (events : Array Event) :
    (first.feedFrom limits bytes events).live = (second.feedFrom limits bytes events).live := by
  have step {first second : Reassembler} (bytes : Bytes) (same : first.live = second.live) :
      (first.proceed limits bytes).live = (second.proceed limits bytes).live := by
    rw [← live_proceed first, same, live_proceed]
  -- The second machine takes the same turn at each stage of the first.
  fun_induction feedFrom limits first bytes events generalizing second with
  | case1 machine bytes events next h =>
    obtain ⟨other, paused, alike⟩ := live_eq_pause (h ▸ step bytes same)
    rw [feedFrom_of_pause paused]
    exact congrArg (Feed.mk · events none) alike
  | case2 machine bytes events next rest event h ih =>
    obtain ⟨other, advanced, alike⟩ := live_eq_advance (h ▸ step bytes same)
    rw [feedFrom_of_advance advanced]
    exact ih alike
  | case3 machine bytes events next error h =>
    obtain ⟨other, rejected⟩ := live_eq_reject (h ▸ step bytes same)
    rw [feedFrom_of_reject rejected]
    rfl

theorem shown_feedEach (same : first.live = second.live) (blocks : List Bytes) :
    (first.feedEach limits blocks).map Feed.shown =
      (second.feedEach limits blocks).map Feed.shown := by
  induction blocks generalizing first second with
  | nil => rfl
  | cons block blocks ih =>
    have fed : (first.feed limits block).live = (second.feed limits block).live :=
      live_feedFrom same #[]
    have shown : (first.feed limits block).shown = (second.feed limits block).shown := by
      rw [← shown_live, fed, shown_live]
    simp only [feedEach, List.map_cons, shown, ih (congrArg Feed.machine fed)]

/-! ## Between two frames -/

open Grammar

theorem Sound.atFrame (sound : machine.Sound limits) (now : machine.stage = .start) :
    ∃ message, machine.AtFrame message := by
  have control : machine.control.buffer = #[] := sound.empty (by simp [now])
  cases begun : machine.message.opcode with
  | none =>
    have empty : machine.buffered = 0 := sound.unbegun (by simp [isAssembling, begun])
    have payload : machine.message.buffer = #[] := Array.size_eq_zero_iff.mp empty
    exact ⟨none, ⟨control, begun ▸ rfl, begun ▸ rfl, payload ▸ rfl⟩, now⟩
  | some opcode =>
    rcases sound.kind opcode begun with rfl | rfl
    · exact ⟨some ⟨.text, _⟩, ⟨control, begun ▸ rfl, begun ▸ rfl, rfl⟩, now⟩
    · exact ⟨some ⟨.binary, _⟩, ⟨control, begun ▸ rfl, begun ▸ rfl, rfl⟩, now⟩

/-- An opcode is known by the kind of message that it begins, or by beginning none. -/
theorem opcode_eq_of_kind? {one other : Opcode} (same : one.kind? = other.kind?) : one = other := by
  cases one <;> cases other <;> first | rfl | cases same

theorem Holds.message_eq {message : Option Unfinished} (holds : first.Holds message)
    (also : second.Holds message) : first.message = second.message := by
  have buffer : first.message.buffer = second.message.buffer :=
    Array.ext' (holds.payload.trans also.payload.symm)
  have opcode : first.message.opcode = second.message.opcode := by
    have begun := holds.assembling.trans also.assembling.symm
    have kind := holds.kind.trans also.kind.symm
    cases one : first.message.opcode with
    | none =>
      rw [one] at begun
      exact (Option.not_isSome_iff_eq_none.mp (Bool.eq_false_iff.mp begun.symm)).symm
    | some opcode =>
      rw [one] at begun kind
      obtain ⟨other, two⟩ := Option.isSome_iff_exists.mp begun.symm
      rw [two] at kind ⊢
      exact congrArg some (opcode_eq_of_kind? kind)
  exact Accumulator.eq_of_eq buffer opcode

/-- In front of a frame nothing is live but what is held. -/
theorem live_of_atFrame {message : Option Unfinished} (there : first.AtFrame message)
    (also : second.AtFrame message) (plain : first.control.opcode = second.control.opcode) :
    first.live = second.live := by
  have control : first.control = second.control :=
    Accumulator.eq_of_eq (there.control.trans also.control.symm) plain
  simp only [live, there.stage, also.stage, control, there.toHolds.message_eq also.toHolds]

/-! ## The interlude -/

/-- A ping or a pong that the limits allow. -/
structure IsInterlude (limits : Limits) (frame : Frame.Client) : Prop where
  kind : frame.opcode = .ping ∨ frame.opcode = .pong
  final : frame.fin = true
  short : frame.payload.length ≤ Error.maxControlPayload
  payload : frame.payload.length ≤ limits.maxPayload
  message : frame.payload.length ≤ limits.maxMessage

section Interlude

variable {frame : Frame.Client} {field : Bytes}

theorem IsInterlude.mayCome (interlude : IsInterlude limits frame) (message : Option Unfinished) :
    Fits limits frame ∧ MayCome limits message frame := by
  obtain ⟨kind, final, short, payload, whole⟩ := interlude
  have memory : frame.payload.length < 2 ^ 63 := Nat.lt_of_le_of_lt short (by decide)
  refine ⟨⟨payload, memory⟩, ?_⟩
  unfold MayCome
  rcases kind with ping | pong
  · rw [ping]
    exact ⟨final, short, whole⟩
  · rw [pong]
    exact ⟨final, short, whole⟩

/-- An interlude is reported if it is a ping, and leaves the message as it is. -/
theorem IsInterlude.absorb_eq (interlude : IsInterlude limits frame)
    (message : Option Unfinished) :
    absorb message frame =
      (if frame.opcode = .ping then some (.ping frame.payload) else none, message) := by
  rcases interlude.kind with ping | pong
  · simp only [absorb, ping, if_true]
  · simp only [absorb, pong]
    rfl

/-- Behind an interlude the same is live as in front of it. -/
theorem feed_interlude (sound : machine.Sound limits) (now : machine.stage = .start)
    (interlude : IsInterlude limits frame) (spelled : Spells frame.payload.length field) :
    let fed := machine.feed limits (encodeWith frame field)
    fed.violation = none ∧
      fed.events.toList = (if frame.opcode = .ping then [.ping frame.payload] else []) ∧
      fed.machine.live = machine.live := by
  obtain ⟨message, there⟩ := sound.atFrame now
  obtain ⟨fits, mayCome⟩ := interlude.mayCome message
  have reads : readFrame limits message (encodeWith frame field) = .whole frame [] := by
    simpa only [List.append_nil] using readFrame_encodeWith fits mayCome spelled []
  obtain ⟨next, passed, fed⟩ := agrees_readFrame there reads #[]
  have absorbed := interlude.absorb_eq message
  have further : frame.opcode ≠ .close := by
    rcases interlude.kind with kind | kind
    all_goals simp [kind]
  have behind : next.AtFrame message := by
    simpa only [absorbed] using passed.atFrame further
  have waits : next.proceed limits [] = .pause next := by
    simp only [proceed, behind.stage, readStart]
  simp only [feedFrom_of_pause waits, absorbed] at fed
  have kept : next.Sound limits := by
    have left : (machine.feedFrom limits (encodeWith frame field) #[]).machine.Sound limits :=
      sound.feedFrom
    rwa [fed] at left
  have alike : next.live = machine.live :=
    live_of_atFrame behind there (kept.plain.trans sound.plain.symm)
  simp only [feed, fed, true_and]
  refine ⟨?_, alike⟩
  split <;> rfl

/-- What comes behind an interlude leads to what it leads to without it. -/
theorem feed_interlude_append (sound : machine.Sound limits) (now : machine.stage = .start)
    (interlude : IsInterlude limits frame) (spelled : Spells frame.payload.length field)
    (rest : Bytes) :
    let fed := machine.feed limits (encodeWith frame field ++ rest)
    let without := machine.feed limits rest
    fed.events.toList =
        (if frame.opcode = .ping then [.ping frame.payload] else []) ++ without.events.toList ∧
      fed.violation = without.violation ∧ fed.machine.live = without.machine.live := by
  obtain ⟨accepted, reported, alike⟩ := feed_interlude sound now interlude spelled
  have later : ((machine.feed limits (encodeWith frame field)).machine.feed limits rest).live =
      (machine.feed limits rest).live := live_feedFrom alike #[]
  obtain ⟨machines, events, violation⟩ := Feed.mk.inj later
  simp only [feed_append, accepted, reported, Option.none_or, Array.toList_append]
  exact ⟨congrArg (_ ++ Array.toList ·) events, violation, machines⟩

/-- **A ping or a pong between two frames leaves the data as it is.** However it is cut into blocks
and however its length is written, it breaks nothing, a ping is reported with its payload and a pong
is not, and whatever comes behind it, also in the block that it ends in, leads to what it would have
led to without it. -/
theorem feedEach_interlude {blocks : List Bytes}
    (now : (last {} (feedEach limits {} blocks)).stage = .start)
    (interlude : IsInterlude limits frame) (spelled : Spells frame.payload.length field) :
    let fresh : Reassembler := {}
    let machine := fresh.last (fresh.feedEach limits blocks)
    let bytes := encodeWith frame field
    let report : List Event := if frame.opcode = .ping then [.ping frame.payload] else []
    (∀ pieces : List Bytes, pieces.flatten = bytes →
      let feeds := machine.feedEach limits pieces
      let behind := machine.last feeds
      (∀ fed ∈ feeds, fed.violation = none) ∧ feeds.flatMap (·.events.toList) = report ∧
        behind.stage = .start ∧ behind.isAssembling = machine.isAssembling ∧
        behind.buffered = machine.buffered) ∧
    ∀ (pieces : List Bytes) (rest : Bytes), pieces.flatten = bytes ++ rest →
      let feeds := machine.feedEach limits pieces
      let without := machine.feed limits rest
      feeds.flatMap (·.events.toList) = report ++ without.events.toList ∧
        feeds.filterMap (·.violation) = without.violation.toList ∧
        ∀ further, ((machine.last feeds).feedEach limits further).map Feed.shown =
          (without.machine.feedEach limits further).map Feed.shown := by
  intro fresh machine bytes report
  have now : machine.stage = .start := now
  have sound : machine.Sound limits := sound_last limits blocks
  have settled : machine.IsSettled limits := by
    simp only [IsSettled, proceed, now, readStart]
  refine ⟨fun pieces whole => ?_, fun pieces rest whole => ?_⟩
  · intro feeds behind
    obtain ⟨events, violations, machines⟩ := feedEach_of_isSettled pieces settled
    obtain ⟨accepted, reported, alike⟩ := feed_interlude sound now interlude spelled
    rw [whole] at events violations machines
    have alike : behind.live = machine.live := (congrArg live machines).trans alike
    refine ⟨?_, events.trans reported, ?_, ?_, ?_⟩
    · rw [accepted] at violations
      exact List.filterMap_eq_nil_iff.mp violations
    · rw [← stage_live, alike, stage_live, now]
    · rw [← isAssembling_live, alike, isAssembling_live]
    · rw [← buffered_live, alike, buffered_live]
  · intro feeds without
    obtain ⟨events, violations, machines⟩ := feedEach_of_isSettled pieces settled
    obtain ⟨reported, violation, alike⟩ :=
      feed_interlude_append sound now interlude spelled rest
    rw [whole] at events violations machines
    refine ⟨events.trans reported, violations.trans (congrArg _ violation), ?_⟩
    exact shown_feedEach ((congrArg live machines).trans alike)

/-- A ping that spells its length in two bytes, cut within its key, in the middle of a message. The
last fragment follows in the block that the ping ends in. -/
theorem feedEach_interlude_fragments :
    let limits : Limits := { maxPayload := 4, maxMessage := 5 }
    let frame : Frame.Client := ⟨true, .ping, [7, 8], ⟨1, 2, 3, 4⟩⟩
    let fresh : Reassembler := {}
    let machine := fresh.last (fresh.feedEach limits [[0x01, 0x82, 0, 0, 0, 0, 72, 105]])
    let feeds := machine.feedEach limits [[0x89, 0xFE, 0, 2, 1], [2, 3, 4, 6, 10, 0x80, 0x81, 0]]
    let without := machine.feed limits [0x80, 0x81, 0]
    IsInterlude limits frame ∧ machine.isAssembling = true ∧
      feeds.flatMap (·.events.toList) = [.ping [7, 8]] ∧
      ((machine.last feeds).feedEach limits [[0, 0, 0, 33], [0x82]]).map Feed.shown =
        (without.machine.feedEach limits [[0, 0, 0, 33], [0x82]]).map Feed.shown := by
  intro limits frame fresh machine feeds without
  have interlude : IsInterlude limits frame :=
    ⟨.inl rfl, rfl, by decide, by decide, by decide⟩
  have now : machine.stage = .start := by decide +kernel
  have spelled : Spells 2 ((0x80 ||| 126) :: BigEndian.encode 2 2) := .short (by decide)
  have whole : [[0x89, 0xFE, 0, 2, 1], [2, 3, 4, 6, 10, 0x80, 0x81, 0]].flatten =
      encodeWith frame ((0x80 ||| 126) :: BigEndian.encode 2 2) ++ [0x80, 0x81, 0] := by
    decide +kernel
  have quiet : without.events.toList = [] := by decide +kernel
  obtain ⟨-, joined⟩ := feedEach_interlude now interlude spelled
  obtain ⟨reported, -, shown⟩ := joined _ _ whole
  rw [quiet] at reported
  exact ⟨interlude, by decide +kernel, reported, shown _⟩

end Interlude

end Reassembler

end WebSocket
