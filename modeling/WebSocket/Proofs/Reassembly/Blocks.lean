import WebSocket.Frame.Reassembler
import WebSocket.Proofs.Masking

/-!
# Blocks of input

Where one block of input ends and the next begins does not matter to a machine. A stage that
pauses at the end of a block goes on with the next one as if there had been no cut
(`proceed_append`); a stage that is over, or rejects its frame, does so whatever comes behind the
bytes that it has seen. From this the same follows for whole feeds (`feed_append`) and for any
number of blocks (`feedEach_flatten`).
-/

namespace WebSocket

/-- What a stage comes to when more bytes follow those that it has had. -/
def Progress.resume (limits : Limits) (more : Bytes) : Progress → Progress
  | .pause machine => machine.proceed limits more
  | .advance machine rest event => .advance machine (rest ++ more) event
  | .reject machine error => .reject machine error

theorem Accumulator.append_append (accumulator : Accumulator) (first second : Bytes) :
    (accumulator.append first).append second = accumulator.append (first ++ second) := by
  have joined : accumulator.buffer ++ first ++ second = accumulator.buffer ++ (first ++ second) :=
    Array.ext' (by simp)
  simp only [append, joined]

namespace Reassembler

variable {limits : Limits} {machine next : Reassembler} {bytes rest more : Bytes}
  {event : Option Event} {events : Array Event} {error : Error}

/-! ## Stages -/

theorem readStart_append (now : machine.stage = .start) :
    machine.readStart (bytes ++ more) = (machine.readStart bytes).resume limits more := by
  cases bytes with
  | nil => simp only [List.nil_append, readStart, Progress.resume, proceed, now]
  | cons byte rest =>
    simp only [List.cons_append, readStart]
    split <;> rfl

theorem readLength_append (now : machine.stage = .length) :
    machine.readLength (bytes ++ more) = (machine.readLength bytes).resume limits more := by
  cases bytes with
  | nil => simp only [List.nil_append, readLength, Progress.resume, proceed, now]
  | cons byte rest =>
    simp only [List.cons_append, readLength]
    split <;> rfl

theorem readWhile_of_not_wants {wants : Reassembler → Bool}
    {take : Reassembler → UInt8 → Reassembler} {goOn : Reassembler → Bytes → Progress}
    (done : wants machine = false) :
    machine.readWhile wants take goOn bytes = goOn machine bytes := by
  cases bytes <;> simp [readWhile, done]

/-- A stage that takes bytes one by one and counts down what it lacks takes just as many. -/
theorem readWhile_of_counts {wants : Reassembler → Bool} {take : Reassembler → UInt8 → Reassembler}
    {goOn : Reassembler → Bytes → Progress} {lacks : Reassembler → Nat}
    (wanting : ∀ machine, wants machine = decide (0 < lacks machine))
    (counts : ∀ machine byte, lacks (take machine byte) = lacks machine - 1) :
    machine.readWhile wants take goOn bytes =
      if bytes.length < lacks machine then .pause (bytes.foldl take machine)
      else goOn ((bytes.take (lacks machine)).foldl take machine) (bytes.drop (lacks machine)) := by
  induction bytes generalizing machine with
  | nil =>
    cases lacking : lacks machine with
    | zero => simp [readWhile, wanting, lacking]
    | succ less => simp [readWhile, wanting, lacking]
  | cons byte rest ih =>
    cases lacking : lacks machine with
    | zero => simp [readWhile, wanting, lacking]
    | succ less =>
      have left : lacks (take machine byte) = less := by simp [counts, lacking]
      have wanted : wants machine = true := by simp [wanting, lacking]
      simp only [readWhile, if_pos wanted, ih, left, List.length_cons, Nat.add_lt_add_iff_right,
        List.foldl_cons, List.take_succ_cons, List.drop_succ_cons]

/-- A stage that takes bytes one by one can be cut wherever what comes after it can. -/
theorem readWhile_append {wants : Reassembler → Bool} {take : Reassembler → UInt8 → Reassembler}
    {goOn : Reassembler → Bytes → Progress} {stage : Stage}
    (proceeds : ∀ machine : Reassembler, ∀ bytes, machine.stage = stage →
      machine.proceed limits bytes = machine.readWhile wants take goOn bytes)
    (keeps : ∀ machine byte, (take machine byte).stage = machine.stage)
    (goesOn : ∀ machine bytes,
      goOn machine (bytes ++ more) = (goOn machine bytes).resume limits more)
    (now : machine.stage = stage) :
    machine.readWhile wants take goOn (bytes ++ more) =
      (machine.readWhile wants take goOn bytes).resume limits more := by
  induction bytes generalizing machine with
  | nil =>
    simp only [List.nil_append, readWhile]
    split
    · exact (proceeds machine more now).symm
    · next done =>
      rw [← goesOn, List.nil_append]
      exact readWhile_of_not_wants (Bool.eq_false_iff.mpr done)
  | cons byte rest ih =>
    simp only [List.cons_append, readWhile]
    split
    · exact ih ((keeps machine byte).trans now)
    · exact goesOn machine (byte :: rest)

theorem endLength_append :
    machine.endLength limits (bytes ++ more) =
      (machine.endLength limits bytes).resume limits more := by
  unfold endLength
  split <;> rfl

theorem readExtendedLength_append (now : machine.stage = .extendedLength) :
    machine.readExtendedLength limits (bytes ++ more) =
      (machine.readExtendedLength limits bytes).resume limits more := by
  refine readWhile_append (fun machine bytes now => ?_) (fun _ _ => rfl)
    (fun _ _ => endLength_append) now
  simp only [proceed, now, readExtendedLength]

theorem readKey_append (now : machine.stage = .key) :
    machine.readKey (bytes ++ more) = (machine.readKey bytes).resume limits more := by
  refine readWhile_append (fun machine bytes now => ?_) (fun _ _ => rfl) (fun _ _ => rfl) now
  simp only [proceed, now, readKey]

theorem unmask_append (first second : Bytes) :
    machine.unmask (first ++ second) =
      machine.unmask first ++ (machine.collect first).unmask second := by
  unfold unmask
  split
  · next masked =>
    rw [Mask.applyAt_append]
    exact congrArg _ (if_pos masked).symm
  · next plain => exact congrArg _ (if_neg plain).symm

/-- A payload may be collected in pieces. -/
theorem collect_collect (first second : Bytes) :
    (machine.collect first).collect second = machine.collect (first ++ second) := by
  conv => rhs; rw [collect, unmask_append]
  rw [collect]
  simp only [collect, append, List.length_append, Nat.add_assoc, Nat.sub_add_eq]
  congr 1 <;> split <;> simp only [Accumulator.append_append]

theorem readPayload_append (now : machine.stage = .payload) :
    machine.readPayload (bytes ++ more) = (machine.readPayload bytes).resume limits more := by
  by_cases short : bytes.length < machine.remaining
  · have all : bytes.take machine.remaining = bytes := List.take_of_length_le (Nat.le_of_lt short)
    have taken : (bytes ++ more).take machine.remaining =
        bytes ++ more.take (machine.collect bytes).remaining := by
      rw [List.take_append, all]
      rfl
    have left : (bytes ++ more).drop machine.remaining =
        more.drop (machine.collect bytes).remaining := by
      rw [List.drop_append, List.drop_eq_nil_of_le (Nat.le_of_lt short), List.nil_append]
      rfl
    have missing : 0 < (machine.collect bytes).remaining := Nat.sub_pos_of_lt short
    have resumed : (machine.collect bytes).proceed limits more =
        (machine.collect bytes).readPayload more := by
      simp only [proceed, show (machine.collect bytes).stage = .payload from now]
    simp only [readPayload, taken, left, ← collect_collect, all, if_pos missing,
      Progress.resume, resumed]
  · have enough : machine.remaining ≤ bytes.length := Nat.le_of_not_lt short
    simp only [readPayload, List.take_append_of_le_length enough,
      List.drop_append_of_le_length enough]
    split
    · next missing =>
      simp only [collect, List.length_take, Nat.min_eq_left enough] at missing
      omega
    · rfl

/-- A stage that pauses goes on with the next block as if there had been no cut. -/
theorem proceed_append :
    machine.proceed limits (bytes ++ more) =
      (machine.proceed limits bytes).resume limits more := by
  cases now : machine.stage with
  | start => simpa only [proceed, now] using readStart_append now
  | length => simpa only [proceed, now] using readLength_append now
  | extendedLength => simpa only [proceed, now] using readExtendedLength_append now
  | key => simpa only [proceed, now] using readKey_append now
  | extension => simp only [proceed, now, Progress.resume]
  | payload => simpa only [proceed, now] using readPayload_append now
  | closing => simp only [proceed, now, Progress.resume]

/-! ## Feeds -/

theorem feedFrom_of_pause (h : machine.proceed limits bytes = .pause next) :
    machine.feedFrom limits bytes events = { machine := next, events } := by
  rw [feedFrom]
  split <;> simp_all

theorem feedFrom_of_advance (h : machine.proceed limits bytes = .advance next rest event) :
    machine.feedFrom limits bytes events =
      next.feedFrom limits rest (events ++ event.toArray) := by
  rw [feedFrom]
  split <;> simp_all

theorem feedFrom_of_reject (h : machine.proceed limits bytes = .reject next error) :
    machine.feedFrom limits bytes events =
      { machine := next.abort, events, violation := some error } := by
  rw [feedFrom]
  split <;> simp_all

/-- A feed depends on no more than what the first stage makes of the bytes. -/
theorem feedFrom_congr {other : Bytes}
    (h : machine.proceed limits bytes = next.proceed limits other) :
    machine.feedFrom limits bytes events = next.feedFrom limits other events := by
  cases outcome : next.proceed limits other with
  | pause => rw [feedFrom_of_pause (h.trans outcome), feedFrom_of_pause outcome]
  | advance => rw [feedFrom_of_advance (h.trans outcome), feedFrom_of_advance outcome]
  | reject => rw [feedFrom_of_reject (h.trans outcome), feedFrom_of_reject outcome]

theorem feedFrom_of_closing (closed : machine.stage = .closing) :
    machine.feedFrom limits bytes events = { machine, events } :=
  feedFrom_of_pause (by simp only [proceed, closed])

theorem feedFrom_append_events (earlier : Array Event) :
    machine.feedFrom limits bytes (earlier ++ events) =
      let fed := machine.feedFrom limits bytes events
      { fed with events := earlier ++ fed.events } := by
  fun_induction feedFrom limits machine bytes events with
  | case1 machine bytes events next h => rw [feedFrom_of_pause h]
  | case2 machine bytes events next rest event h ih =>
    rw [feedFrom_of_advance h, Array.append_assoc, ih]
  | case3 machine bytes events next error h => rw [feedFrom_of_reject h]

/-- The events that came before a feed stay in front of its own. -/
theorem feedFrom_eq :
    machine.feedFrom limits bytes events =
      let fed := machine.feed limits bytes
      { fed with events := events ++ fed.events } := by
  rw [feed, ← feedFrom_append_events, Array.append_empty]

theorem feedFrom_append :
    machine.feedFrom limits (bytes ++ more) events =
      let fed := machine.feedFrom limits bytes events
      let further := fed.machine.feedFrom limits more fed.events
      { further with violation := fed.violation.or further.violation } := by
  fun_induction feedFrom limits machine bytes events with
  | case1 machine bytes events next h =>
    have resumed : machine.proceed limits (bytes ++ more) = next.proceed limits more := by
      rw [proceed_append, h]
      rfl
    exact feedFrom_congr resumed
  | case2 machine bytes events next rest event h ih =>
    have goesOn : machine.proceed limits (bytes ++ more) = .advance next (rest ++ more) event := by
      rw [proceed_append, h]
      rfl
    rw [feedFrom_of_advance goesOn, ih]
  | case3 machine bytes events next error h =>
    have still : machine.proceed limits (bytes ++ more) = .reject next error := by
      rw [proceed_append, h]
      rfl
    have silent : next.abort.feedFrom limits more events = { machine := next.abort, events } :=
      feedFrom_of_closing rfl
    rw [feedFrom_of_reject still]
    simp only [silent]
    rfl

/-- Two blocks fed one after the other lead to what their bytes in one block lead to. -/
theorem feed_append (limits : Limits) (machine : Reassembler) (bytes more : Bytes) :
    machine.feed limits (bytes ++ more) =
      let fed := machine.feed limits bytes
      let further := fed.machine.feed limits more
      { machine := further.machine
        events := fed.events ++ further.events
        violation := fed.violation.or further.violation } := by
  have further := @feedFrom_eq limits (machine.feed limits bytes).machine more
    (machine.feed limits bytes).events
  rw [feed, feedFrom_append]
  exact congrArg (fun fed : Feed =>
    { fed with violation := (machine.feed limits bytes).violation.or fed.violation }) further

/-- Whether the stage that comes next is one that needs a byte. -/
def IsSettled (limits : Limits) (machine : Reassembler) : Prop :=
  machine.proceed limits [] = .pause machine

theorem isSettled_fresh : IsSettled limits {} := rfl

theorem isSettled_of_closing (closed : machine.stage = .closing) : machine.IsSettled limits := by
  simp only [IsSettled, proceed, closed]

theorem feed_nil (settled : machine.IsSettled limits) : machine.feed limits [] = { machine } :=
  feedFrom_of_pause settled

theorem isSettled_feedFrom : (machine.feedFrom limits bytes events).machine.IsSettled limits := by
  fun_induction feedFrom limits machine bytes events with
  | case1 machine bytes events next h =>
    have resumed : machine.proceed limits (bytes ++ []) =
        (machine.proceed limits bytes).resume limits [] := proceed_append
    rw [List.append_nil, h] at resumed
    exact resumed.symm
  | case2 machine bytes events next rest event h ih => exact ih
  | case3 machine bytes events next error h => exact isSettled_of_closing rfl

theorem stage_of_violation (h : (machine.feedFrom limits bytes events).violation = some error) :
    (machine.feedFrom limits bytes events).machine.stage = .closing := by
  fun_induction feedFrom limits machine bytes events with
  | case1 => cases h
  | case2 machine bytes events next rest event _ ih => exact ih h
  | case3 => rfl

/-- Feeds blocks one after another and keeps what each of them leads to. -/
def feedEach (limits : Limits) (machine : Reassembler) : List Bytes → List Feed
  | [] => []
  | block :: blocks =>
    let fed := machine.feed limits block
    fed :: feedEach limits fed.machine blocks

/-- The machine after the last of several feeds. -/
def last (machine : Reassembler) : List Feed → Reassembler
  | [] => machine
  | fed :: feeds => fed.machine.last feeds

theorem feedEach_of_isSettled (blocks : List Bytes) (settled : machine.IsSettled limits) :
    let whole := machine.feed limits blocks.flatten
    let feeds := machine.feedEach limits blocks
    feeds.flatMap (·.events.toList) = whole.events.toList ∧
      feeds.filterMap (·.violation) = whole.violation.toList ∧
      machine.last feeds = whole.machine := by
  induction blocks generalizing machine with
  | nil =>
    simp [feed_nil settled, feedEach, last]
  | cons block blocks ih =>
    have settled : (machine.feed limits block).machine.IsSettled limits := isSettled_feedFrom
    obtain ⟨events, violations, machines⟩ := ih settled
    have joined := feed_append limits machine block blocks.flatten
    simp only [feedEach, last, List.flatten_cons, joined]
    refine ⟨?_, ?_, machines⟩
    · rw [List.flatMap_cons, events, Array.toList_append]
    · cases broken : (machine.feed limits block).violation with
      | none => simp [broken, violations]
      | some error =>
        -- A closed machine finds no second breach.
        have silent : (machine.feed limits block).machine.feed limits blocks.flatten =
            { machine := (machine.feed limits block).machine } :=
          feedFrom_of_closing (stage_of_violation broken)
        rw [List.filterMap_cons, broken, violations, silent]
        rfl

/-- However the bytes of a client are cut into blocks, a fresh machine reports the same events and
finds the same breach, in one of the blocks only, and the blocks leave the same machine behind. -/
theorem feedEach_flatten (limits : Limits) (blocks : List Bytes) :
    let fresh : Reassembler := {}
    let whole := fresh.feed limits blocks.flatten
    let feeds := fresh.feedEach limits blocks
    feeds.flatMap (·.events.toList) = whole.events.toList ∧
      feeds.filterMap (·.violation) = whole.violation.toList ∧
      fresh.last feeds = whole.machine :=
  feedEach_of_isSettled blocks isSettled_fresh

end Reassembler

end WebSocket
