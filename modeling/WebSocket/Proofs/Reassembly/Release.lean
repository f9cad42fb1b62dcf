import Mathlib.Data.List.DropRight
import WebSocket.Proofs.Reassembly.Fragments
import WebSocket.Proofs.Reassembly.Interlude
import WebSocket.Proofs.Reassembly.Visits

/-!
# Releasing a machine

`Reassembler.release` forgets what has been collected and leaves the machine in the frame that it
is in. What this means for the bytes that are fed later depends on that frame only.

Between two frames, and within a control frame, nothing is missing from the middle of a message:
from the next frame on the machine does what a fresh one does (`feed_of_spared`), so every message
that it reports has come whole, in frames behind the release. Within a data frame the rest of the
frame is still taken for data: the machine goes on as in a text (`feedFrom_asText`), and what is
left of the payload is reported as one or stays in front of the next message (`feed_rest`).
-/

namespace WebSocket

variable {limits : Limits} {machine next : Reassembler} {bytes rest front : Bytes}
  {event : Option Event} {events : Array Event}

namespace Reassembler

/-- What can be done with a machine. -/
inductive Use where
  | feed (block : Bytes)
  | release
  deriving DecidableEq, Repr

namespace Use

def isFeed : Use → Bool
  | feed _ => true
  | release => false

def fed : Use → Bytes
  | feed block => block
  | release => []

end Use

def use (limits : Limits) (machine : Reassembler) : Use → Reassembler
  | .feed block => (machine.feed limits block).machine
  | .release => machine.release

/-- What uses make of a fresh machine. -/
def used (limits : Limits) (uses : List Use) : Reassembler := uses.foldl (use limits) {}

/-- The machine behind the last release, a fresh one if there was none. -/
def released (limits : Limits) (uses : List Use) : Reassembler :=
  used limits (uses.rdropWhile Use.isFeed)

/-- The bytes that were fed since the last release. -/
def sinceRelease (uses : List Use) : Bytes := (uses.rtakeWhile Use.isFeed).flatMap Use.fed

/-- A frame of data is being read. -/
def isInData (machine : Reassembler) : Bool := machine.isReading && !machine.opcode.isControl

theorem isInData_iff : machine.isInData = true ↔
    machine.isReading = true ∧ machine.opcode.isControl = false := by
  simp [isInData]

theorem stage_ne_of_isReading (reading : machine.isReading = true) : machine.stage ≠ .start := by
  intro now
  simp [isReading, now] at reading

/-- None of these events is a message. -/
def Silent (events : Array Event) : Prop := ∀ kind payload, .message kind payload ∉ events

/-! ## Since the last release -/

section Uses

variable {uses : List Use}

theorem used_concat (uses : List Use) (last : Use) :
    used limits (uses ++ [last]) = (used limits uses).use limits last :=
  List.foldl_concat ..

@[simp] theorem released_feed (uses : List Use) (block : Bytes) :
    released limits (uses ++ [.feed block]) = released limits uses :=
  congrArg (used limits) (List.rdropWhile_concat_pos Use.isFeed uses (.feed block) rfl)

@[simp] theorem released_release (uses : List Use) :
    released limits (uses ++ [.release]) = (used limits uses).release := by
  rw [released, List.rdropWhile_concat_neg Use.isFeed uses .release Bool.false_ne_true,
    used_concat]
  rfl

@[simp] theorem sinceRelease_feed (uses : List Use) (block : Bytes) :
    sinceRelease (uses ++ [.feed block]) = sinceRelease uses ++ block := by
  rw [sinceRelease, List.rtakeWhile_concat_pos Use.isFeed uses (.feed block) rfl,
    List.flatMap_append, List.flatMap_singleton]
  rfl

@[simp] theorem sinceRelease_release (uses : List Use) :
    sinceRelease (uses ++ [.release]) = [] := by
  rw [sinceRelease, List.rtakeWhile_concat_neg Use.isFeed uses .release Bool.false_ne_true]
  rfl

theorem collect_nil (machine : Reassembler) : machine.collect [] = machine := by
  have nothing : machine.unmask [] = [] := by
    unfold unmask
    split <;> rfl
  simp [collect, append, Accumulator.append, nothing]

/-- A machine that needs a byte needs it also when it is released. -/
theorem isSettled_release (settled : machine.IsSettled limits) :
    machine.release.IsSettled limits := by
  unfold IsSettled proceed at settled ⊢
  rw [show machine.release.stage = machine.stage from rfl]
  split at settled
  case h_1 | h_2 | h_7 => rfl
  case h_3 =>
    simp only [readExtendedLength, readWhile] at settled ⊢
    split at settled
    · next wanted => exact if_pos wanted
    · unfold endLength at settled
      split at settled <;> cases settled
  case h_4 =>
    simp only [readKey, readWhile] at settled ⊢
    split at settled
    · next wanted => exact if_pos wanted
    · cases settled
  case h_5 => cases settled
  case h_6 =>
    simp only [readPayload, List.take_nil, collect_nil] at settled ⊢
    split at settled
    · next missing => exact if_pos missing
    · cases settled

theorem isSettled_used : (used limits uses).IsSettled limits := by
  induction uses using List.reverseRecOn with
  | nil => exact isSettled_fresh
  | append_singleton uses last settled =>
    rw [used_concat]
    cases last with
    | feed block => exact isSettled_feedFrom
    | release => exact isSettled_release settled

/-- Only what was fed since the last release counts. -/
theorem used_eq :
    used limits uses = ((released limits uses).feed limits (sinceRelease uses)).machine := by
  induction uses using List.reverseRecOn with
  | nil => exact (congrArg Feed.machine (feed_nil isSettled_fresh)).symm
  | append_singleton uses last same =>
    cases last with
    | feed block =>
      rw [used_concat, released_feed, sinceRelease_feed, feed_append, same]
      rfl
    | release =>
      rw [used_concat, released_release, sinceRelease_release]
      exact (congrArg Feed.machine (feed_nil (isSettled_release isSettled_used))).symm

/-- The machine behind the last release holds nothing. -/
theorem empty_released :
    (released limits uses).control = {} ∧ (released limits uses).message = {} := by
  induction uses using List.reverseRecOn with
  | nil => exact ⟨rfl, rfl⟩
  | append_singleton uses last empty =>
    cases last with
    | feed block => rwa [released_feed]
    | release =>
      rw [released_release]
      exact ⟨rfl, rfl⟩

end Uses

/-- The bytes that a stage takes are enough to pass it. -/
theorem exists_front_of_proceed (passed : machine.proceed limits bytes = .advance next rest event) :
    ∃ front, bytes = front ++ rest ∧ machine.proceed limits front = .advance next [] event := by
  obtain ⟨-, rfl⟩ := wanted_of_advance passed
  exact ⟨bytes.take machine.wanted, (List.take_append_drop ..).symm,
    proceed_taken_of_advance passed⟩

theorem Silent.append {more : Array Event} (silent : Silent events) (further : Silent more) :
    Silent (events ++ more) := by
  intro kind payload reported
  rcases Array.mem_append.mp reported with now | later
  · exact silent kind payload now
  · exact further kind payload later

/-! ## To the end of a control frame -/

/-- A control frame is the last one that was begun, and no message is held. -/
structure IsAside (machine : Reassembler) : Prop where
  control : machine.opcode.isControl = true
  message : machine.message = {}
  plain : machine.control.opcode = none

/-- Between two frames, with nothing held. -/
structure IsIdle (machine : Reassembler) : Prop where
  stage : machine.stage = .start
  control : machine.control = {}
  message : machine.message = {}

end Reassembler

/-- What a stage of a control frame comes to. -/
def Progress.Aside : Progress → Prop
  | .pause next => next.IsAside
  | .advance next _ event => next.IsAside ∧ (next.stage = .start → next.control = {}) ∧
      ∀ kind payload, event ≠ some (.message kind payload)
  | .reject .. => True

namespace Reassembler

theorem aside_readWhile {wants : Reassembler → Bool} {take : Reassembler → UInt8 → Reassembler}
    {goOn : Reassembler → Bytes → Progress}
    (takes : ∀ machine byte, machine.IsAside → (take machine byte).IsAside)
    (ends : ∀ machine bytes, machine.IsAside → (goOn machine bytes).Aside)
    (aside : machine.IsAside) : (machine.readWhile wants take goOn bytes).Aside := by
  fun_induction readWhile wants take goOn machine bytes with
  | case1 => exact aside
  | case2 | case4 => exact ends _ _ aside
  | case3 machine byte rest wanted ih => exact ih (takes _ _ aside)

theorem IsAside.congr (aside : machine.IsAside)
    (same : (next.opcode, next.control, next.message) =
      (machine.opcode, machine.control, machine.message)) : next.IsAside := by
  simp only [Prod.mk.injEq] at same
  obtain ⟨opcode, control, message⟩ := same
  exact ⟨opcode ▸ aside.control, message ▸ aside.message, control ▸ aside.plain⟩

/-- A stage before the payload reports nothing and is not the last one. -/
theorem IsAside.advance (aside : machine.IsAside)
    (same : (next.opcode, next.control, next.message) =
      (machine.opcode, machine.control, machine.message))
    (within : next.stage ≠ .start) : (Progress.advance next rest none).Aside :=
  ⟨aside.congr same, fun behind => absurd behind within, by simp⟩

theorem IsAside.collect (aside : machine.IsAside) (bytes : Bytes) :
    (machine.collect bytes).IsAside := by
  refine ⟨aside.control, ?_, (control_opcode_collect ..).trans aside.plain⟩
  simp only [Reassembler.collect, append, if_pos aside.control, aside.message]

theorem IsAside.complete (aside : machine.IsAside) :
    machine.complete.1.IsAside ∧
      (machine.complete.1.stage = .start → machine.complete.1.control = {}) ∧
      ∀ kind payload, machine.complete.2 ≠ some (.message kind payload) := by
  obtain ⟨control, message, plain⟩ := aside
  unfold Reassembler.complete
  split
  case h_1 | h_2 => exact ⟨⟨control, message, rfl⟩, fun _ => rfl, by simp⟩
  case h_3 =>
    exact ⟨⟨control, message, plain⟩, fun _ => Accumulator.eq_of_eq rfl plain, by simp⟩
  all_goals
    next named =>
      rw [named] at control
      cases control

/-- Within a control frame, every stage leaves the machine in it or behind it. -/
theorem aside_proceed (limits : Limits) (bytes : Bytes) (aside : machine.IsAside)
    (begun : machine.stage ≠ .start) : (machine.proceed limits bytes).Aside := by
  unfold proceed
  split
  case h_1 now => exact absurd now begun
  case h_2 =>
    cases bytes with
    | nil => exact aside
    | cons byte rest =>
      simp only [readLength]
      split
      · trivial
      · exact aside.advance rfl (by simp)
  case h_3 =>
    refine aside_readWhile (fun _ _ aside => aside.congr rfl) (fun machine bytes aside => ?_) aside
    unfold endLength
    split
    · trivial
    · exact aside.advance rfl (by simp)
  case h_4 =>
    exact aside_readWhile (fun _ _ aside => aside.congr rfl)
      (fun _ _ aside => aside.advance rfl (by simp)) aside
  case h_5 => exact aside.advance rfl (by simp)
  case h_6 =>
    have taken := aside.collect (bytes.take machine.remaining)
    simp only [readPayload]
    split
    · exact taken
    · exact taken.complete
  case h_7 => exact aside

theorem IsIdle.pauses (idle : machine.IsIdle) : machine.proceed limits [] = .pause machine := by
  simp only [proceed, idle.stage, readStart]

/-- A feed stays within a control frame, or its first bytes lead to the end of that frame. No
message is reported up to there. -/
theorem feedFrom_of_aside (aside : machine.IsAside) (begun : machine.stage ≠ .start)
    (silent : Silent events) :
    let fed := machine.feedFrom limits bytes events
    (Silent fed.events ∧ fed.machine.message = {}) ∨
      ∃ front back, bytes = front ++ back ∧
        let behind := machine.feedFrom limits front events
        Silent behind.events ∧ behind.machine.IsIdle := by
  fun_induction feedFrom limits machine bytes events with
  | case1 machine bytes events next paused =>
    have left := aside_proceed limits bytes aside begun
    rw [paused] at left
    exact .inl ⟨silent, left.message⟩
  | case3 machine bytes events next error rejected => exact .inl ⟨silent, rfl⟩
  | case2 machine bytes events next rest event passed ih =>
    have left := aside_proceed limits bytes aside begun
    rw [passed] at left
    obtain ⟨still, emptied, plain⟩ := left
    have silent : Silent (events ++ event.toArray) := by
      refine silent.append fun kind payload reported => plain kind payload ?_
      simpa using reported
    obtain ⟨front, rfl, alone⟩ := exists_front_of_proceed passed
    have passes (more : Bytes) : machine.proceed limits (front ++ more) =
        .advance next more event := by
      rw [proceed_append, alone]
      rfl
    by_cases now : next.stage = .start
    · have idle : next.IsIdle := ⟨now, emptied now, still.message⟩
      refine .inr ⟨front, rest, rfl, ?_⟩
      rw [feedFrom_of_advance alone, feedFrom_of_pause idle.pauses]
      exact ⟨silent, idle⟩
    · rcases ih still now silent with within | ⟨further, back, rfl, behind⟩
      · exact .inl within
      · refine .inr ⟨front ++ further, back, (List.append_assoc ..).symm, ?_⟩
        rw [feedFrom_of_advance (passes further)]
        exact behind

/-! ## Within a data frame -/

theorem complete_of_data (data : machine.opcode.isControl = false) :
    machine.complete =
      if machine.fin then
        ({ machine with stage := .start, message := {} },
          some (.message ((machine.message.opcode.bind Opcode.kind?).getD .text)
            machine.message.buffer.toList))
      else ({ machine with stage := .start }, none) := by
  unfold complete
  split
  case h_1 named | h_2 named | h_3 named =>
    rw [named] at data
    cases data
  all_goals rfl

/-- The machine as it would be if a text had begun with its frame. -/
def asText (machine : Reassembler) : Reassembler :=
  { machine with message := { machine.message with opcode := some .text } }

/-- The final frame of a message was begun last, and no message is in progress. -/
structure IsOrphan (machine : Reassembler) : Prop where
  fin : machine.fin = true
  data : machine.opcode.isControl = false
  plain : machine.message.opcode = none

end Reassembler

/-- Outcomes that differ in the kind of the message only, and only while the frame lasts. -/
inductive Progress.Alike : Progress → Progress → Prop where
  | pause {next : Reassembler} (orphan : next.IsOrphan) : Alike (.pause next) (.pause next.asText)
  | advance {next : Reassembler} {rest : Bytes} (orphan : next.IsOrphan)
    (within : next.stage ≠ .start) :
    Alike (.advance next rest none) (.advance next.asText rest none)
  | complete {next : Reassembler} {rest : Bytes} {event : Option Event} :
    Alike (.advance next rest event) (.advance next rest event)
  | reject {next : Reassembler} {error : Error} :
    Alike (.reject next error) (.reject next.asText error)

namespace Reassembler

theorem remaining_asText (machine : Reassembler) : machine.asText.remaining = machine.remaining :=
  rfl

theorem IsOrphan.congr (orphan : machine.IsOrphan)
    (same : (next.fin, next.opcode, next.message) =
      (machine.fin, machine.opcode, machine.message)) : next.IsOrphan := by
  simp only [Prod.mk.injEq] at same
  obtain ⟨fin, opcode, message⟩ := same
  exact ⟨fin ▸ orphan.fin, opcode ▸ orphan.data, message ▸ orphan.plain⟩

theorem alike_readWhile {wants : Reassembler → Bool} {take : Reassembler → UInt8 → Reassembler}
    {goOn : Reassembler → Bytes → Progress}
    (wanted : ∀ machine : Reassembler, wants machine.asText = wants machine)
    (takes : ∀ machine byte, machine.IsOrphan →
      (take machine byte).IsOrphan ∧ take machine.asText byte = (take machine byte).asText)
    (ends : ∀ machine bytes, machine.IsOrphan →
      (goOn machine bytes).Alike (goOn machine.asText bytes))
    (orphan : machine.IsOrphan) :
    (machine.readWhile wants take goOn bytes).Alike
      (machine.asText.readWhile wants take goOn bytes) := by
  fun_induction readWhile wants take goOn machine bytes with
  | case1 machine more =>
    rw [readWhile, wanted, if_pos more]
    exact .pause orphan
  | case2 machine done | case4 machine byte rest done =>
    rw [readWhile_of_not_wants ((wanted machine).trans (Bool.eq_false_iff.mpr done))]
    exact ends machine _ orphan
  | case3 machine byte rest more ih =>
    obtain ⟨still, same⟩ := takes machine byte orphan
    rw [readWhile, wanted, if_pos more, same]
    exact ih still

theorem IsOrphan.collect (orphan : machine.IsOrphan) (bytes : Bytes) :
    (machine.collect bytes).IsOrphan ∧
      machine.asText.collect bytes = (machine.collect bytes).asText := by
  have data := orphan.data
  constructor
  · exact ⟨orphan.fin, data, (message_opcode_collect ..).trans orphan.plain⟩
  · simp only [Reassembler.collect, append, asText, unmask, data, Accumulator.append,
      Bool.false_eq_true, if_false]
    rfl

/-- Where no message is in progress, what ends is taken for a text. -/
theorem IsOrphan.complete_asText (orphan : machine.IsOrphan) :
    machine.asText.complete = machine.complete := by
  have data : machine.asText.opcode.isControl = false := orphan.data
  rw [complete_of_data data, complete_of_data orphan.data, orphan.plain]
  simp only [asText, orphan.fin]
  rfl

/-- Within a data frame, every stage does what it does in a text. -/
theorem alike_proceed (limits : Limits) (bytes : Bytes) (orphan : machine.IsOrphan)
    (begun : machine.stage ≠ .start) :
    (machine.proceed limits bytes).Alike (machine.asText.proceed limits bytes) := by
  unfold proceed
  rw [show machine.asText.stage = machine.stage from rfl]
  split
  case h_1 now => exact absurd now begun
  case h_2 =>
    cases bytes with
    | nil => exact .pause orphan
    | cons byte rest =>
      simp only [readLength]
      split
      · exact .reject
      · exact .advance (orphan.congr rfl) (by simp)
  case h_3 =>
    refine alike_readWhile (fun _ => rfl) (fun _ _ orphan => ⟨orphan.congr rfl, rfl⟩)
      (fun machine bytes orphan => ?_) orphan
    unfold endLength
    rw [show machine.asText.checkLength limits = machine.checkLength limits from rfl]
    split
    · exact .reject
    · exact .advance (orphan.congr rfl) (by simp)
  case h_4 =>
    exact alike_readWhile (fun _ => rfl) (fun _ _ orphan => ⟨orphan.congr rfl, rfl⟩)
      (fun _ _ orphan => .advance (orphan.congr rfl) (by simp)) orphan
  case h_5 => exact .advance (orphan.congr rfl) (by simp)
  case h_6 =>
    obtain ⟨taken, same⟩ := orphan.collect (bytes.take machine.remaining)
    simp only [readPayload]
    rw [remaining_asText, same, remaining_asText, taken.complete_asText]
    split
    · exact .pause taken
    · exact .complete
  case h_7 => exact .pause orphan

/-- Without a message in progress, the final frame of one goes on as that of a text. -/
theorem feedFrom_asText (orphan : machine.IsOrphan) (begun : machine.stage ≠ .start) :
    let fed := machine.feedFrom limits bytes events
    let text := machine.asText.feedFrom limits bytes events
    fed.events = text.events ∧ fed.violation = text.violation := by
  fun_induction feedFrom limits machine bytes events with
  | case1 machine bytes events next paused =>
    have alike := alike_proceed limits bytes orphan begun
    generalize same : machine.asText.proceed limits bytes = other at alike
    rw [paused] at alike
    cases alike
    rw [feedFrom_of_pause same]
    exact ⟨rfl, rfl⟩
  | case2 machine bytes events next rest event passed ih =>
    have alike := alike_proceed limits bytes orphan begun
    generalize same : machine.asText.proceed limits bytes = other at alike
    rw [passed] at alike
    cases alike with
    | advance still within =>
      rw [feedFrom_of_advance same]
      exact ih still within
    | complete =>
      rw [feedFrom_of_advance same]
      exact ⟨rfl, rfl⟩
  | case3 machine bytes events next error rejected =>
    have alike := alike_proceed limits bytes orphan begun
    generalize same : machine.asText.proceed limits bytes = other at alike
    rw [rejected] at alike
    cases alike
    rw [feedFrom_of_reject same]
    exact ⟨rfl, rfl⟩

/-- **Within a data frame a release loses what was collected of it, and no more.** The rest of the
payload is taken for the whole: it is reported as a text if the frame is the final one, and is else
kept without a message in progress. -/
theorem feed_rest (now : machine.stage = .payload) (data : machine.opcode.isControl = false)
    (message : machine.message = {}) (whole : bytes.length = machine.remaining) :
    let fed := machine.feed limits bytes
    fed.violation = none ∧ fed.machine.stage = .start ∧ fed.machine.isAssembling = false ∧
      if machine.fin then
        fed.events = #[.message .text (machine.unmask bytes)] ∧ fed.machine.buffered = 0
      else fed.events = #[] ∧ fed.machine.buffered = bytes.length := by
  have all : bytes.take machine.remaining = bytes := List.take_of_length_le (Nat.le_of_eq whole)
  have nothing : bytes.drop machine.remaining = [] := List.drop_eq_nil_of_le (Nat.le_of_eq whole)
  have missing : ¬ 0 < (machine.collect bytes).remaining := by
    simp [collect, whole]
  have held : (machine.collect bytes).message = ⟨(machine.unmask bytes).toArray, none⟩ := by
    simp [collect, append, data, message, Accumulator.append]
  have passed : machine.proceed limits bytes =
      .advance (machine.collect bytes).complete.1 [] (machine.collect bytes).complete.2 := by
    simp only [proceed, now, readPayload, all, nothing, if_neg missing]
  have still : (machine.collect bytes).opcode.isControl = false := data
  rw [complete_of_data still, show (machine.collect bytes).fin = machine.fin from rfl] at passed
  rw [feed, feedFrom_of_advance passed]
  cases machine.fin with
  | true =>
    rw [if_pos rfl, feedFrom_of_pause (by rfl)]
    exact ⟨rfl, rfl, rfl, by simp [held], rfl⟩
  | false =>
    rw [if_neg Bool.false_ne_true, feedFrom_of_pause (by rfl)]
    exact ⟨rfl, rfl, by simp [isAssembling, held], rfl, by simp [buffered, held, length_unmask]⟩

/-- A binary message is cut within its payload. The rest of its last frame is a text, the rest of
another frame is held though no message is in progress. -/
theorem rest_reported_as_text :
    let frame (fin : Bool) : Frame.Client :=
      ⟨fin, .binary, [97, 98, 99, 100, 101, 102], ⟨0x37, 0xFA, 0x21, 0x3D⟩⟩
    let front (fin : Bool) : Bytes := (frame fin).encode.take 9
    let back (fin : Bool) : Bytes := (frame fin).encode.drop 9
    let cut (fin : Bool) := used {} [.feed (front fin), .release]
    let last := (cut true).feed {} (back true)
    let further := (cut false).feed {} (back false)
    (used {} [.feed (front true)]).isAssembling = true ∧
      last.events = #[.message .text [100, 101, 102]] ∧
      further.machine.stage = .start ∧ further.machine.isAssembling = false ∧
      further.machine.buffered = 3 := by
  decide +kernel

/-! ## Behind a release -/

open Grammar

theorem IsIdle.atFrame (idle : machine.IsIdle) : machine.AtFrame none := by
  obtain ⟨stage, control, message⟩ := idle
  exact ⟨⟨control ▸ rfl, message ▸ rfl, message ▸ rfl, message ▸ rfl⟩, stage⟩

/-- An idle machine is fed as a fresh one is. -/
theorem IsIdle.live_feed (idle : machine.IsIdle) (limits : Limits) (bytes : Bytes) :
    (machine.feed limits bytes).live = (feed limits {} bytes).live :=
  live_feedFrom (live_of_atFrame idle.atFrame atFrame_fresh (idle.control ▸ rfl)) #[]

section Spared

variable (control : machine.control = {}) (message : machine.message = {})
  (spared : machine.isInData = false)
include control message spared

/-- **A machine that holds nothing and is not within a data frame is idle in front of the next
frame.** -/
theorem feed_of_spared (limits : Limits) (bytes : Bytes) :
    let fed := machine.feed limits bytes
    (Silent fed.events ∧ fed.machine.message = {}) ∨
      ∃ front back, bytes = front ++ back ∧
        let behind := machine.feed limits front
        Silent behind.events ∧ behind.machine.IsIdle := by
  have none_yet : Silent #[] := fun _ _ => Array.not_mem_empty _
  cases now : machine.stage with
  | start =>
    have idle : machine.IsIdle := ⟨now, control, message⟩
    refine .inr ⟨[], bytes, rfl, ?_⟩
    rw [feed, feedFrom_of_pause idle.pauses]
    exact ⟨none_yet, idle⟩
  | closing =>
    refine .inl ?_
    rw [feed, feedFrom_of_closing now]
    exact ⟨none_yet, message⟩
  | length | extendedLength | key | extension | payload =>
    have aside : machine.IsAside :=
      ⟨by simpa [isInData, isReading, now] using spared, message, control ▸ rfl⟩
    exact feedFrom_of_aside aside (by simp [now]) none_yet

theorem exists_frames_of_spared {kind : MessageKind} {payload : Bytes}
    (reported : .message kind payload ∈ (machine.feed limits bytes).events) :
    ∃ front wire back frames, bytes = front ++ wire ++ back ∧ Spelled frames wire ∧
      Makes kind payload frames ∧ (machine.feed limits front).machine.AtFrame none := by
  rcases feed_of_spared control message spared limits bytes with
    ⟨silent, -⟩ | ⟨front, tail, rfl, silent, idle⟩
  · exact absurd reported (silent kind payload)
  · rw [feed_append] at reported
    have fresh : .message kind payload ∈ (feed limits {} tail).events := by
      have alike := congrArg Feed.events (idle.live_feed limits tail)
      have later := (Array.mem_append.mp reported).resolve_left (silent kind payload)
      exact alike ▸ later
    obtain ⟨between, wire, back, frames, rfl, spelled, makes, reached⟩ := delivers_of_feed fresh
    refine ⟨front ++ between, wire, back, frames, by simp, spelled, makes, ?_⟩
    rw [feed_append]
    exact reached _ idle.atFrame

theorem buffered_of_spared (unbegun : (machine.feed limits bytes).machine.isAssembling = false) :
    (machine.feed limits bytes).machine.buffered = 0 := by
  rcases feed_of_spared control message spared limits bytes with
    ⟨-, empty⟩ | ⟨front, tail, rfl, -, idle⟩
  · rw [buffered, empty]
    rfl
  · have alike : (machine.feed limits (front ++ tail)).machine.live =
        (feed limits {} tail).machine.live := by
      rw [feed_append]
      exact congrArg Feed.machine (idle.live_feed limits tail)
    have sound : (feed limits {} tail).machine.Sound limits := sound_fresh.feedFrom
    rw [← isAssembling_live, alike, isAssembling_live] at unbegun
    rw [← buffered_live, alike, buffered_live]
    exact sound.unbegun unbegun

end Spared

/-! ## Every use -/

/-- **Messages are whole unless a release falls within a data frame.** Whatever is done with a
machine, if the last release did not fall within a data frame, nothing is held without a message in
progress, and every message has come in frames behind that release: the first tells its kind, and
its payload is theirs and nothing else. If it fell within the final frame of a message, the machine
reports what it would report if a text had begun with that frame. If it fell within a payload, the
rest of that is a text, or is left in front of the next message. -/
theorem message_since_release (limits : Limits) (uses : List Use) :
    let start := released limits uses
    let machine := used limits uses
    (start.isInData = false →
      (machine.isAssembling = false → machine.buffered = 0) ∧
      ∀ block kind payload, .message kind payload ∈ (machine.feed limits block).events →
        ∃ front wire back frames, sinceRelease uses ++ block = front ++ wire ++ back ∧
          Spelled frames wire ∧ Makes kind payload frames ∧
          (start.feed limits front).machine.AtFrame none) ∧
    (start.isInData = true →
      (start.fin = true → ∀ bytes : Bytes,
        let fed := start.feed limits bytes
        let text := start.asText.feed limits bytes
        fed.events = text.events ∧ fed.violation = text.violation) ∧
      (start.stage = .payload → ∀ rest : Bytes, rest.length = start.remaining →
        let fed := start.feed limits rest
        fed.violation = none ∧ fed.machine.stage = .start ∧ fed.machine.isAssembling = false ∧
          if start.fin then
            fed.events = #[.message .text (start.unmask rest)] ∧ fed.machine.buffered = 0
          else fed.events = #[] ∧ fed.machine.buffered = rest.length)) := by
  intro start machine
  obtain ⟨control, message⟩ : start.control = {} ∧ start.message = {} := empty_released
  have since : machine = (start.feed limits (sinceRelease uses)).machine := used_eq
  refine ⟨fun spared => ⟨fun unbegun => ?_, fun block kind payload reported => ?_⟩,
    fun within => ⟨fun fin bytes => ?_, fun now rest whole => ?_⟩⟩
  · rw [since] at unbegun ⊢
    exact buffered_of_spared control message spared unbegun
  · rw [since] at reported
    refine exists_frames_of_spared control message spared ?_
    rw [feed_append]
    exact Array.mem_append_right _ reported
  · obtain ⟨reading, data⟩ := isInData_iff.mp within
    exact feedFrom_asText ⟨fin, data, message ▸ rfl⟩ (stage_ne_of_isReading reading)
  · exact feed_rest now (isInData_iff.mp within).2 message whole

/-- The second release falls within a ping between two fragments. What an earlier one, within the
first fragment, has left is forgotten with it, and the message behind the ping is whole. Without the
second release the rest of the fragment is held; and a binary message that is released within its
header becomes a text. -/
theorem message_since_release_ping :
    let uses : List Use :=
      [.feed [0x01, 0x83, 0, 0, 0, 0, 72], .release, .feed [105, 33, 0x89, 0x82, 0, 0, 0, 0, 1],
        .release]
    let block : Bytes := [2, 0x82, 0x81, 0, 0, 0, 0, 7]
    let cut : List Use := [.feed [0x01, 0x83, 0, 0, 0, 0, 72], .release]
    let binary : List Use := [.feed [0x82, 0x82, 0, 0], .release]
    (released {} uses).isInData = false ∧ (used {} uses).buffered = 0 ∧
      (∃ front wire back frames, block = front ++ wire ++ back ∧ Spelled frames wire ∧
        Makes .binary [7] frames ∧ ((released {} uses).feed {} front).machine.AtFrame none) ∧
      (released {} cut).isInData = true ∧
      ((released {} cut).feed {} [105, 33]).machine.buffered = 2 ∧
      ((released {} binary).feed {} [0, 0, 7, 8]).events = #[.message .text [7, 8]] := by
  intro uses block cut binary
  have spared : (released {} uses).isInData = false := by decide +kernel
  have reported : .message .binary [7] ∈ ((used {} uses).feed {} block).events := by
    decide +kernel
  have within : (released {} cut).isInData = true := by decide +kernel
  obtain ⟨empty, whole⟩ := (message_since_release {} uses).1 spared
  obtain ⟨-, -, -, held⟩ :=
    ((message_since_release {} cut).2 within).2 (by decide +kernel) [105, 33] (by decide +kernel)
  rw [if_neg (by decide +kernel)] at held
  have text := ((message_since_release {} binary).2 (by decide +kernel)).1 (by decide +kernel)
    [0, 0, 7, 8]
  exact ⟨spared, empty (by decide +kernel), whole _ _ _ reported, within, held.2,
    text.1.trans (by decide +kernel)⟩

end Reassembler

end WebSocket
