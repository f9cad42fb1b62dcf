import Mathlib.Data.List.Nodup
import WebSocket.Handler.Counter
import WebSocket.Proofs.Session.Farewell
import WebSocket.Proofs.Session.Replies
import WebSocket.Proofs.Session.Waiting
import WebSocket.Proofs.Session.Workers
import WebSocket.Proofs.Splitting

/-!
# What a counter sends

A counter does not listen, so its session answers pings and waits. Then its workers send their
lines, in whatever order they get to it, and the one that finishes last closes the session
(`Session.serve_counter`). Each line begins with the number of its worker and a colon, which tells
it from the lines of all others (`Handler.Counter.isPrefixOf_line_iff`). If the peer ends the
session before the workers come to run, they finish without a line.
-/

namespace WebSocket

/-- The pong that answers an event. -/
def Event.pong? : Event → Option (MessageKind × Bytes)
  | .ping payload => some (.pong, payload)
  | _ => none

/-- The pongs that answer events, in order. -/
def pongs (events : List Event) : List (MessageKind × Bytes) := events.filterMap Event.pong?

theorem admissible_pongs {limits : Limits} {events : List Event}
    (within : ∀ event ∈ events, event.Within limits) :
    admissible (pongs events) = pongs events ∧ hasClose (pongs events) = false := by
  refine admissible_answers fun event reported message answers => ?_
  cases event with
  | ping payload =>
    cases answers
    exact ⟨nofun, fun _ => within (.ping payload) reported⟩
  | message kind payload => cases answers
  | close payload => cases answers

namespace Handler

variable {workers count : Nat} {texts : List Bytes}

namespace Counter

/-! ## Lines -/

theorem colon_notMem (n : Nat) : (58 : UInt8) ∉ Bytes.ofString (toString n) := by
  intro member
  have inside := Bytes.mem_of_mem_ofString member (by decide)
  rw [Nat.toString_eq_ofList_toDigits, String.toList_ofList] at inside
  have digit := Nat.isDigit_of_mem_toDigits (by decide) (by decide) inside
  revert digit
  decide

theorem ofString_label (worker : Nat) :
    Bytes.ofString (label worker) = Bytes.ofString (toString worker) ++ [58, 32] := by
  rw [label, Bytes.ofString_append]
  rfl

theorem toString_inj {one other : Nat} (same : toString one = toString other) : one = other := by
  rw [Nat.toString_eq_ofList_toDigits, Nat.toString_eq_ofList_toDigits, String.ofList_inj] at same
  simpa only [Nat.ofDigitChars_ten_toDigits] using congrArg (Nat.ofDigitChars 10 · 0) same

theorem ofString_inj {one other : String} (same : Bytes.ofString one = Bytes.ofString other) :
    one = other := by
  rw [← Text.Utf8.decodeLossy_ofString one, same, Text.Utf8.decodeLossy_ofString]

/-- A line tells whose it is. -/
theorem isPrefixOf_line_iff {worker other number : Nat} :
    (Bytes.ofString (label worker)).isPrefixOf (line other number) = true ↔ worker = other := by
  rw [List.isPrefixOf_iff_prefix, line, Bytes.ofString_append, ofString_label, ofString_label]
  constructor
  · rintro ⟨rest, same⟩
    simp only [List.append_assoc, List.cons_append, List.nil_append] at same
    have digits := congrArg (List.takeWhile (· != 58)) same
    rw [Text.takeWhile_append_mark (colon_notMem worker),
      Text.takeWhile_append_mark (colon_notMem other)] at digits
    exact toString_inj (ofString_inj digits)
  · rintro rfl
    exact List.prefix_append ..

/-- Each worker's lines can be told from those of the others. -/
theorem linesOf_of_interleaves
    (merged : Interleaves ((List.range workers).map (lines count)) texts) {worker : Nat}
    (among : worker < workers) : linesOf worker texts = lines count worker := by
  obtain ⟨before, after, split⟩ := List.append_of_mem (List.mem_range.mpr among)
  have distinct := List.nodup_range (n := workers)
  rw [split] at merged distinct
  rw [List.map_append, List.map_cons] at merged
  refine merged.filter_eq (fun text member => ?_) fun list member text inside => ?_
  · obtain ⟨n, -, rfl⟩ := List.mem_map.mp member
    exact isPrefixOf_line_iff.mpr rfl
  · rw [← List.map_append] at member
    obtain ⟨other, beside, rfl⟩ := List.mem_map.mp member
    obtain ⟨n, -, rfl⟩ := List.mem_map.mp inside
    refine Bool.eq_false_iff.mpr fun mine => ?_
    rw [isPrefixOf_line_iff.mp mine] at distinct
    exact (List.nodup_middle.mp distinct).notMem beside

/-- The lines with which a worker counts down, each with its number and what is left. -/
def countdown (worker : Nat) : Nat → List Bytes
  | 0 => []
  | left + 1 =>
    Bytes.ofString (toString worker ++ ": " ++ toString (left + 1)) :: countdown worker left

theorem lines_eq_countdown (count worker : Nat) : lines count worker = countdown worker count := by
  induction count with
  | zero => rfl
  | succ left ih =>
    rw [countdown, ← ih]
    simp only [lines, List.range_succ, List.reverse_append, List.reverse_singleton,
      List.singleton_append, List.map_cons]
    rfl

/-- What the output has admitted, behind `front`, when all workers have counted down: each
worker's lines in their order and nothing else, and then a close frame with the status 1000. -/
def Counts (workers count : Nat) (front admitted : List (MessageKind × Bytes)) : Prop :=
  ∃ texts : List Bytes,
    admitted = front ++ texts.map (MessageKind.text, ·) ++ [(.close, [0x03, 0xE8])] ∧
      (∀ text ∈ texts, ∃ worker < workers, text ∈ countdown worker count) ∧
      ∀ worker < workers,
        texts.filter (Bytes.ofString (toString worker ++ ": ")).isPrefixOf = countdown worker count

theorem counts_of_interleaves {sent : List Delivery}
    (merged : Interleaves (counter workers count).workers sent)
    (front : List (MessageKind × Bytes)) :
    Counts workers count front (front ++ sent ++ [(.close, BigEndian.encode 2 1000)]) := by
  have lists : (counter workers count).workers.map (·.map (·.2)) =
      (List.range workers).map (lines count) := by
    simp [counter, Function.comp_def]
  have texts := merged.map (·.2)
  rw [lists] at texts
  have plain : (sent.map (·.2)).map (MessageKind.text, ·) = sent := by
    rw [List.map_map]
    refine List.map_congr_left (fun message member => ?_) |>.trans (List.map_id sent)
    obtain ⟨list, among, inside⟩ := merged.mem_iff.mp member
    obtain ⟨worker, -, rfl⟩ := List.mem_map.mp among
    obtain ⟨text, -, rfl⟩ := List.mem_map.mp inside
    rfl
  refine ⟨sent.map (·.2), by rw [plain]; rfl, fun text member => ?_, fun worker among => ?_⟩
  · obtain ⟨list, among, inside⟩ := texts.mem_iff.mp member
    obtain ⟨worker, below, rfl⟩ := List.mem_map.mp among
    exact ⟨worker, List.mem_range.mp below, lines_eq_countdown count worker ▸ inside⟩
  · exact (linesOf_of_interleaves texts among).trans (lines_eq_countdown count worker)

theorem puts_counter {events : List Event} (last : ClosesLast events) (request : Request)
    (number : Nat) : (counter workers count).puts request number events = pongs events := by
  induction events generalizing number with
  | nil => rfl
  | cons event events ih =>
    cases event with
    | message kind payload => exact ih last.tail (number + 1)
    | ping payload => exact congrArg (_ :: ·) (ih last.tail number)
    | close payload =>
      obtain rfl := last [] payload events rfl
      rfl

end Counter

end Handler

namespace Conversation

open Handler

/-- Where no calls are made no tasks are started. -/
theorem spawned_reach_nil (conversation : Conversation) (delivery : Option Delivery) :
    Call.spawned delivery (conversation.reach delivery []) = [] := by
  rw [List.eq_nil_of_subset_nil fun call => mem_of_mem_reach]
  rfl

/-- A counter lets the workers wait, whatever it hears. -/
theorem dispatch_counter (workers count : Nat) (settings : Settings)
    (conversation : Conversation) (events : List Event) :
    let next := (conversation.dispatch (.counter workers count) settings events).2
    next.pending = conversation.pending ∧ next.stopping = conversation.stopping ∧
      next.activeWorkers = conversation.activeWorkers := by
  refine dispatch_induction (P := fun next => next.pending = conversation.pending ∧
    next.stopping = conversation.stopping ∧ next.activeWorkers = conversation.activeWorkers)
    ?_ (fun _ _ same => same) ⟨rfl, rfl, rfl⟩ events
  rintro next kind payload ⟨pending, stopping, active⟩
  refine ⟨?_, ?_, ?_⟩
  · rw [deliver, pending_callback]
    exact (congrArg (next.pending ++ ·) (spawned_reach_nil ..)).trans (by simpa using pending)
  · rw [deliver, callback_snd]
    exact stopping
  · rw [deliver, callback_snd]
    exact active

end Conversation

/-! ## Sessions -/

namespace Session

open Conversation Handler

variable {handler : Handler} {settings : Settings} {request : Request} {inbound : Inbound}
  {sink : Sink} {workers count : Nat}

/-- A client that sends whole frames, breaks nothing and falls silent does not end a session. -/
theorem quiet_of_legal {frames : List Frame.Client}
    (legal : Grammar.Legal settings.limits none frames) (further : Grammar.closes frames = false)
    (sent : inbound.blocks.flatten = frames.flatMap Frame.Client.encode)
    (silent : inbound.ending = .silent) : inbound.Quiet settings := by
  obtain ⟨reported, unbroken⟩ := inbound.heard_of_legal legal sent
  exact ⟨silent, fun payload => reported ▸ Grammar.close_notMem_reports further none payload,
    unbroken⟩

/-- When the peer falls silent, the session waits for its tasks. -/
theorem Opens.conversed_of_quiet (opens : Opens handler request sink)
    (quiet : inbound.Quiet settings)
    (further : ((opened handler request sink).dispatch handler settings
      (inbound.heard settings).events.toList).2.server.closing = false) :
    conversed handler settings request inbound sink =
      ((opened handler request sink).dispatch handler settings
        (inbound.heard settings).events.toList).2.await handler := by
  rw [opens.conversed_of_unclosed quiet.closes, further, quiet.violation, quiet.silent]
  rfl

/-- A counter's session has answered the pings when it waits, and all lines are left. -/
theorem Opens.crew_counter (opens : Opens (.counter workers count) request sink)
    (settings : Settings) (inbound : Inbound) :
    let events := (inbound.heard settings).events.toList
    let waiting :=
      ((opened (.counter workers count) request sink).dispatch (.counter workers count) settings
        events).2
    waiting.Crew (Handler.counter workers count).workers ∧
      waiting.server.outbound.admitted.toList = pongs events := by
  intro events waiting
  have put := (listens_opened opens).dispatch opens.put_opened (.counter workers count) settings
    events
  obtain ⟨all, none⟩ := admissible_pongs (inbound.within_heard settings)
  rw [List.nil_append, Counter.puts_counter (inbound.closesLast_heard settings)] at put
  obtain ⟨pending, stopping, active⟩ := dispatch_counter workers count settings
    (opened (.counter workers count) request sink) events
  refine ⟨?_, put.admitted.trans all⟩
  exact {
    serving := put.serving
    further := put.closing.trans (by rw [all, none])
    goes := stopping
    waits := pending
    active := active
    data := by
      intro list among message inside
      obtain ⟨worker, -, rfl⟩ := List.mem_map.mp among
      obtain ⟨text, -, rfl⟩ := List.mem_map.mp inside
      rfl }

/-- Workers that have not come to run when their session is over finish without sending anything. -/
theorem getsThrough_closedDown (busy : handler.workers ≠ []) (silent : handler.part = [])
    {conversation : Conversation} (waits : conversation.Awaits handler.workers)
    (active : conversation.activeWorkers = handler.workers.length) :
    (conversation.tearDown handler).pending = [] ∧
      (conversation.tearDown handler).activeWorkers = 0 ∧
      conversation.closedDown.GetsThrough handler fun state =>
        state.server.outbound = conversation.server.outbound.detach ∧ state.activeWorkers = 0 := by
  have stopped : conversation.closedDown.Stopped conversation.server.outbound.detach
      handler.workers := ⟨Server.outbound_markClosing _, rfl, waits, active⟩
  have through : conversation.closedDown.GetsThrough handler _ := stopped.getsThrough rfl
  have halted : conversation.halted handler = conversation.closedDown.settle handler :=
    if_neg (by simpa using busy)
  have idle := pending_settle handler conversation.closedDown
  refine ⟨?_, ?_, through⟩
  · rw [tearDown_eq, halted, silent]
    dsimp only
    rw [pending_callback, idle, spawned_reach_nil]
    rfl
  · rw [tearDown_eq, halted]
    dsimp only
    rw [callback_snd]
    exact (through.settle stopped.waits).2

/-- **A counter delivers every line, and closes last.** When the peer of an open session falls
silent and has not ended it, the session comes to an end all the same, whatever the stream takes
behind the head: it is closed by this side, behind the pongs for all pings and all lines of all
workers, each worker's in order. A stream that takes all gets just that behind the head. It does not
matter in which order the workers take their turns: none of them can be kept from going on, they
get through, and the session is closed when they are, and not before.

If the peer ends the session, or breaks the protocol, before the workers come to run, no line is
sent. The run returns, and every worker finishes without sending anything, again in any order. -/
theorem serve_counter (busy : 0 < workers) (opens : Opens (.counter workers count) request sink)
    (settings : Settings) (inbound : Inbound) :
    let handler := Handler.counter workers count
    let run := serve handler settings request inbound sink
    let events := (inbound.heard settings).events.toList
    let waiting := ((opened handler request sink).dispatch handler settings events).2
    (sink.TakesAll → run.sink.written.toList = sink.written.toList ++
      (head handler request sink).1 ++ Frame.encodeAll run.outbound.admitted.toList) ∧
    (inbound.Quiet settings →
      run.verdict = .returned (.ok .localClosed) ∧
        Counter.Counts workers count (pongs events) run.outbound.admitted.toList ∧
        (∀ state, Relation.ReflTransGen (Works handler) waiting state →
          (state.server.closing = true ↔ state.pending = [])) ∧
        waiting.GetsThrough handler fun state =>
          Counter.Counts workers count (pongs events) state.server.outbound.admitted.toList) ∧
    (¬ inbound.Quiet settings →
      ∃ outcome payload,
        let ended := parted waiting outcome
        run.verdict = .returned (.ok outcome) ∧ inbound.Ends settings outcome ∧
          run.outbound.admitted.toList = pongs events ++ [(.close, payload)] ∧
          (ended.tearDown handler).pending = [] ∧ (ended.tearDown handler).activeWorkers = 0 ∧
          ended.closedDown.GetsThrough handler fun state =>
            state.server.outbound = ended.server.outbound.detach ∧ state.activeWorkers = 0) := by
  intro handler run events waiting
  obtain ⟨crew, answered⟩ := opens.crew_counter settings inbound
  have several : handler.workers ≠ [] := by
    simpa [handler, Handler.counter] using Nat.pos_iff_ne_zero.mp busy
  have encoded : handler.farewell.encode = .ok (BigEndian.encode 2 1000) := rfl
  refine ⟨fun takes => ?_, fun quiet => ?_, fun unquiet => ?_⟩
  · exact (served_of_takesAll (served_serve opens settings inbound) opens takes).1
  · have through := crew.getsThrough several encoded
    rw [answered] at through
    have counts : waiting.GetsThrough handler fun state => state.server.closing = true ∧
        Counter.Counts workers count (pongs events) state.server.outbound.admitted.toList := by
      refine through.imp fun state => ?_
      rintro ⟨sent, merged, dismissed⟩
      exact ⟨dismissed.closing,
        dismissed.admitted ▸ Counter.counts_of_interleaves merged (pongs events)⟩
    obtain ⟨closing, counted⟩ := counts.settle crew.waits
    have ended : conversed handler settings request inbound sink =
        (some .localClosed, waiting.settle handler) := by
      rw [opens.conversed_of_quiet quiet crew.further]
      exact Prod.ext (if_pos closing) rfl
    have returned : run = _ := opens.serve_eq ended
    refine ⟨by rw [returned]; rfl, ?_, fun state reached => ?_,
      counts.imp fun state => And.right⟩
    · rw [returned, outbound_finish_tearDown]
      exact counted
    · exact (crew.reached several encoded reached).closing_iff
  · obtain ⟨outcome, ended⟩ := opens.conversed_of_unquiet unquiet
    have returned : run = _ := opens.serve_eq ended
    obtain ⟨further, ends⟩ := (opens.ends_conversed ended).resolve_left fun ours =>
      absurd (ours.2.symm.trans crew.further) (by decide)
    obtain ⟨payload, -, admitted⟩ := opens.parted_ends ended further ends
    refine ⟨outcome, payload, by rw [returned]; rfl, ends, ?_, ?_⟩
    · rw [returned, outbound_finish_tearDown]
      exact admitted.trans (congrArg (· ++ _) answered)
    · exact getsThrough_closedDown several rfl crew.waits crew.active

/-- Two workers with two lines each, beside a message that is not heard and a ping: on a stream that
takes two bytes behind the head, and when the stream ends instead of falling silent. -/
theorem serve_counter_two :
    let request := Request.ofParts "GET" "/chat"
      [("Upgrade", "websocket"), ("Connection", "Upgrade"), ("Sec-WebSocket-Version", "7"),
        ("Sec-WebSocket-Key", "AQIDBAUGBwgJCgsMDQ4PEA==")]
    let frames : List Frame.Client :=
      [⟨true, .text, [72, 105], ⟨1, 2, 3, 4⟩⟩, ⟨true, .ping, [7], ⟨5, 6, 7, 8⟩⟩]
    let inbound (ending : Ending) : Inbound := ⟨[frames.flatMap Frame.Client.encode], ending⟩
    0 < 2 ∧ Opens (.counter 2 2) request { room := some 131 } ∧ (inbound .silent).Quiet {} ∧
      (serve (.counter 2 2) {} request (inbound .silent) { room := some 131 }).verdict =
        .returned (.ok .localClosed) ∧
      (∃ texts : List Bytes,
        (serve (.counter 2 2) {} request (inbound .silent)
            { room := some 131 }).outbound.admitted.toList =
          [(.pong, [7])] ++ texts.map (MessageKind.text, ·) ++ [(.close, [0x03, 0xE8])] ∧
        (∀ text ∈ texts, text ∈ ["0: 2", "0: 1", "1: 2", "1: 1"].map Bytes.ofString) ∧
        texts.filter (Bytes.ofString "0: ").isPrefixOf = ["0: 2", "0: 1"].map Bytes.ofString ∧
        texts.filter (Bytes.ofString "1: ").isPrefixOf = ["1: 2", "1: 1"].map Bytes.ofString) ∧
      ∃ outcome payload,
        (serve (.counter 2 2) {} request (inbound .eof) { room := some 131 }).verdict =
            .returned (.ok outcome) ∧
          (serve (.counter 2 2) {} request (inbound .eof)
            { room := some 131 }).outbound.admitted.toList = [(.pong, [7]), (.close, payload)] := by
  intro request frames inbound
  have opens : Opens (.counter 2 2) request { room := some 131 } :=
    ⟨⟨rfl, rfl, rfl⟩, by decide +kernel⟩
  have legal : Grammar.Legal {} none frames := by decide
  have sent (ending : Ending) :
      (inbound ending).blocks.flatten = frames.flatMap Frame.Client.encode := List.append_nil _
  have quiet : (inbound .silent).Quiet {} := quiet_of_legal legal (by decide) (sent .silent) rfl
  have heard (ending : Ending) :
      pongs ((inbound ending).heard {}).events.toList = [(.pong, [7])] := by
    rw [(Inbound.heard_of_legal legal (sent ending)).1]
    decide
  obtain ⟨-, silent, -⟩ := serve_counter (by decide) opens {} (inbound .silent)
  obtain ⟨-, -, ends⟩ := serve_counter (by decide) opens {} (inbound .eof)
  obtain ⟨returned, counts, -⟩ := silent quiet
  obtain ⟨outcome, payload, ended, -, admitted, -⟩ := ends fun quiet => nomatch quiet.silent
  rw [heard] at counts admitted
  obtain ⟨texts, all, among, each⟩ := counts
  have first : Counter.countdown 0 2 = ["0: 2", "0: 1"].map Bytes.ofString := by decide
  have second : Counter.countdown 1 2 = ["1: 2", "1: 1"].map Bytes.ofString := by decide
  refine ⟨by decide, opens, quiet, returned, ⟨texts, all, fun text member => ?_,
    (each 0 (by decide)).trans first, (each 1 (by decide)).trans second⟩, outcome, payload, ended,
    admitted⟩
  obtain ⟨worker, below, inside⟩ := among text member
  obtain rfl | rfl : worker = 0 ∨ worker = 1 := by omega
  · rw [first] at inside
    exact List.mem_append_left (["1: 2", "1: 1"].map Bytes.ofString) inside
  · rw [second] at inside
    exact List.mem_append_right (["0: 2", "0: 1"].map Bytes.ofString) inside

end Session

end WebSocket
