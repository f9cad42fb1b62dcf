import WebSocket.Proofs.Reassembly.Blocks
import WebSocket.Proofs.Session.ClosingFlag

/-!
# Cuts of the input

A session does not depend on how its input is cut (`serve_of_flatten_eq`). The events of two
blocks are those of the blocks in one, and acting on them stops at the same event; what makes
this work is that the flag, which is looked at before each read, can only have come up where an
event has ended the session already. So reading many blocks is reading the one that they make up
(`converse_flatten`).
-/

namespace WebSocket

namespace Conversation

variable {handler : Handler} {settings : Settings} {ending : Ending} {machine : Reassembler}
  {conversation next : Conversation}

theorem dispatch_append (events more : List Event) (conversation : Conversation) :
    conversation.dispatch handler settings (events ++ more) =
      match conversation.dispatch handler settings events with
      | (some outcome, next) => (some outcome, next)
      | (none, next) => next.dispatch handler settings more := by
  induction events generalizing conversation with
  | nil => rfl
  | cons event events ih =>
    cases event with
    | message kind payload =>
      simp only [List.cons_append, dispatch]
      split
      · rfl
      · exact ih _
    | ping payload => exact ih _
    | close payload => rfl

/-- While events do not end a session, its flag stays down. -/
theorem dispatch_eq_none {events : List Event} (marked : conversation.server.Marked)
    (further : conversation.server.closing = false)
    (h : conversation.dispatch handler settings events = (none, next)) :
    next.server.Marked ∧ next.server.closing = false := by
  induction events generalizing conversation with
  | nil =>
    cases h
    exact ⟨marked, further⟩
  | cons event events ih =>
    cases event with
    | message kind payload =>
      simp only [dispatch] at h
      split at h
      · cases h
      · next still =>
        exact ih (marked_deliver marked kind payload) (Bool.eq_false_iff.mpr still) h
    | ping payload =>
      refine ih (Server.marked_send _ _ _) ?_ h
      rw [Server.send_snd, Server.closing_trySend marked (by decide), further]
    | close payload => cases h

/-- Only whether reserved close codes are accepted counts. -/
theorem dispatch_congr {settings' : Settings}
    (reserved : settings.allowReserved = settings'.allowReserved) (events : List Event)
    (conversation : Conversation) :
    conversation.dispatch handler settings events =
      conversation.dispatch handler settings' events := by
  induction events generalizing conversation with
  | nil => rfl
  | cons event events ih =>
    cases event with
    | message kind payload => simp only [dispatch, ih]
    | ping payload => exact ih _
    | close payload => simp only [dispatch, reserved]

theorem converse_of_closing (closing : conversation.server.closing = true) (blocks : List Bytes) :
    conversation.converse handler settings ending blocks machine =
      (some .localClosed, conversation) := by
  unfold converse
  rw [if_pos closing]

theorem converse_cons (further : conversation.server.closing = false) (block : Bytes)
    (blocks : List Bytes) :
    conversation.converse handler settings ending (block :: blocks) machine =
      let feed := machine.feed settings.limits block
      match conversation.dispatch handler settings feed.events.toList with
      | (some outcome, next) => (some outcome, next)
      | (none, next) =>
        match feed.violation with
        | some error => (some (.protocolError error), next)
        | none => next.converse handler settings ending blocks feed.machine := by
  rw [converse, further]
  rfl

theorem converse_congr {settings' : Settings} (limits : settings.limits = settings'.limits)
    (reserved : settings.allowReserved = settings'.allowReserved) (blocks : List Bytes) :
    conversation.converse handler settings ending blocks machine =
      conversation.converse handler settings' ending blocks machine := by
  induction blocks generalizing machine conversation with
  | nil => rfl
  | cons block blocks ih =>
    cases closing : conversation.server.closing with
    | true => rw [converse_of_closing closing, converse_of_closing closing]
    | false =>
      simp only [converse_cons closing, limits, dispatch_congr reserved, ih]

/-- Reading many blocks is reading the one that they make up. -/
theorem converse_flatten (blocks : List Bytes) (settled : machine.IsSettled settings.limits)
    (marked : conversation.server.Marked) :
    conversation.converse handler settings ending blocks machine =
      conversation.converse handler settings ending [blocks.flatten] machine := by
  induction blocks generalizing machine conversation with
  | nil =>
    cases closing : conversation.server.closing with
    | true => rw [converse_of_closing closing, converse_of_closing closing]
    | false =>
      have nothing : machine.feed settings.limits [] = { machine } :=
        Reassembler.feedFrom_of_pause settled
      simp only [converse_cons closing, List.flatten_nil, nothing]
      rfl
  | cons block blocks ih =>
    cases closing : conversation.server.closing with
    | true => rw [converse_of_closing closing, converse_of_closing closing]
    | false =>
      have joined := Reassembler.feed_append settings.limits machine block blocks.flatten
      simp only [converse_cons closing, List.flatten_cons, joined, Array.toList_append,
        dispatch_append]
      cases acted : conversation.dispatch handler settings
          (machine.feed settings.limits block).events.toList with
      | mk outcome next =>
        cases outcome with
        | some outcome => rfl
        | none =>
          obtain ⟨marked, further⟩ := dispatch_eq_none marked closing acted
          cases broken : (machine.feed settings.limits block).violation with
          | some error =>
            -- A closed machine reports nothing more.
            have silent : (machine.feed settings.limits block).machine.feed settings.limits
                blocks.flatten = { machine := (machine.feed settings.limits block).machine } :=
              Reassembler.feedFrom_of_closing (Reassembler.stage_of_violation broken)
            simp only [silent, Option.some_or]
            rfl
          | none =>
            have settled : (machine.feed settings.limits block).machine.IsSettled
                settings.limits := Reassembler.isSettled_feedFrom
            simp only [ih settled marked, converse_cons further, Option.none_or]

theorem flatten_reads (inbound : Inbound) (size : Nat) :
    (inbound.reads size).flatten = inbound.blocks.flatten := by
  rw [Inbound.reads, List.flatMap_def, List.flatten_flatten, List.map_map]
  simp [Function.comp_def, Bytes.flatten_pieces]

theorem accept_of_flatten_eq (marked : conversation.server.Marked) (size size' : Nat)
    {blocks blocks' : List Bytes} (same : blocks.flatten = blocks'.flatten) :
    conversation.accept handler { settings with readBlock := size } { blocks, ending } =
      conversation.accept handler { settings with readBlock := size' }
        { blocks := blocks', ending } := by
  have reads {next : Conversation} (marked : next.server.Marked) :
      next.converse handler { settings with readBlock := size } ending
          (Inbound.reads { blocks, ending } size) {} =
        next.converse handler { settings with readBlock := size' } ending
          (Inbound.reads { blocks := blocks', ending } size') {} := by
    rw [converse_flatten _ Reassembler.isSettled_fresh marked,
      converse_flatten (Inbound.reads _ size') Reassembler.isSettled_fresh marked,
      flatten_reads, flatten_reads, same]
    refine converse_congr ?_ ?_ _ <;> rfl
  have answered := Server.marked_sendHead marked
  unfold accept
  cases sent : conversation.server.sendHead with
  | mk result server =>
    rw [sent] at answered
    cases result with
    | error error => rfl
    | ok =>
      simp only
      rw [reads]
      exact answered

end Conversation

namespace Session

/-- **However the input is cut and read, a session takes the same course**: it ends alike, writes
the same bytes, and its handler sees the same. -/
theorem serve_of_flatten_eq (handler : Handler) (settings : Settings) (request : Request)
    (ending : Ending) (sink : Sink) (size size' : Nat) {blocks blocks' : List Bytes}
    (same : blocks.flatten = blocks'.flatten) :
    serve handler { settings with readBlock := size } request { blocks, ending } sink =
      serve handler { settings with readBlock := size' } request { blocks := blocks', ending }
        sink := by
  have start : ((Server.ofRequest request sink).advance .connecting).Marked :=
    fun closed => closed
  unfold serve
  split
  · rfl
  · dsimp only
    split
    · rfl
    · next conversation called =>
      have marked : (true, conversation).2.server.Marked :=
        called ▸ Conversation.marked_callback start _ _ _
      split
      · exact Conversation.accept_of_flatten_eq marked size size' same
      · rfl

/-- A masked message read in one piece, or byte by byte from three blocks. -/
theorem serve_of_flatten_eq_blocks :
    let request := Request.ofParts "GET" "/chat"
      [("Upgrade", "websocket"), ("Connection", "Upgrade"), ("Sec-WebSocket-Version", "7"),
        ("Sec-WebSocket-Key", "AQIDBAUGBwgJCgsMDQ4PEA==")]
    let handler : Handler :=
      { reply := fun _ _ message => [.send message.1 message.2, .spawn [.close]]
        keepsJournal := true }
    let cut : List Bytes := [[0x81], [0x82, 1, 2, 3], [4, 73, 107]]
    request.validate = .ok () ∧ cut.flatten = [[0x81, 0x82, 1, 2, 3, 4, 73, 107]].flatten ∧
      serve handler { readBlock := 1 } request { blocks := cut, ending := .eof } {} =
        serve handler {} request
          { blocks := [[0x81, 0x82, 1, 2, 3, 4, 73, 107]], ending := .eof } {} := by
  intro request handler cut
  have same : cut.flatten = [[0x81, 0x82, 1, 2, 3, 4, 73, 107]].flatten := by decide
  exact ⟨rfl, same, serve_of_flatten_eq handler {} request .eof {} 1 4096 same⟩

end Session

end WebSocket
