import WebSocket.Proofs.Reassembly.Grammar

/-!
# What is reported

Nothing is reported behind a close frame (`Grammar.closesLast_decode`). And what is reported is
within the limits (`Grammar.within_decode`), since a frame is refused at its length, before any of
its payload is read, if it is too large or would make its message too large: every message is one of
data within the message limit, and what a ping or a close frame carries fits a control frame.
-/

namespace WebSocket

/-- Nothing is reported behind a close frame. -/
def ClosesLast (events : List Event) : Prop :=
  ∀ front payload back, events = front ++ .close payload :: back → back = []

theorem ClosesLast.tail {event : Event} {events : List Event}
    (last : ClosesLast (event :: events)) : ClosesLast events :=
  fun front payload back split => last (event :: front) payload back (by rw [split]; rfl)

theorem ClosesLast.cons {event : Event} {events : List Event} (last : ClosesLast events)
    (other : ∀ payload, event ≠ .close payload) : ClosesLast (event :: events) := by
  intro front payload back split
  cases front with
  | nil => exact absurd (List.cons.inj split).1 (other payload)
  | cons first front => exact last front payload back (List.cons.inj split).2

/-- What the limits let an event hold. -/
def Event.Within (limits : Limits) : Event → Prop
  | .message kind payload => kind.isControl = false ∧ payload.length ≤ limits.maxMessage
  | .ping payload | .close payload => payload.length ≤ Error.maxControlPayload

namespace Grammar

variable {limits : Limits} {unfinished : Option Unfinished} {bytes rest : Bytes}
  {frame : Frame.Client}

/-! ## The end of the events -/

theorem opcode_of_absorb_close {unfinished : Option Unfinished} {frame : Frame.Client}
    {payload : Bytes} (h : (absorb unfinished frame).1 = some (.close payload)) :
    frame.opcode = .close := by
  unfold absorb at h
  split at h
  · assumption
  · cases h
  · cases h
  all_goals
    split at h
    · cases h
    · dsimp only at h
      split at h <;> cases h

theorem closesLast_decode (limits : Limits) (unfinished : Option Unfinished) (bytes : Bytes) :
    ClosesLast (decode limits unfinished bytes).events := by
  fun_induction decode limits unfinished bytes with
  | case1 => exact fun _ _ _ split => by simp at split
  | case2 => exact fun _ _ _ split => by simp at split
  | case3 unfinished bytes frame rest reads event behind absorbed close =>
    intro front payload back split
    have count := congrArg List.length split
    have short : event.toList.length ≤ 1 := by cases event <;> simp
    simp only [List.length_append, List.length_cons] at count
    exact List.eq_nil_of_length_eq_zero (by omega)
  | case4 unfinished bytes frame rest reads event behind absorbed further ih =>
    cases event with
    | none => exact ih
    | some event =>
      refine ih.cons ?_
      rintro payload rfl
      have closed : (absorb unfinished frame).1 = some (.close payload) := by rw [absorbed]
      exact further (opcode_of_absorb_close closed)

/-! ## Sizes -/

theorem small_of_oversize {size length : Nat} {opcode : Opcode}
    (fits : oversize? limits size opcode length = none) :
    if opcode.isControl then length ≤ Error.maxControlPayload
    else size + length ≤ limits.maxMessage := by
  unfold oversize? at fits
  split at fits
  · cases fits
  · split at fits
    · cases fits
    · split at fits
      · next control =>
        rw [if_pos control]
        split at fits
        · cases fits
        · next small => exact Nat.not_lt.mp small
      · next data =>
        rw [if_neg data]
        split at fits
        · cases fits
        · next small => exact Nat.not_lt.mp small

theorem length_of_readPayload {mask : Mask} {length : Nat} {payload : Bytes}
    (reads : readPayload mask length bytes = .whole payload rest) : payload.length = length := by
  unfold readPayload at reads
  split at reads
  · cases reads
  · next enough =>
    obtain ⟨rfl, -⟩ := Reading.whole.inj reads
    rw [List.length_mapIdx, List.length_take, Nat.min_eq_left (Nat.not_lt.mp enough)]

theorem oversize_of_readSize {size length : Nat} {opcode : Opcode}
    (reads : readSize limits size opcode bytes = .whole length rest) :
    oversize? limits size opcode length = none := by
  obtain ⟨length, between, -, admitted⟩ := andThen_eq_whole reads
  unfold allow at admitted
  split at admitted
  · cases admitted
  · next fits =>
    obtain ⟨rfl, -⟩ := Reading.whole.inj admitted
    exact fits

/-- A whole frame is within the limits. -/
theorem fits_of_readFrame (reads : readFrame limits unfinished bytes = .whole frame rest) :
    oversize? limits (held (begin unfinished frame.opcode)) frame.opcode frame.payload.length =
      none := by
  obtain ⟨⟨fin, opcode⟩, afterOpening, -, reads⟩ := andThen_eq_whole reads
  obtain ⟨length, afterSize, size, reads⟩ := andThen_eq_whole reads
  obtain ⟨mask, afterKey, -, reads⟩ := andThen_eq_whole reads
  obtain ⟨payload, afterPayload, payloadRead, reads⟩ := andThen_eq_whole reads
  obtain ⟨rfl, -⟩ := Reading.whole.inj reads
  rw [length_of_readPayload payloadRead]
  exact oversize_of_readSize size

/-- A message in progress is one of data. -/
def IsData (unfinished : Option Unfinished) : Prop :=
  ∀ message ∈ unfinished, message.kind.isControl = false

theorem IsData.begin (data : IsData unfinished) (opcode : Opcode) :
    IsData (begin unfinished opcode) := by
  cases opcode with
  | text | binary =>
    rintro message ⟨⟩
    rfl
  | _ => exact data

/-- A data frame goes on with the message that it belongs to, or completes it. -/
theorem absorb_of_data (data : frame.opcode.isControl = false) :
    absorb unfinished frame =
      (begin unfinished frame.opcode).elim (none, none) fun message =>
        if frame.fin then (some (.message message.kind (message.payload ++ frame.payload)), none)
        else (none, some { message with payload := message.payload ++ frame.payload }) := by
  unfold absorb
  split
  case h_1 opcode | h_2 opcode | h_3 opcode =>
    rw [opcode] at data
    cases data
  all_goals cases begin unfinished frame.opcode <;> rfl

/-- What a frame that fits reports is within the limits, and what it leaves is data. -/
theorem within_absorb (data : IsData unfinished)
    (fits : oversize? limits (held (begin unfinished frame.opcode)) frame.opcode
      frame.payload.length = none) :
    (∀ event ∈ (absorb unfinished frame).1, event.Within limits) ∧
      IsData (absorb unfinished frame).2 := by
  have small := small_of_oversize fits
  cases control : frame.opcode.isControl with
  | true =>
    rw [control, if_pos rfl] at small
    unfold absorb
    split
    · exact ⟨by rintro event ⟨⟩; exact small, data⟩
    · exact ⟨by rintro event ⟨⟩; exact small, data⟩
    · exact ⟨nofun, data⟩
    all_goals
      next opcode =>
        rw [opcode] at control
        cases control
  | false =>
    have begun := data.begin frame.opcode
    rw [control, if_neg Bool.false_ne_true] at small
    rw [absorb_of_data control]
    cases there : begin unfinished frame.opcode with
    | none => exact ⟨nofun, nofun⟩
    | some message =>
      have kind : message.kind.isControl = false := begun message there
      rw [there] at small
      cases frame.fin with
      | true =>
        refine ⟨?_, nofun⟩
        rintro event ⟨⟩
        exact ⟨kind, by rw [List.length_append]; exact small⟩
      | false =>
        refine ⟨nofun, ?_⟩
        rintro next ⟨⟩
        exact kind

/-- **Every event that is reported is within the limits.** -/
theorem within_decode (data : IsData unfinished) :
    ∀ event ∈ (decode limits unfinished bytes).events, event.Within limits := by
  fun_induction decode limits unfinished bytes with
  | case1 => exact nofun
  | case2 => exact nofun
  | case3 unfinished bytes frame rest reads event behind absorbed close =>
    have within := (within_absorb data (fits_of_readFrame reads)).1
    rw [absorbed] at within
    simpa using within
  | case4 unfinished bytes frame rest reads event behind absorbed further ih =>
    obtain ⟨within, still⟩ := within_absorb data (fits_of_readFrame reads)
    rw [absorbed] at within still
    intro reported member
    rcases List.mem_append.mp member with now | later
    · exact within reported (Option.mem_toList.mp now)
    · exact ih still reported later

end Grammar

end WebSocket
