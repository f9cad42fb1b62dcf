import Mathlib.Data.List.Induction
import WebSocket.Handshake.Head

/-!
# The arrival of a request head

A head ends with its first blank line (`Head.IsHead`). What reading comes to depends on the bytes
that a stream delivers and on how it ends, and not on the blocks in which the bytes come: a head
that ends within the bound is given as it is, with the bytes behind it left in the stream, and
otherwise the reader tells why there is none (`Head.Arrives`, `Head.arrives_iff`).

The reader knows the line in progress only. That is enough, since a byte ends a blank line just
if it is a line feed and that line is empty or holds a single carriage return
(`Head.endsBlank_concat_iff`).
-/

namespace WebSocket.Head

/-- The last line of these bytes is blank: a line feed at the start of a line, or one behind a
carriage return there. -/
def EndsBlank (bytes : Bytes) : Prop :=
  ∃ before blank, bytes = before ++ blank ∧
    (before = [] ∨ before.getLast? = some lineFeed) ∧
    (blank = [lineFeed] ∨ blank = [carriageReturn, lineFeed])

/-- No line of these bytes is blank. -/
def Headless (bytes : Bytes) : Prop := ∀ front, front <+: bytes → ¬ EndsBlank front

/-- These bytes end with their first blank line. -/
structure IsHead (head : Bytes) : Prop where
  blank : EndsBlank head
  first : ∀ front, front <+: head → EndsBlank front → front = head

variable {bytes more head rest : Bytes} {byte : UInt8} {max : Nat} {ending : Ending}

theorem Headless.of_isPrefix (headless : Headless bytes) (front : more <+: bytes) :
    Headless more :=
  fun _ shorter => headless _ (shorter.trans front)

theorem headless_nil : Headless [] := by
  rintro front nothing ⟨before, blank, split, -, line⟩
  rw [List.prefix_nil.mp nothing] at split
  rcases line with rfl | rfl <;> simp at split

theorem Headless.concat (headless : Headless bytes) (further : ¬ EndsBlank (bytes ++ [byte])) :
    Headless (bytes ++ [byte]) := by
  intro front before
  rcases List.prefix_concat_iff.mp before with rfl | before
  · exact further
  · exact headless front before

/-- A blank line behind lines that are not blank ends a head. -/
theorem Headless.isHead_concat (headless : Headless bytes) (blank : EndsBlank (bytes ++ [byte])) :
    IsHead (bytes ++ [byte]) := by
  refine ⟨blank, fun front before ends => ?_⟩
  rcases List.prefix_concat_iff.mp before with whole | before
  · exact whole
  · exact absurd ends (headless front before)

/-- Bytes with a blank line begin with a head. -/
theorem exists_isHead (blank : ¬ Headless bytes) : ∃ head, head <+: bytes ∧ IsHead head := by
  induction bytes using List.reverseRecOn with
  | nil => exact absurd headless_nil blank
  | append_singleton bytes byte ih =>
    by_cases before : Headless bytes
    · have ends : EndsBlank (bytes ++ [byte]) :=
        Classical.byContradiction fun further => blank (before.concat further)
      exact ⟨bytes ++ [byte], List.prefix_rfl, before.isHead_concat ends⟩
    · obtain ⟨head, front, isHead⟩ := ih before
      exact ⟨head, front.trans (List.prefix_append ..), isHead⟩

/-! ## The line in progress -/

/-- The bytes behind the last line feed, last first. -/
def openLine (bytes : Bytes) : Bytes := bytes.reverse.takeWhile (· != lineFeed)

theorem openLine_concat (bytes : Bytes) (byte : UInt8) :
    openLine (bytes ++ [byte]) = if byte = lineFeed then [] else byte :: openLine bytes := by
  by_cases feed : byte = lineFeed <;> simp [openLine, feed]

theorem openLine_eq_nil_iff :
    openLine bytes = [] ↔ bytes = [] ∨ bytes.getLast? = some lineFeed := by
  rcases List.eq_nil_or_concat bytes with rfl | ⟨before, last, rfl⟩
  · simp [openLine]
  · by_cases feed : last = lineFeed <;> simp [openLine_concat, feed]

/-- Which bytes end a blank line can be told from the line in progress. -/
theorem endsBlank_concat_iff :
    EndsBlank (bytes ++ [byte]) ↔
      byte = lineFeed ∧ (openLine bytes = [] ∨ openLine bytes = [carriageReturn]) := by
  constructor
  · rintro ⟨before, blank, split, start, rfl | rfl⟩
    · obtain ⟨rfl, same⟩ := List.append_inj' split rfl
      exact ⟨List.singleton_inj.mp same, .inl (openLine_eq_nil_iff.mpr start)⟩
    · have split : bytes ++ [byte] = (before ++ [carriageReturn]) ++ [lineFeed] := by
        rw [split, List.append_assoc, List.singleton_append]
      obtain ⟨rfl, same⟩ := List.append_inj' split rfl
      refine ⟨List.singleton_inj.mp same, .inr ?_⟩
      rw [openLine_concat, if_neg (by decide), openLine_eq_nil_iff.mpr start]
  · rintro ⟨rfl, empty | single⟩
    · exact ⟨bytes, [lineFeed], rfl, openLine_eq_nil_iff.mp empty, .inl rfl⟩
    · rcases List.eq_nil_or_concat bytes with rfl | ⟨before, last, rfl⟩
      · simp [openLine] at single
      · rw [List.concat_eq_append, openLine_concat] at single
        split at single
        · cases single
        · obtain ⟨rfl, start⟩ := List.cons.inj single
          refine ⟨before, [carriageReturn, lineFeed], ?_, openLine_eq_nil_iff.mp start, .inr rfl⟩
          rw [List.concat_eq_append, List.append_assoc, List.singleton_append]

/-! ## Reading on -/

/-- What is known when these bytes have been read. -/
def Progress.after (bytes : Bytes) : Progress where
  taken := bytes.reverse
  count := bytes.length
  line := openLine bytes

theorem step_after_of_full (full : max ≤ bytes.length) (byte : UInt8) :
    (Progress.after bytes).step max byte = .failed (.handshakeTooLarge (bytes.length + 1) max) :=
  if_pos (Nat.lt_succ_of_le full)

theorem step_after_of_lt (short : bytes.length < max) (byte : UInt8) :
    (Progress.after bytes).step max byte =
      if byte = lineFeed then
        if openLine bytes = [] ∨ openLine bytes = [carriageReturn] then
          .done (byte :: bytes.reverse).reverse
        else .more ⟨byte :: bytes.reverse, bytes.length + 1, []⟩
      else .more ⟨byte :: bytes.reverse, bytes.length + 1, byte :: openLine bytes⟩ :=
  if_neg (Nat.not_lt.mpr short)

theorem step_after_of_endsBlank (short : bytes.length < max)
    (blank : EndsBlank (bytes ++ [byte])) :
    (Progress.after bytes).step max byte = .done (bytes ++ [byte]) := by
  obtain ⟨feed, line⟩ := endsBlank_concat_iff.mp blank
  rw [step_after_of_lt short, if_pos feed, if_pos line, List.reverse_cons, List.reverse_reverse]

theorem step_after_of_further (short : bytes.length < max)
    (further : ¬ EndsBlank (bytes ++ [byte])) :
    (Progress.after bytes).step max byte = .more (.after (bytes ++ [byte])) := by
  rw [endsBlank_concat_iff, not_and] at further
  rw [step_after_of_lt short]
  simp only [Progress.after, openLine_concat, List.reverse_append, List.reverse_singleton,
    List.singleton_append, List.length_append, List.length_singleton]
  split
  · next feed => rw [if_neg (further feed)]
  · rfl

theorem scan_append (progress : Progress) (bytes more : Bytes) :
    scan max progress (bytes ++ more) =
      match scan max progress bytes with
      | (.more progress, _) => scan max progress more
      | (stop, rest) => (stop, rest ++ more) := by
  induction bytes generalizing progress with
  | nil => rfl
  | cons byte bytes ih =>
    rw [List.cons_append, scan, scan]
    cases progress.step max byte with
    | more progress => exact ih progress
    | done head => rfl
    | failed error => rfl

/-- Up to the end of a head the reader reads on, and there it stops. -/
theorem scan_of_isHead (headless : Headless bytes) (isHead : IsHead (bytes ++ more))
    (fits : (bytes ++ more).length ≤ max) (rest : Bytes) :
    scan max (.after bytes) (more ++ rest) = (.done (bytes ++ more), rest) := by
  induction more generalizing bytes with
  | nil =>
    rw [List.append_nil] at isHead
    exact absurd isHead.blank (headless bytes List.prefix_rfl)
  | cons byte more ih =>
    have regroup : bytes ++ byte :: more = (bytes ++ [byte]) ++ more := by simp
    rw [regroup] at isHead fits ⊢
    have short : bytes.length < max := by
      simp only [List.length_append, List.length_singleton] at fits
      omega
    rw [List.cons_append, scan]
    by_cases blank : EndsBlank (bytes ++ [byte])
    · have whole := isHead.first _ (List.prefix_append ..) blank
      obtain rfl : more = [] := by simpa using whole
      rw [step_after_of_endsBlank short blank, List.append_nil, List.nil_append]
    · rw [step_after_of_further short blank]
      exact ih (headless.concat blank) isHead fits

/-- Without a blank line the reader reads on as long as the bytes keep to the bound. -/
theorem scan_of_headless (bytes more : Bytes) (headless : Headless (bytes ++ more))
    (short : (bytes ++ more).length ≤ max) :
    scan max (.after bytes) more = (.more (.after (bytes ++ more)), []) := by
  induction more generalizing bytes with
  | nil => rw [scan, List.append_nil]
  | cons byte more ih =>
    have regroup : bytes ++ byte :: more = (bytes ++ [byte]) ++ more := by simp
    rw [regroup] at headless short ⊢
    have room : bytes.length < max := by
      simp only [List.length_append, List.length_singleton] at short
      omega
    rw [scan, step_after_of_further room (headless _ (List.prefix_append ..))]
    exact ih _ headless short

/-- One byte too many, and the reader gives up. -/
theorem scan_of_long (headless : Headless (bytes.take max)) (long : max < bytes.length) :
    scan max (.after []) bytes =
      (.failed (.handshakeTooLarge (max + 1) max), bytes.drop (max + 1)) := by
  have count : (bytes.take max).length = max := List.length_take_of_le (Nat.le_of_lt long)
  have onward : scan max (.after []) (bytes.take max) = (.more (.after (bytes.take max)), []) :=
    scan_of_headless [] _ headless (Nat.le_of_eq count)
  have stops : scan max (.after (bytes.take max)) (bytes[max] :: bytes.drop (max + 1)) =
      (.failed (.handshakeTooLarge (max + 1) max), bytes.drop (max + 1)) := by
    rw [scan, step_after_of_full (Nat.le_of_eq count.symm), count]
  have split : bytes = bytes.take max ++ bytes[max] :: bytes.drop (max + 1) := by
    rw [← List.drop_eq_getElem_cons long, List.take_append_drop]
  calc scan max (.after []) bytes
      = scan max (.after []) (bytes.take max ++ bytes[max] :: bytes.drop (max + 1)) := by
        rw [← split]
    _ = _ := by
        rw [scan_append, onward]
        exact stops

/-! ## Reading from a stream -/

/-- What reading has come to where the stream ends. -/
def Step.result (ending : Ending) : Step → Result
  | .more _ =>
    match ending with
    | .eof => .failed (.invalidHandshake .endedEarly)
    | .fails error => .failed error
    | .silent => .stalled
  | .done head => .head head
  | .failed error => .failed error

/-- The blocks do not matter, and what is not read is left. -/
theorem readBlocks_eq (max : Nat) (ending : Ending) (progress : Progress) (blocks : List Bytes) :
    (readBlocks max ending progress blocks).1 =
        (scan max progress blocks.flatten).1.result ending ∧
      (readBlocks max ending progress blocks).2.flatten =
        (scan max progress blocks.flatten).2 := by
  induction blocks generalizing progress with
  | nil => cases ending <;> exact ⟨rfl, rfl⟩
  | cons block blocks ih =>
    rw [List.flatten_cons, scan_append, readBlocks]
    cases scanned : scan max progress block with
    | mk step rest =>
      cases step with
      | more progress => exact ih progress
      | failed error => exact ⟨rfl, rfl⟩
      | done head =>
        refine ⟨rfl, ?_⟩
        dsimp only
        split
        · next nothing => rw [nothing, List.nil_append]
        · rfl

/-- What reading a head comes to, told by the bytes that the stream delivers and by its end. -/
inductive Arrives (max : Nat) (ending : Ending) (bytes : Bytes) : Result → Prop where
  | whole (head rest : Bytes) (split : bytes = head ++ rest) (isHead : IsHead head)
    (fits : head.length ≤ max) : Arrives max ending bytes (.head head)
  | tooLarge (headless : Headless (bytes.take max)) (long : max < bytes.length) :
    Arrives max ending bytes (.failed (.handshakeTooLarge (max + 1) max))
  | cutOff (headless : Headless bytes) (short : bytes.length ≤ max) (h : ending = .eof) :
    Arrives max ending bytes (.failed (.invalidHandshake .endedEarly))
  | unread (headless : Headless bytes) (short : bytes.length ≤ max) (error : Error)
    (h : ending = .fails error) : Arrives max ending bytes (.failed error)
  | stalled (headless : Headless bytes) (short : bytes.length ≤ max) (h : ending = .silent) :
    Arrives max ending bytes .stalled

/-- A head that fits is read, and the bytes behind it are left in the stream. -/
theorem read_of_isHead {inbound : Inbound} (split : inbound.blocks.flatten = head ++ rest)
    (isHead : IsHead head) (fits : head.length ≤ max) :
    ∃ blocks, read max inbound = (.head head, { inbound with blocks }) ∧ blocks.flatten = rest := by
  have stops : scan max {} inbound.blocks.flatten = (.done head, rest) := by
    rw [split]
    exact scan_of_isHead headless_nil isHead fits rest
  obtain ⟨result, left⟩ := readBlocks_eq max inbound.ending {} inbound.blocks
  rw [stops] at result left
  refine ⟨_, ?_, left⟩
  rw [read]
  exact congrArg (·, _) result

theorem read_of_arrives {inbound : Inbound} {result : Result}
    (arrives : Arrives max inbound.ending inbound.blocks.flatten result) :
    (read max inbound).1 = result := by
  have told : (read max inbound).1 =
      (scan max (.after []) inbound.blocks.flatten).1.result inbound.ending :=
    (readBlocks_eq max inbound.ending {} inbound.blocks).1
  have onward (headless : Headless inbound.blocks.flatten)
      (short : inbound.blocks.flatten.length ≤ max) :
      (read max inbound).1 =
        (Step.more (.after inbound.blocks.flatten)).result inbound.ending := by
    rw [told, scan_of_headless [] _ headless short]
    rfl
  cases arrives with
  | whole head rest split isHead fits =>
    obtain ⟨blocks, arrived, -⟩ := read_of_isHead split isHead fits
    rw [arrived]
  | tooLarge headless long =>
    rw [told, scan_of_long headless long]
    rfl
  | cutOff headless short h =>
    rw [onward headless short, h]
    rfl
  | unread headless short error h =>
    rw [onward headless short, h]
    rfl
  | stalled headless short h =>
    rw [onward headless short, h]
    rfl

theorem exists_arrives (max : Nat) (ending : Ending) (bytes : Bytes) :
    ∃ result, Arrives max ending bytes result := by
  by_cases headless : Headless (bytes.take max)
  · rcases Nat.lt_or_ge max bytes.length with long | short
    · exact ⟨_, .tooLarge headless long⟩
    · rw [List.take_of_length_le short] at headless
      cases ends : ending with
      | eof => exact ⟨_, .cutOff headless short rfl⟩
      | fails error => exact ⟨_, .unread headless short error rfl⟩
      | silent => exact ⟨_, .stalled headless short rfl⟩
  · obtain ⟨head, front, isHead⟩ := exists_isHead headless
    have fits : head.length ≤ max := Nat.le_trans front.length_le (List.length_take_le ..)
    obtain ⟨rest, split⟩ := front.trans (List.take_prefix ..)
    exact ⟨_, .whole head rest split.symm isHead fits⟩

/-- The blocks of a stream decide nothing: its bytes and its end say what reading comes to. -/
theorem arrives_iff {inbound : Inbound} {result : Result} :
    Arrives max inbound.ending inbound.blocks.flatten result ↔ (read max inbound).1 = result := by
  refine ⟨read_of_arrives, ?_⟩
  rintro rfl
  obtain ⟨result, arrives⟩ := exists_arrives max inbound.ending inbound.blocks.flatten
  rwa [read_of_arrives arrives]

theorem isHead_of_read (inbound : Inbound) (read : (read max inbound).1 = .head head) :
    IsHead head ∧ head.length ≤ max := by
  cases arrives_iff.mpr read with
  | whole _ rest split isHead fits => exact ⟨isHead, fits⟩

end WebSocket.Head
