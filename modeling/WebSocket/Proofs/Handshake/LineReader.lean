import Mathlib.Logic.Function.Iterate
import WebSocket.Proofs.Handshake.Arrival

/-!
# Reading a head line by line

A reader that asks its stream for whole lines has to say how many bytes a line may have at most:
what the bound and one byte beyond it leave beside the bytes that it holds (`ceiling`). It never
holds more than that, so that the difference is a number at every turn; it never takes more than
one byte beyond the bound; and it is done after as many turns as there are bytes within the bound,
and one (`Reading.keeps_passes`). What it comes to, and what it leaves in the stream, is what
reading byte by byte does (`read_of_yields`).

Sizes end with a largest one, and a bound may be this size. Then there is no byte beyond it, and
no bytes exceed it that are held anywhere.
-/

namespace WebSocket.Head

variable {max budget n : Nat} {ending : Ending} {head front line bytes rest : Bytes}
  {blocks : List Bytes} {result : Result}

/-! ## One line -/

/-- Parts the bytes behind their first line feed, or behind `budget` bytes without one. -/
def takeLine : (budget : Nat) → Bytes → Bytes × Bytes
  | 0, bytes => ([], bytes)
  | _ + 1, [] => ([], [])
  | budget + 1, byte :: bytes =>
    if byte = lineFeed then ([byte], bytes)
    else (byte :: (takeLine budget bytes).1, (takeLine budget bytes).2)

/-- The bytes of a line as far as they have been taken, and the blocks left behind them. -/
structure Line where
  taken : Bytes
  left : List Bytes
  /-- What the stream has come to before the line was complete. Its plain end breaks nothing. -/
  broken : Option Result := none

/-- What reading comes to when the stream ends; `none` if the end is an ordinary one. -/
def brokenBy : Ending → Option Result
  | .eof => none
  | .fails error => some (.failed error)
  | .silent => some .stalled

/-- Reads up to a line feed or the end of the stream, and at most `budget` bytes. When these are
taken, the stream is not asked for more. -/
def readLine (ending : Ending) : (budget : Nat) → List Bytes → Line
  | budget, [] =>
    { taken := [], left := [], broken := if budget = 0 then none else brokenBy ending }
  | budget, block :: blocks =>
    let (front, rest) := takeLine budget block
    if front.length = budget ∨ front.getLast? = some lineFeed then
      { taken := front, left := rest :: blocks }
    else
      let line := readLine ending (budget - front.length) blocks
      { line with taken := front ++ line.taken }

/-- How reading a line ends, told by the bytes in the stream. -/
inductive ReadsLine (ending : Ending) (budget : Nat) :
    (bytes taken rest : Bytes) → (broken : Option Result) → Prop where
  | whole (line rest : Bytes) (plain : lineFeed ∉ line) (fits : line.length < budget) :
    ReadsLine ending budget (line ++ lineFeed :: rest) (line ++ [lineFeed]) rest none
  | spent (line rest : Bytes) (plain : lineFeed ∉ line) (full : line.length = budget) :
    ReadsLine ending budget (line ++ rest) line rest none
  | ended (line : Bytes) (plain : lineFeed ∉ line) (short : line.length < budget) :
    ReadsLine ending budget line line [] (brokenBy ending)

theorem ReadsLine.append {taken : Bytes} {broken : Option Result} (plain : lineFeed ∉ front)
    (short : front.length < budget)
    (further : ReadsLine ending (budget - front.length) bytes taken rest broken) :
    ReadsLine ending budget (front ++ bytes) (front ++ taken) rest broken := by
  have joined (line : Bytes) (plain' : lineFeed ∉ line) : lineFeed ∉ front ++ line := by
    simp [plain, plain']
  cases further with
  | whole line rest plain' fits =>
    rw [← List.append_assoc, ← List.append_assoc]
    exact .whole _ rest (joined line plain') (by rw [List.length_append]; omega)
  | spent _ rest plain' full =>
    rw [← List.append_assoc]
    exact .spent _ rest (joined _ plain') (by rw [List.length_append]; omega)
  | ended _ plain' fits =>
    exact .ended _ (joined _ plain') (by rw [List.length_append]; omega)

/-- Within one block a line is complete, or else the block is used up. -/
theorem takeLine_cases (budget : Nat) (block : Bytes) :
    (∃ line rest, block = line ++ lineFeed :: rest ∧ lineFeed ∉ line ∧ line.length < budget ∧
      takeLine budget block = (line ++ [lineFeed], rest)) ∨
    (∃ line rest, block = line ++ rest ∧ lineFeed ∉ line ∧ line.length = budget ∧
      takeLine budget block = (line, rest)) ∨
    (lineFeed ∉ block ∧ block.length < budget ∧ takeLine budget block = (block, [])) := by
  fun_induction takeLine budget block with
  | case1 block => exact .inr (.inl ⟨[], block, rfl, by simp, rfl, rfl⟩)
  | case2 budget => exact .inr (.inr ⟨by simp, by simp, rfl⟩)
  | case3 budget bytes =>
    exact .inl ⟨[], bytes, rfl, by simp, Nat.succ_pos _, rfl⟩
  | case4 budget byte bytes other ih =>
    rcases ih with ⟨line, rest, rfl, plain, short, taken⟩ | ⟨line, rest, rfl, plain, full, taken⟩ |
      ⟨plain, short, taken⟩
    · exact .inl ⟨byte :: line, rest, rfl, by simp [plain, Ne.symm other], by simp [short],
        by simp [taken]⟩
    · exact .inr (.inl ⟨byte :: line, rest, rfl, by simp [plain, Ne.symm other], by simp [full],
        by simp [taken]⟩)
    · exact .inr (.inr ⟨by simp [plain, Ne.symm other], by simp [short], by simp [taken]⟩)

/-- Blocks make no difference to the line. -/
theorem readsLine (ending : Ending) (budget : Nat) (blocks : List Bytes) :
    ReadsLine ending budget blocks.flatten (readLine ending budget blocks).taken
      (readLine ending budget blocks).left.flatten (readLine ending budget blocks).broken := by
  induction blocks generalizing budget with
  | nil =>
    rw [readLine]
    split
    · next spent => exact .spent [] [] (by simp) spent.symm
    · next open' => exact .ended [] (by simp) (Nat.pos_of_ne_zero open')
  | cons block blocks ih =>
    rw [List.flatten_cons]
    rcases takeLine_cases budget block with ⟨line, rest, rfl, plain, fits, taken⟩ |
      ⟨line, rest, rfl, plain, full, taken⟩ | ⟨plain, short, taken⟩
    · simp only [readLine, taken, List.getLast?_concat, or_true, if_true, List.flatten_cons,
        List.append_assoc, List.cons_append]
      exact .whole line _ plain fits
    · simp only [readLine, taken, full, true_or, if_true, List.flatten_cons, List.append_assoc]
      exact .spent line _ plain full
    · have onward : ¬ (block.length = budget ∨ block.getLast? = some lineFeed) := by
        rintro (full | feed)
        · exact Nat.ne_of_lt short full
        · exact plain (List.mem_of_getLast? feed)
      simp only [readLine, taken, if_neg onward]
      exact .append plain short (ih _)

/-! ## Line after line -/

/-- The largest number that a size can be. -/
def maxSize : Nat := 18446744073709551615

/-- The most bytes that are held: one beyond the bound shows that it is exceeded. The sum of
sizes stops at the largest. -/
def ceiling (max : Nat) : Nat := min (max + 1) maxSize

/-- How far reading a head has come. -/
inductive Reading where
  | underway (head : Bytes) (blocks : List Bytes)
  | finished (result : Result) (blocks : List Bytes)
  /-- There are more bytes than may be held, and no number says how many may still come. -/
  | overdrawn

namespace Reading

/-- What has not been taken from the stream. -/
def left : Reading → List Bytes
  | underway _ blocks => blocks
  | finished _ blocks => blocks
  | overdrawn => []

/-- Goes on with the bytes that reading a line has added to those held. -/
def withLine (max : Nat) (head : Bytes) (line : Line) : Reading :=
  match line.broken with
  | some result => finished result line.left
  | none =>
    let whole := head ++ line.taken
    if whole.length > max then finished (.failed (.handshakeTooLarge whole.length max)) line.left
    else if line.taken = [] then finished (.failed (.invalidHandshake .endedEarly)) line.left
    else if line.taken = [carriageReturn, lineFeed] ∨ line.taken = [lineFeed] then
      finished (.head whole) line.left
    else underway whole line.left

/-- One turn of the loop. -/
def pass (max : Nat) (ending : Ending) : Reading → Reading
  | underway head blocks =>
    if head.length > ceiling max then overdrawn
    else withLine max head (readLine ending (ceiling max - head.length) blocks)
  | reading => reading

/-- The state of reading after so many turns of the loop. -/
def passes (max : Nat) (inbound : Inbound) (n : Nat) : Reading :=
  (pass max inbound.ending)^[n] (underway [] inbound.blocks)

end Reading

/-- What reading comes to, with the bytes left behind it. -/
inductive Yields (max : Nat) (ending : Ending) (bytes : Bytes) : Result → Bytes → Prop where
  | whole (head rest : Bytes) (split : bytes = head ++ rest) (isHead : IsHead head)
    (fits : head.length ≤ max) : Yields max ending bytes (.head head) rest
  | tooLarge (counted : max < maxSize) (headless : Headless (bytes.take max))
    (long : max < bytes.length) :
    Yields max ending bytes (.failed (.handshakeTooLarge (max + 1) max)) (bytes.drop (max + 1))
  | ended (headless : Headless bytes) (short : bytes.length ≤ max)
    (counted : bytes.length < maxSize) :
    Yields max ending bytes ((Step.more (.after bytes)).result ending) []
  /-- The bound is the largest size, and there are as many bytes. -/
  | spent (most : max = maxSize) (headless : Headless (bytes.take max))
    (long : max ≤ bytes.length) :
    Yields max ending bytes (.failed (.invalidHandshake .endedEarly)) (bytes.drop max)

/-- What holds of the bytes held when the next line is asked for. -/
structure Held (max : Nat) (bytes head : Bytes) (blocks : List Bytes) : Prop where
  split : bytes = head ++ blocks.flatten
  fits : head.length ≤ max
  counted : head.length ≤ maxSize
  headless : Headless head
  /-- A line begins here, unless nothing more can be taken. -/
  fresh : openLine head = [] ∨ blocks.flatten = [] ∨ head.length = maxSize

theorem Headless.append (headless : Headless bytes) (plain : lineFeed ∉ line) :
    Headless (bytes ++ line) := by
  induction line using List.reverseRecOn with
  | nil => rwa [List.append_nil]
  | append_singleton line byte ih =>
    rw [List.mem_append, not_or] at plain
    rw [← List.append_assoc]
    refine (ih plain.1).concat fun blank => plain.2 ?_
    rw [(endsBlank_concat_iff.mp blank).1]
    exact List.mem_singleton_self _

theorem openLine_append_of_plain (plain : lineFeed ∉ line) :
    openLine (bytes ++ line) = line.reverse ++ openLine bytes := by
  induction line using List.reverseRecOn with
  | nil => rw [List.append_nil, List.reverse_nil, List.nil_append]
  | append_singleton line byte ih =>
    rw [List.mem_append, not_or, List.mem_singleton] at plain
    rw [← List.append_assoc, openLine_concat, if_neg (Ne.symm plain.2), ih plain.1]
    simp

namespace Reading

/-- What holds after `n` turns. -/
def Keeps (max : Nat) (ending : Ending) (bytes : Bytes) (n : Nat) : Reading → Prop
  | underway head blocks => Held max bytes head blocks ∧ n ≤ head.length
  | finished result blocks => Yields max ending bytes result blocks.flatten
  | overdrawn => False

theorem yields_tooLarge (counted : max < maxSize) (split : bytes = front ++ rest)
    (count : front.length = max + 1) (headless : Headless (front.take max)) :
    Yields max ending bytes (.failed (.handshakeTooLarge front.length max)) rest := by
  have held : bytes.take max = front.take max := by
    rw [split, List.take_append_of_le_length (by omega)]
  have left : bytes.drop (max + 1) = rest := by
    rw [split, ← count, List.drop_left]
  have long : max < bytes.length := by
    rw [split, List.length_append]
    omega
  rw [count, ← left]
  exact .tooLarge counted (held ▸ headless) long

/-- Which line is blank can be told from its bytes. -/
theorem endsBlank_append_iff (begun : openLine head = []) (plain : lineFeed ∉ line) :
    EndsBlank (head ++ line ++ [lineFeed]) ↔
      line ++ [lineFeed] = [carriageReturn, lineFeed] ∨ line ++ [lineFeed] = [lineFeed] := by
  have returned : line ++ [lineFeed] = [carriageReturn] ++ [lineFeed] ↔ line = [carriageReturn] :=
    List.append_left_inj [lineFeed]
  have empty : line ++ [lineFeed] = [] ++ [lineFeed] ↔ line = [] := List.append_left_inj [lineFeed]
  rw [List.singleton_append] at returned
  rw [List.nil_append] at empty
  rw [endsBlank_concat_iff, openLine_append_of_plain plain, begun, List.append_nil, returned, empty,
    List.reverse_eq_nil_iff, List.reverse_eq_iff, List.reverse_singleton, or_comm]
  exact ⟨And.right, fun line => ⟨rfl, line⟩⟩

theorem keeps_of_whole (held : Held max bytes head blocks) (enough : n ≤ head.length)
    {left : List Bytes} (coming : blocks.flatten = line ++ lineFeed :: left.flatten)
    (plain : lineFeed ∉ line) (fits : line.length < ceiling max - head.length) :
    Keeps max ending bytes (n + 1) (withLine max head ⟨line ++ [lineFeed], left, none⟩) := by
  have count : (head ++ line ++ [lineFeed]).length = head.length + line.length + 1 := by
    rw [List.length_append, List.length_append, List.length_singleton]
  have most : head.length + line.length + 1 ≤ max + 1 ∧
      head.length + line.length + 1 ≤ maxSize := by
    rw [ceiling] at fits
    omega
  have headless := held.headless.append plain
  have split : bytes = (head ++ line ++ [lineFeed]) ++ left.flatten := by
    rw [held.split, coming]
    simp
  have begun : openLine head = [] := by
    rcases held.fresh with begun | nothing | full
    · exact begun
    · simp [nothing] at coming
    · omega
  have some : line ++ [lineFeed] ≠ [] := by simp
  simp only [withLine, ← List.append_assoc, if_neg some]
  rcases Nat.lt_or_ge max (head ++ line ++ [lineFeed]).length with long | short
  · rw [if_pos long]
    refine yields_tooLarge (by omega) split (by omega) ?_
    rw [List.take_left' (by rw [List.length_append]; omega)]
    exact headless
  · rw [if_neg (Nat.not_lt.mpr short)]
    by_cases ends : line ++ [lineFeed] = [carriageReturn, lineFeed] ∨
        line ++ [lineFeed] = [lineFeed]
    · rw [if_pos ends]
      exact .whole _ _ split (headless.isHead_concat ((endsBlank_append_iff begun plain).mpr ends))
        short
    · rw [if_neg ends]
      have further := headless.concat (mt (endsBlank_append_iff begun plain).mp ends)
      have next : openLine (head ++ line ++ [lineFeed]) = [] := by rw [openLine_concat, if_pos rfl]
      exact ⟨⟨split, short, by omega, further, .inl next⟩, by omega⟩

/-- A line that breaks off is no blank one. -/
theorem not_blank_of_plain (plain : lineFeed ∉ line) :
    ¬ (line = [carriageReturn, lineFeed] ∨ line = [lineFeed]) := by
  rintro (rfl | rfl) <;> simp at plain

theorem keeps_of_spent (sized : max ≤ maxSize) (held : Held max bytes head blocks)
    (enough : n ≤ head.length)
    {left : List Bytes} (coming : blocks.flatten = line ++ left.flatten)
    (plain : lineFeed ∉ line) (full : line.length = ceiling max - head.length) :
    Keeps max ending bytes (n + 1) (withLine max head ⟨line, left, none⟩) := by
  have count : (head ++ line).length = ceiling max := by
    have fits := held.fits
    have counted := held.counted
    rw [List.length_append, full]
    rw [ceiling]
    omega
  have headless := held.headless.append plain
  have split : bytes = (head ++ line) ++ left.flatten := by
    rw [held.split, coming, List.append_assoc]
  simp only [withLine, if_neg (not_blank_of_plain plain)]
  rw [ceiling] at count
  rcases Nat.lt_or_ge max (head ++ line).length with long | short
  · rw [if_pos long]
    exact yields_tooLarge (by omega) split (by omega) (headless.of_isPrefix (List.take_prefix ..))
  · -- Only the largest size is no less than the ceiling above it.
    have most : max = maxSize := by omega
    have count : (head ++ line).length = max := by omega
    rw [if_neg (Nat.not_lt.mpr short)]
    by_cases nothing : line = []
    · rw [if_pos nothing]
      have taken : bytes.take max = head ++ line := by rw [split, ← count, List.take_left]
      have rest : bytes.drop max = left.flatten := by rw [split, ← count, List.drop_left]
      rw [Keeps, ← rest]
      refine .spent most (taken ▸ headless) ?_
      rw [split, List.length_append]
      omega
    · rw [if_neg nothing]
      have longer := List.length_pos_iff.mpr nothing
      have full : (head ++ line).length = maxSize := count.trans most
      rw [List.length_append] at count
      exact ⟨⟨split, short, Nat.le_of_eq full, headless, .inr (.inr full)⟩, by
        rw [List.length_append]
        omega⟩

theorem keeps_of_ended (held : Held max bytes head blocks) (enough : n ≤ head.length)
    {left : List Bytes} (nothing : left.flatten = []) (plain : lineFeed ∉ blocks.flatten)
    (short : blocks.flatten.length < ceiling max - head.length) :
    Keeps max ending bytes (n + 1)
      (withLine max head ⟨blocks.flatten, left, brokenBy ending⟩) := by
  have count : bytes.length = head.length + blocks.flatten.length := by
    rw [held.split, List.length_append]
  rw [ceiling] at short
  have headless : Headless bytes := held.split ▸ held.headless.append plain
  have ended : Yields max ending bytes ((Step.more (.after bytes)).result ending) left.flatten := by
    rw [nothing]
    exact .ended headless (by omega) (by omega)
  cases ending with
  | fails error => exact ended
  | silent => exact ended
  | eof =>
    simp only [withLine, brokenBy, ← held.split, if_neg (not_blank_of_plain plain)]
    rw [if_neg (by omega)]
    by_cases none : blocks.flatten = []
    · rw [if_pos none]
      exact ended
    · rw [if_neg none]
      have longer := List.length_pos_iff.mpr none
      have split : bytes = bytes ++ left.flatten := by rw [nothing, List.append_nil]
      exact ⟨⟨split, by omega, by omega, headless, .inr (.inl nothing)⟩, by omega⟩

/-- One turn of the loop. -/
theorem keeps_pass (sized : max ≤ maxSize) {reading : Reading}
    (keeps : reading.Keeps max ending bytes n) :
    (reading.pass max ending).Keeps max ending bytes (n + 1) := by
  cases reading with
  | overdrawn => exact keeps
  | finished result blocks => exact keeps
  | underway head blocks =>
    obtain ⟨held, enough⟩ := keeps
    have covered : ¬ head.length > ceiling max := by
      have fits := held.fits
      have counted := held.counted
      rw [ceiling]
      omega
    rw [pass, if_neg covered]
    have reads := readsLine ending (ceiling max - head.length) blocks
    generalize readLine ending (ceiling max - head.length) blocks = line at reads ⊢
    obtain ⟨taken, left, broken⟩ := line
    dsimp only at reads
    generalize coming : blocks.flatten = ahead, remaining : left.flatten = rest at reads
    cases reads with
    | whole line rest plain fits => exact keeps_of_whole held enough (remaining ▸ coming) plain fits
    | spent line rest plain full =>
      exact keeps_of_spent sized held enough (remaining ▸ coming) plain full
    | ended line plain short =>
      subst coming
      exact keeps_of_ended held enough remaining plain short

theorem keeps_passes (sized : max ≤ maxSize) (inbound : Inbound) (n : Nat) :
    (passes max inbound n).Keeps max inbound.ending inbound.blocks.flatten n := by
  induction n with
  | zero => exact ⟨⟨rfl, Nat.zero_le _, Nat.zero_le _, headless_nil, .inl rfl⟩, Nat.zero_le _⟩
  | succ n ih =>
    rw [passes, Function.iterate_succ_apply']
    exact keeps_pass sized ih

end Reading

/-! ## What it comes to -/

theorem Yields.exists_taken (yields : Yields max ending bytes result rest) :
    ∃ taken, bytes = taken ++ rest ∧ taken.length ≤ max + 1 := by
  cases yields with
  | whole head _ split _ fits => exact ⟨head, split, Nat.le_succ_of_le fits⟩
  | tooLarge _ _ long =>
    exact ⟨bytes.take (max + 1), (List.take_append_drop ..).symm, List.length_take_le ..⟩
  | ended _ short _ => exact ⟨bytes, (List.append_nil _).symm, Nat.le_succ_of_le short⟩
  | spent _ _ long =>
    exact ⟨bytes.take max, (List.take_append_drop ..).symm,
      Nat.le_succ_of_le (List.length_take_le ..)⟩

/-- A head within the bound is what is given, and nothing behind it is taken. -/
theorem Yields.of_isHead (yields : Yields max ending bytes result rest) {rest' : Bytes}
    (isHead : IsHead head) (fits : head.length ≤ max) (split : bytes = head ++ rest') :
    result = .head head ∧ rest = rest' := by
  have within : head <+: bytes.take max := List.prefix_take_iff.mpr ⟨⟨rest', split.symm⟩, fits⟩
  cases yields with
  | whole head' rest split' isHead' _ =>
    have same : head = head' := by
      rcases List.prefix_or_prefix_of_prefix ⟨rest', split.symm⟩ ⟨rest, split'.symm⟩ with
        front | front
      · exact isHead'.first head front isHead.blank
      · exact (isHead.first head' front isHead'.blank).symm
    subst same
    exact ⟨rfl, List.append_cancel_left (split'.symm.trans split)⟩
  | tooLarge _ headless _ => exact absurd isHead.blank (headless head within)
  | ended headless _ _ => exact absurd isHead.blank (headless head ⟨rest', split.symm⟩)
  | spent _ headless _ => exact absurd isHead.blank (headless head within)

/-- Without such a head it is the bound or the end of the stream that reading comes to. -/
theorem Yields.of_absent (yields : Yields max ending bytes result rest)
    (absent : ∀ head, IsHead head → head <+: bytes → max < head.length) :
    (max < bytes.length → max < maxSize →
      result = .failed (.handshakeTooLarge (max + 1) max) ∧ rest = bytes.drop (max + 1)) ∧
    (bytes.length ≤ max → bytes.length < maxSize →
      rest = [] ∧ (ending = .eof → result = .failed (.invalidHandshake .endedEarly)) ∧
      (∀ error, ending = .fails error → result = .failed error) ∧
      (ending = .silent → result = .stalled)) := by
  cases yields with
  | whole head _ split isHead fits =>
    exact absurd (absent head isHead ⟨_, split.symm⟩) (Nat.not_lt.mpr fits)
  | tooLarge counted headless long => exact ⟨fun _ _ => ⟨rfl, rfl⟩, fun short => by omega⟩
  | ended headless short counted =>
    refine ⟨fun long => by omega, fun _ _ => ⟨rfl, ?_, ?_, ?_⟩⟩
    · rintro rfl
      rfl
    · rintro error rfl
      rfl
    · rintro rfl
      rfl
  | spent most headless long => exact ⟨fun _ counted => by omega, fun short counted => by omega⟩

/-- Reading byte by byte comes to the same, where no largest size is in the way. -/
theorem read_of_yields {inbound : Inbound}
    (roomy : max < maxSize ∨ inbound.blocks.flatten.length < maxSize)
    (yields : Yields max inbound.ending inbound.blocks.flatten result rest) :
    (read max inbound).1 = result ∧ (read max inbound).2.blocks.flatten = rest := by
  obtain ⟨given, left⟩ := readBlocks_eq max inbound.ending (.after []) inbound.blocks
  have told {step : Step}
      (stops : scan max (.after []) inbound.blocks.flatten = (step, rest)) :
      (read max inbound).1 = step.result inbound.ending ∧
        (read max inbound).2.blocks.flatten = rest := by
    rw [stops] at given left
    exact ⟨given, left⟩
  cases yields with
  | whole head rest split isHead fits =>
    exact told (split ▸ scan_of_isHead headless_nil isHead fits rest)
  | tooLarge _ headless long => exact told (scan_of_long headless long)
  | ended headless short _ => exact told (scan_of_headless [] _ headless short)
  | spent most _ long => omega

namespace Reading

theorem Keeps.exists_taken {reading : Reading} (keeps : reading.Keeps max ending bytes n) :
    ∃ taken, bytes = taken ++ reading.left.flatten ∧ taken.length ≤ max + 1 := by
  cases reading with
  | underway head blocks => exact ⟨head, keeps.1.split, Nat.le_succ_of_le keeps.1.fits⟩
  | finished result blocks => exact Yields.exists_taken keeps
  | overdrawn => exact keeps.elim

/-- Every turn takes a byte of the head or is the last. -/
theorem exists_finished (sized : max ≤ maxSize) (inbound : Inbound) :
    ∃ n result blocks, n ≤ min max inbound.blocks.flatten.length + 1 ∧
      passes max inbound n = .finished result blocks ∧
      Yields max inbound.ending inbound.blocks.flatten result blocks.flatten := by
  have keeps := keeps_passes sized inbound (min max inbound.blocks.flatten.length + 1)
  generalize last : passes max inbound (min max inbound.blocks.flatten.length + 1) = reading
    at keeps
  cases reading with
  | overdrawn => exact keeps.elim
  | finished result blocks => exact ⟨_, result, blocks, Nat.le_refl _, last, keeps⟩
  | underway head blocks =>
    obtain ⟨held, many⟩ := keeps
    have fits := held.fits
    have whole := congrArg List.length held.split
    rw [List.length_append] at whole
    omega

/-- For every bound and every stream, reading line by line never holds more than its budget
covers and never takes more than one byte beyond the bound. It ends, with the head where that
keeps to the bound, and else with what has kept it from the head; and so does `read`. -/
theorem passes_exact (sized : max ≤ maxSize) (inbound : Inbound) :
    (∀ n, passes max inbound n ≠ .overdrawn ∧
      ∃ taken, inbound.blocks.flatten = taken ++ (passes max inbound n).left.flatten ∧
        taken.length ≤ max + 1) ∧
    ∃ n result blocks, n ≤ min max inbound.blocks.flatten.length + 1 ∧
      passes max inbound n = .finished result blocks ∧
      (∀ head rest, IsHead head → head.length ≤ max → inbound.blocks.flatten = head ++ rest →
        result = .head head ∧ blocks.flatten = rest) ∧
      ((∀ head, IsHead head → head <+: inbound.blocks.flatten → max < head.length) →
        (max < inbound.blocks.flatten.length → max < maxSize →
          result = .failed (.handshakeTooLarge (max + 1) max) ∧
          blocks.flatten = inbound.blocks.flatten.drop (max + 1)) ∧
        (inbound.blocks.flatten.length ≤ max → inbound.blocks.flatten.length < maxSize →
          blocks.flatten = [] ∧
          (inbound.ending = .eof → result = .failed (.invalidHandshake .endedEarly)) ∧
          (∀ error, inbound.ending = .fails error → result = .failed error) ∧
          (inbound.ending = .silent → result = .stalled))) ∧
      (max < maxSize ∨ inbound.blocks.flatten.length < maxSize →
        (read max inbound).1 = result ∧
        (read max inbound).2.blocks.flatten = blocks.flatten) := by
  refine ⟨fun n => ?_, ?_⟩
  · have keeps := keeps_passes sized inbound n
    exact ⟨fun overdrawn => by rwa [overdrawn] at keeps, keeps.exists_taken⟩
  · obtain ⟨n, result, blocks, few, finished, yields⟩ := exists_finished sized inbound
    refine ⟨n, result, blocks, few, finished,
      fun head rest isHead fits => yields.of_isHead isHead fits, yields.of_absent,
      fun roomy => read_of_yields roomy yields⟩

/-- Bounds at both ends of the range: a byte is too many, and a blank line comes in pieces. -/
theorem passes_exact_ends :
    (∃ n result blocks, n ≤ 1 ∧ passes 0 ⟨[[71], [13, 10]], .eof⟩ n = .finished result blocks ∧
      result = .failed (.handshakeTooLarge 1 0) ∧ blocks.flatten = [13, 10]) ∧
    (∃ n result blocks, n ≤ 7 ∧
      passes maxSize ⟨[[71, 13], [10, 13], [10, 5]], .silent⟩ n = .finished result blocks ∧
      result = .head [71, 13, 10, 13, 10] ∧ blocks.flatten = [5]) := by
  constructor
  · obtain ⟨n, result, blocks, few, finished, -, absent, -⟩ :=
      (passes_exact (Nat.zero_le _) ⟨[[71], [13, 10]], .eof⟩).2
    have nonempty (head : Bytes) (isHead : IsHead head) : 0 < head.length := by
      refine List.length_pos_iff.mpr ?_
      rintro rfl
      exact headless_nil [] List.prefix_rfl isHead.blank
    obtain ⟨tooLarge, left⟩ :=
      (absent fun head isHead _ => nonempty head isHead).1 (by decide) (by decide)
    exact ⟨n, result, blocks, few, finished, tooLarge, left⟩
  · have isHead : IsHead [71, 13, 10, 13, 10] :=
      (isHead_of_read ⟨[[71, 13, 10, 13, 10]], .eof⟩ (by decide : (read 5 _).1 = _)).1
    obtain ⟨n, result, blocks, few, finished, whole, -⟩ :=
      (passes_exact (Nat.le_refl _) ⟨[[71, 13], [10, 13], [10, 5]], .silent⟩).2
    obtain ⟨given, left⟩ := whole _ [5] isHead (by decide) rfl
    exact ⟨n, result, blocks, Nat.le_trans few (by decide), finished, given, left⟩

end Reading

end WebSocket.Head
