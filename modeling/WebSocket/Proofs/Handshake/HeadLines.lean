import WebSocket.Proofs.Handshake.Arrival
import WebSocket.Proofs.Handshake.RequestGrammar
import WebSocket.Proofs.Utf8

/-!
# The lines of a head

The reader of a head looks at bytes and stops behind the first blank line; the parser looks at the
lines of a text and stops at the first empty one. Both mean the same line. In UTF-8 the two bytes
that end a line are no part of any other character, so that the lines of a text and the lines of
its bytes correspond (`Text.linesOf_utf8`), and bytes are a head just if their last line is blank
and no other is (`Head.isHead_iff`). So the parser reads each line of a head that has arrived, and
none behind it (`Request.parse_of_read`).
-/

namespace WebSocket

namespace Text

/-! ## A blank line at the end -/

section BlankLast

variable {α : Type} {line : List α} {lines : List (List α)}

/-- The last of these lines is blank, and no other. -/
def BlankLast (lines : List (List α)) : Prop := ∃ front, lines = front ++ [[]] ∧ [] ∉ front

theorem not_blankLast_nil : ¬ BlankLast ([] : List (List α)) := by
  rintro ⟨front, split, -⟩
  simp at split

theorem blankLast_blank_iff : BlankLast ([] :: lines) ↔ lines = [] := by
  constructor
  · rintro ⟨front, split, others⟩
    cases front with
    | nil => exact List.tail_eq_of_cons_eq split
    | cons first front =>
      exact absurd (List.head_eq_of_cons_eq split ▸ List.mem_cons_self) others
  · rintro rfl
    exact ⟨[], rfl, List.not_mem_nil⟩

theorem blankLast_cons_iff (full : line ≠ []) : BlankLast (line :: lines) ↔ BlankLast lines := by
  constructor
  · rintro ⟨front, split, others⟩
    cases front with
    | nil => exact absurd (List.head_eq_of_cons_eq split) full
    | cons first front =>
      exact ⟨front, List.tail_eq_of_cons_eq split, List.not_mem_of_not_mem_cons others⟩
  · rintro ⟨front, rfl, others⟩
    exact ⟨line :: front, rfl, List.not_mem_cons_of_ne_of_not_mem full.symm others⟩

end BlankLast

/-! ## Line ends in UTF-8 -/

/-- The bytes of characters in UTF-8. -/
def utf8 (text : List Char) : Bytes := text.flatMap String.utf8EncodeChar

variable {c : Char} {byte : UInt8} {raw text : List Char} {parts : List (List Char)}

theorem utf8_append (front back : List Char) : utf8 (front ++ back) = utf8 front ++ utf8 back :=
  List.flatMap_append ..

theorem utf8_eq_nil_iff : utf8 text = [] ↔ text = [] := by
  cases text with
  | nil => exact iff_of_true rfl rfl
  | cons c text =>
    have some : String.utf8EncodeChar c ≠ [] := by
      rw [← List.length_pos_iff, String.length_utf8EncodeChar]
      exact c.utf8Size_pos
    simp [utf8, some]

theorem lineFeed_notMem_utf8 (inside : '\n' ∉ raw) : Head.lineFeed ∉ utf8 raw := by
  intro held
  obtain ⟨c, member, spelled⟩ := List.mem_flatMap.mp held
  have code := (utf8EncodeChar_eq_of_mem spelled (by decide)).2
  have same : c = '\n' := Char.toNat_inj.mp code
  exact inside (same ▸ member)

theorem chomp_utf8 (raw : List Char) :
    chomp Head.carriageReturn (utf8 raw) = utf8 (chomp '\r' raw) := by
  rcases List.eq_nil_or_concat raw with rfl | ⟨before, last, rfl⟩
  · rfl
  · rw [List.concat_eq_append, utf8_append]
    by_cases same : last = '\r'
    · have ended : utf8 [last] = [Head.carriageReturn] := by rw [same]; rfl
      rw [ended, same]
      simp [chomp]
    · have further : (utf8 before ++ utf8 [last]).getLast? ≠ some Head.carriageReturn := by
        rw [List.getLast?_append_of_ne_nil _ (mt utf8_eq_nil_iff.mp (List.cons_ne_nil last []))]
        intro ended
        have spelled : Head.carriageReturn ∈ String.utf8EncodeChar last := by
          simpa [utf8] using List.mem_of_getLast? ended
        exact same (Char.toNat_inj.mp (utf8EncodeChar_eq_of_mem spelled (by decide)).2)
      rw [chomp, if_neg further, chomp, if_neg (by simpa using same), utf8_append]

/-- The lines of a text's bytes are the bytes of its lines. -/
theorem linesOf_utf8 (lined : LinesOf text parts) :
    Lined Head.lineFeed Head.carriageReturn (utf8 text) (parts.map utf8) := by
  induction lined with
  | nil => exact .nil
  | unended nonempty inside =>
    exact .unended (mt utf8_eq_nil_iff.mp nonempty) (lineFeed_notMem_utf8 inside)
  | @ended raw text parts inside more ih =>
    have split : utf8 (raw ++ '\n' :: text) = utf8 raw ++ Head.lineFeed :: utf8 text :=
      utf8_append ..
    rw [split, List.map_cons, ← chomp_utf8]
    exact .ended (lineFeed_notMem_utf8 inside) ih

theorem blankLast_map_utf8_iff : BlankLast (parts.map utf8) ↔ BlankLast parts := by
  induction parts with
  | nil => exact iff_of_false not_blankLast_nil not_blankLast_nil
  | cons part parts ih =>
    by_cases empty : part = []
    · rw [empty]
      exact blankLast_blank_iff.trans (List.map_eq_nil_iff.trans blankLast_blank_iff.symm)
    · rw [List.map_cons, blankLast_cons_iff (mt utf8_eq_nil_iff.mp empty), ih,
        blankLast_cons_iff empty]

end Text

/-! ## The lines that the reader sees -/

namespace Head

variable {bytes more raw head : Bytes} {byte : UInt8} {lines : List Bytes} {max : Nat}

theorem openLine_append_lineFeed (before bytes : Bytes) :
    openLine (before ++ lineFeed :: bytes) = openLine bytes := by
  induction bytes using List.reverseRecOn with
  | nil => rw [openLine_concat, if_pos rfl]; rfl
  | append_singleton bytes byte ih =>
    rw [← List.cons_append, ← List.append_assoc, openLine_concat, openLine_concat, ih]

theorem not_endsBlank_of_inside (inside : lineFeed ∉ bytes) : ¬ EndsBlank bytes := by
  rcases List.eq_nil_or_concat bytes with rfl | ⟨before, last, rfl⟩
  · exact headless_nil [] List.prefix_rfl
  · rw [List.concat_eq_append] at inside ⊢
    intro ends
    exact inside (by simp [(endsBlank_concat_iff.mp ends).1])

theorem openLine_of_inside (inside : lineFeed ∉ raw) : openLine raw = raw.reverse := by
  refine List.takeWhile_eq_self_iff.mpr fun byte member => bne_iff_ne.mpr ?_
  exact ne_of_mem_of_not_mem (List.mem_reverse.mp member) inside

/-- A line that is ended is blank just if nothing stands in it but a carriage return. -/
theorem endsBlank_line_iff (inside : lineFeed ∉ raw) :
    EndsBlank (raw ++ [lineFeed]) ↔ Text.chomp carriageReturn raw = [] := by
  rw [endsBlank_concat_iff, openLine_of_inside inside, Text.chomp_eq_nil_iff]
  simp

theorem endsBlank_append_iff (inside : lineFeed ∉ raw)
    (full : Text.chomp carriageReturn raw ≠ []) :
    EndsBlank (raw ++ lineFeed :: bytes) ↔ EndsBlank bytes := by
  rcases List.eq_nil_or_concat bytes with rfl | ⟨before, last, rfl⟩
  · exact iff_of_false (mt (endsBlank_line_iff inside).mp full) (not_endsBlank_of_inside nofun)
  · rw [List.concat_eq_append, ← List.cons_append, ← List.append_assoc, endsBlank_concat_iff,
      endsBlank_concat_iff, openLine_append_lineFeed]

theorem isHead_line_iff (inside : lineFeed ∉ raw) (empty : Text.chomp carriageReturn raw = []) :
    IsHead (raw ++ lineFeed :: bytes) ↔ bytes = [] := by
  have ends := (endsBlank_line_iff inside).mpr empty
  constructor
  · intro isHead
    have whole := isHead.first (raw ++ [lineFeed]) ⟨bytes, by simp⟩ ends
    simpa using whole
  · rintro rfl
    refine Headless.isHead_concat (fun front before => ?_) ends
    exact not_endsBlank_of_inside fun member => inside (before.subset member)

theorem isHead_append_iff (inside : lineFeed ∉ raw)
    (full : Text.chomp carriageReturn raw ≠ []) :
    IsHead (raw ++ lineFeed :: bytes) ↔ IsHead bytes := by
  constructor
  · rintro ⟨blank, first⟩
    refine ⟨(endsBlank_append_iff inside full).mp blank, fun front before ends => ?_⟩
    have whole := first (raw ++ lineFeed :: front) (by simpa using before)
      ((endsBlank_append_iff inside full).mpr ends)
    simpa using whole
  · rintro ⟨blank, first⟩
    refine ⟨(endsBlank_append_iff inside full).mpr blank, ?_⟩
    rintro front ⟨behind, split⟩ ends
    rcases List.append_eq_append_iff.mp split with ⟨rest, within, -⟩ | ⟨rest, rfl, further⟩
    · exact absurd ends (not_endsBlank_of_inside fun member =>
        inside (within ▸ List.mem_append_left rest member))
    · cases rest with
      | nil =>
        rw [List.append_nil] at ends
        exact absurd ends (not_endsBlank_of_inside inside)
      | cons next rest =>
        obtain ⟨rfl, within⟩ := List.cons.inj further
        rw [first rest ⟨behind, within.symm⟩ ((endsBlank_append_iff inside full).mp ends)]

/-- Bytes are a head just if their last line is blank and no other. -/
theorem isHead_iff (lined : Text.Lined lineFeed carriageReturn bytes lines) :
    IsHead bytes ↔ Text.BlankLast lines := by
  induction lined with
  | nil =>
    exact iff_of_false (fun isHead => not_endsBlank_of_inside List.not_mem_nil isHead.blank)
      Text.not_blankLast_nil
  | unended nonempty inside =>
    refine iff_of_false (fun isHead => not_endsBlank_of_inside inside isHead.blank) ?_
    rw [Text.blankLast_cons_iff nonempty]
    exact Text.not_blankLast_nil
  | @ended raw text lines inside more ih =>
    by_cases empty : Text.chomp carriageReturn raw = []
    · rw [isHead_line_iff inside empty, empty, Text.blankLast_blank_iff, more.eq_nil_iff]
    · rw [isHead_append_iff inside empty, ih, Text.blankLast_cons_iff empty]

/-- A head has one blank line, at its end. -/
theorem exists_lines_of_isHead (isHead : IsHead head) :
    ∃ lines, Text.Lined lineFeed carriageReturn head (lines ++ [[]]) ∧ [] ∉ lines := by
  obtain ⟨lines, lined⟩ := Text.exists_lined lineFeed carriageReturn head
  obtain ⟨front, rfl, others⟩ := (isHead_iff lined).mp isHead
  exact ⟨front, lined, others⟩

end Head

namespace Request

variable {head : Bytes} {inbound : Inbound} {request : Request} {max : Nat}

/-- In a head the first empty line of the text is the last. -/
theorem exists_headerLines (isHead : Head.IsHead head) (parsed : parse head = .ok request) :
    ∃ text requestLine headerLines method path fields, head = Bytes.ofString text ∧
      Text.LinesOf text.toList (requestLine :: headerLines ++ [[]]) ∧ [] ∉ headerLines ∧
      Text.Worded Text.isBlank requestLine
        [method.toList, path.toList, "HTTP/1.1".toList] ∧
      List.Forall₂ IsField headerLines fields ∧ request = ofParts method path fields := by
  obtain ⟨method, path, fields, written, rfl⟩ := parse_eq_ok_iff.mp parsed
  cases written with
  | @head text method path requestLine others fields lined words headers single =>
    have full : requestLine ≠ [] := by
      rintro rfl
      have nothing := Text.tokens_eq_iff.mpr words
      rw [Text.tokens] at nothing
      cases nothing
    have last : Text.BlankLast others := by
      rw [← Text.blankLast_cons_iff full, ← Text.blankLast_map_utf8_iff]
      exact (Head.isHead_iff (Text.linesOf_utf8 lined)).mp isHead
    obtain ⟨headerLines, rfl, nonempty⟩ := last
    have whole : (headerLines ++ [[]]).takeWhile (!·.isEmpty) = headerLines := by
      have kept : ∀ line ∈ headerLines, (!line.isEmpty) = true := fun line member => by
        simpa using ne_of_mem_of_not_mem member nonempty
      rw [List.takeWhile_append_of_pos kept]
      exact List.append_nil _
    rw [whole] at headers
    exact ⟨text, requestLine, headerLines, method, path, fields, rfl, lined, nonempty, words,
      headers, rfl⟩

theorem parseWithin_of_fits (fits : head.length ≤ max) : parseWithin max head = parse head :=
  if_neg (Nat.not_lt.mpr fits)

/-- **Reader and parser agree on where a head ends.** A head that has been read has one blank
line, and that is its end. The parser refuses it for what it says, not for its size, or else reads
each line behind the first, none left out, as a header. Any stream that begins with these bytes
delivers the same head, and so the same request, whatever comes behind them. -/
theorem parse_of_read (arrived : (Head.read max inbound).1 = .head head) :
    (∃ lines, Text.Lined Head.lineFeed Head.carriageReturn head (lines ++ [[]]) ∧ [] ∉ lines) ∧
    (∀ request, parse head = .ok request →
      ∃ text requestLine headerLines method path fields, head = Bytes.ofString text ∧
        Text.LinesOf text.toList (requestLine :: headerLines ++ [[]]) ∧ [] ∉ headerLines ∧
        Text.Worded Text.isBlank requestLine
          [method.toList, path.toList, "HTTP/1.1".toList] ∧
        List.Forall₂ IsField headerLines fields ∧ request = ofParts method path fields) ∧
    (∀ size limit, parseWithin max head ≠ .error (.handshakeTooLarge size limit)) ∧
    ∀ limit other rest, head.length ≤ limit → other.blocks.flatten = head ++ rest →
      (∃ blocks, Head.read limit other = (.head head, { other with blocks }) ∧
        blocks.flatten = rest) ∧ parseWithin limit head = parse head := by
  obtain ⟨isHead, fits⟩ := Head.isHead_of_read inbound arrived
  refine ⟨Head.exists_lines_of_isHead isHead, fun request => exists_headerLines isHead, ?_, ?_⟩
  · intro size limit refused
    rw [parseWithin_of_fits fits] at refused
    obtain ⟨fault, other⟩ := error_of_parse refused
    cases other
  · intro limit other rest room split
    exact ⟨Head.read_of_isHead split isHead room, parseWithin_of_fits room⟩

/-- A head that comes in pieces, with bytes behind it that are no text, and again with others. -/
theorem parse_of_read_shared :
    let head := Bytes.ofString "GET / HTTP/1.1\nA:\r1\r\r\n\r\n"
    let inbound : Inbound := ⟨[head.take 7, head.drop 7 ++ [0xFF, 0xC0]], .eof⟩
    (Head.read 64 inbound).1 = .head head ∧
      (∃ blocks, Head.read 24 ⟨[head ++ [10, 13]], .silent⟩ = (.head head, ⟨blocks, .silent⟩) ∧
        blocks.flatten = [10, 13]) ∧ parseWithin 24 head = parse head := by
  intro head inbound
  have arrived : (Head.read 64 inbound).1 = .head head := by decide +kernel
  have shared := (parse_of_read arrived).2.2.2 24 ⟨[head ++ [10, 13]], .silent⟩ [10, 13]
    (by decide +kernel) (List.append_nil _)
  exact ⟨arrived, shared⟩

end Request

end WebSocket
