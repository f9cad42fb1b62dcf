import Mathlib.Data.List.TakeWhile
import WebSocket.Proofs.Handshake.Upgrade
import WebSocket.Proofs.Splitting

/-!
# What header values hold

A line ends at each line feed, so no line holds one, and a header's value is a part of its line.
A carriage return ends a line only in front of a line feed: elsewhere it is a character like any
other, and where it stands inside a value it is no blank at an end and no separator of a list. So
an offered subprotocol never holds a line feed (`Request.lineFeed_notMem_protocols`), and one of
them holds a carriage return exactly if the value of the offer does
(`Request.exists_mem_protocols_iff`).
-/

namespace WebSocket

namespace Text

theorem mem_consFirst {c : Char} {line : List Char} {lines : List (List Char)}
    (member : line ∈ consFirst c lines) :
    line ∈ lines ∨ ∃ rest, line = c :: rest ∧ (rest = [] ∨ rest ∈ lines) := by
  cases lines with
  | nil => exact .inr ⟨[], List.mem_singleton.mp member, .inl rfl⟩
  | cons first others =>
    rcases List.mem_cons.mp member with same | other
    · exact .inr ⟨first, same, .inr List.mem_cons_self⟩
    · exact .inl (List.mem_cons_of_mem first other)

theorem lineFeed_notMem_of_mem_lines {text line : List Char} (member : line ∈ lines text) :
    '\n' ∉ line := by
  fun_induction lines text generalizing line with
  | case1 => cases member
  | case2 rest ih | case3 rest ih =>
    rcases List.mem_cons.mp member with rfl | later
    · exact List.not_mem_nil
    · exact ih later
  | case4 c rest further _ ih =>
    rcases mem_consFirst member with later | ⟨tail, rfl, rfl | later⟩
    · exact ih later
    · simpa using Ne.symm further
    · exact List.not_mem_cons_of_ne_of_not_mem (Ne.symm further) (ih later)

theorem trim_sublist (text : List Char) : (trim text).Sublist text := by
  have front := List.dropWhile_sublist (l := text) isBlank
  have back := (List.dropWhile_sublist (l := (text.dropWhile isBlank).reverse) isBlank).reverse
  rw [List.reverse_reverse] at back
  exact back.trans front

theorem splitFirst?_sublist {mark : Char} {text before after : List Char}
    (split : splitFirst? mark text = some (before, after)) : after.Sublist text := by
  unfold splitFirst? at split
  split at split
  · cases split
  · next found rest dropped =>
    cases split
    exact (dropped ▸ List.sublist_cons_self found after).trans (List.dropWhile_sublist _)

/-- The characters of a text's tokens are those that are no separators. -/
theorem exists_mem_tokens_iff {isSeparator : Char → Bool} {text : List Char} {c : Char} :
    (∃ token ∈ tokens isSeparator text, c ∈ token) ↔ c ∈ text ∧ isSeparator c = false := by
  fun_induction tokens isSeparator text with
  | case1 => simp
  | case2 first rest separator ih =>
    rw [ih, List.mem_cons]
    constructor
    · exact And.imp_left .inr
    · rintro ⟨rfl | member, inside⟩
      · rw [separator] at inside
        cases inside
      · exact ⟨member, inside⟩
  | case3 first rest inside ih =>
    have among : c ∈ rest ↔
        c ∈ rest.takeWhile (!isSeparator ·) ∨ c ∈ rest.dropWhile (!isSeparator ·) := by
      rw [← List.mem_append, List.takeWhile_append_dropWhile]
    have start (same : c = first) : isSeparator c = false := same ▸ Bool.eq_false_iff.mpr inside
    have taken (member : c ∈ rest.takeWhile (!isSeparator ·)) : isSeparator c = false := by
      simpa using List.mem_takeWhile_imp member
    simp only [List.mem_cons, exists_eq_or_imp, ih, among]
    grind

end Text

namespace Table

variable {α : Type} {P : α → Prop} {table : Table α}

/-- Every value of the table is such. -/
def All (P : α → Prop) (table : Table α) : Prop :=
  ∀ key value, table.get? key = some value → P value

theorem all_empty : All P {} := nofun

theorem All.insert (all : table.All P) (key : String) {value : α} (such : P value) :
    (table.insert key value).All P := by
  intro other found same
  rw [get?_insert] at same
  split at same
  · exact Option.some.inj same ▸ such
  · exact all other found same

end Table

namespace Request

variable {request : Request} {headers next : Table String} {line : List Char}
  {lines : List (List Char)}

/-- The bytes of a text are read as that text. -/
theorem parse_ofString (text : String) :
    parse (Bytes.ofString text) = (parseText text.toList).mapError .invalidHandshake := by
  have bytes : (Bytes.ofString text).toByteArray = text.toByteArray := String.utf8Encode_toList
  have decoded : String.fromUTF8? text.toByteArray = some text := dif_pos text.isValidUTF8
  simp only [parse, bytes, decoded]

/-- A header line puts a part of itself into the table. -/
theorem parseHeader_eq_ok (read : parseHeader headers line = .ok next) :
    ∃ key value, next = headers.insert key (String.ofList value) ∧ value.Sublist line := by
  unfold parseHeader at read
  split at read
  · cases read
  · next name value split =>
    dsimp only at read
    split at read
    · cases read
    · cases read
      exact ⟨_, Text.trim value, rfl,
        (Text.trim_sublist value).trans (Text.splitFirst?_sublist split)⟩

/-- What holds of every part of every line holds of every value. -/
theorem all_foldlM_parseHeader {P : String → Prop}
    (parts : ∀ line ∈ lines, ∀ part : List Char, part.Sublist line → P (String.ofList part))
    (all : headers.All P) (read : lines.foldlM parseHeader headers = .ok next) : next.All P := by
  induction lines generalizing headers with
  | nil =>
    cases read
    exact all
  | cons line lines ih =>
    rw [List.foldlM_cons] at read
    cases first : parseHeader headers line with
    | error fault =>
      rw [first] at read
      cases read
    | ok after =>
      rw [first] at read
      obtain ⟨key, value, rfl, part⟩ := parseHeader_eq_ok first
      exact ih (fun line member => parts line (List.mem_cons_of_mem _ member))
        (all.insert key (parts line List.mem_cons_self value part)) read

theorem all_headers_of_parseText {P : String → Prop} {text : List Char}
    (parts : ∀ line ∈ Text.lines text, ∀ part : List Char, part.Sublist line →
      P (String.ofList part))
    (read : parseText text = .ok request) : request.headers.All P := by
  unfold parseText at read
  split at read
  · cases read
  · next requestLine rest cut =>
    split at read
    · split at read
      · cases read
      · cases parsed : (rest.takeWhile (!·.isEmpty)).foldlM parseHeader {} with
        | error fault =>
          rw [parsed] at read
          cases read
        | ok headers =>
          rw [parsed] at read
          cases read
          refine all_foldlM_parseHeader (fun line member => parts line ?_) Table.all_empty parsed
          rw [cut]
          exact List.mem_cons_of_mem _ ((List.takeWhile_sublist _).subset member)
    · cases read

/-- No header's value in a request that was read holds a line feed. -/
theorem lineFeed_notMem_header {data : Bytes} (read : parse data = .ok request)
    {name value : String} (given : request.header? name = some value) :
    '\n' ∉ value.toList := by
  have all : request.headers.All fun value => '\n' ∉ value.toList := by
    unfold parse at read
    dsimp only at read
    split at read
    · cases read
    · next text decoded =>
      refine all_headers_of_parseText (fun line member part among => ?_) (ok_of_mapError read)
      rw [String.toList_ofList]
      exact fun held => Text.lineFeed_notMem_of_mem_lines member (among.subset held)
  exact all _ value given

/-- A character that separates no list is in an offered subprotocol if the offer holds it. -/
theorem exists_mem_protocols_iff {c : Char} (inside : isListSeparator c = false) :
    (∃ name ∈ request.protocols, c ∈ name.toList) ↔
      ∃ value, request.header? "Sec-WebSocket-Protocol" = some value ∧ c ∈ value.toList := by
  unfold protocols parseProtocols
  cases request.header? "Sec-WebSocket-Protocol" with
  | none => simp
  | some value =>
    simp [Text.exists_mem_tokens_iff, inside]

/-- No offered subprotocol holds a line feed. -/
theorem lineFeed_notMem_protocols {data : Bytes} (read : parse data = .ok request) :
    ∀ name ∈ request.protocols, '\n' ∉ name.toList := by
  intro name member held
  obtain ⟨value, given, among⟩ :=
    (exists_mem_protocols_iff (by decide)).mp ⟨name, member, held⟩
  exact lineFeed_notMem_header read given among

end Request

end WebSocket
