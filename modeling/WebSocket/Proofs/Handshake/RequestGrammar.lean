import Mathlib.Data.List.Forall2
import WebSocket.Proofs.Handshake.ResponseFields
import WebSocket.Proofs.Handshake.Values

/-!
# The grammar of a request head

What a head has to look like is told without the parser (`Request.Written`): a text whose first
line is three words, the third of them the protocol version, and whose further lines, up to the
first empty one, are fields, with none of the names that may come only once given twice. The
parser accepts these heads and no others, and keeps of each just the method, the path and the last
value of every name (`Request.parse_exact`). A head that is written from its parts with either end
of line is read as these parts.
-/

namespace WebSocket.Request

/-! ## What a head looks like -/

/-- A header line and its field: the name stands in front of the first colon, the value behind it,
both without the blanks around them. -/
def IsField (line : List Char) (field : String × String) : Prop :=
  ∃ name value, line = name ++ ':' :: value ∧ ':' ∉ name ∧
    Text.Trims name field.1.toList ∧ Text.Trims value field.2.toList

/-- The names on which an upgrade depends. -/
def upgradeNames : List String :=
  ["Upgrade", "Connection", "Sec-WebSocket-Key", "Sec-WebSocket-Version"]

/-- None of these names comes twice, whatever its case. -/
def Single (fields : List (String × String)) : Prop :=
  ∀ name ∈ upgradeNames, (valuesOf name fields).length ≤ 1

instance (fields : List (String × String)) : Decidable (Single fields) :=
  inferInstanceAs (Decidable (∀ name ∈ upgradeNames, (valuesOf name fields).length ≤ 1))

/-- The bytes of a head, and the parts that are written there. -/
inductive Written : Bytes → String → String → List (String × String) → Prop where
  | head {text method path : String} {requestLine : List Char} {others : List (List Char)}
    {fields : List (String × String)}
    (lined : Text.LinesOf text.toList (requestLine :: others))
    (words : Text.Worded Text.isBlank requestLine
      [method.toList, path.toList, "HTTP/1.1".toList])
    (headers : List.Forall₂ IsField (others.takeWhile (!·.isEmpty)) fields)
    (single : Single fields) : Written (Bytes.ofString text) method path fields

/-! ## Header lines -/

variable {headers next : Table String} {line : List Char} {lines : List (List Char)}
  {name method path : String} {field : String × String} {fields : List (String × String)}
  {request : Request}

theorem isField_iff :
    IsField line field ↔
      ∃ name value, Text.splitFirst? ':' line = some (name, value) ∧
        field = (String.ofList (Text.trim name), String.ofList (Text.trim value)) := by
  constructor
  · rintro ⟨name, value, split, absent, trimsName, trimsValue⟩
    refine ⟨name, value, Text.splitFirst?_eq_some_iff.mpr ⟨split, absent⟩, ?_⟩
    rw [Text.trim_of_trims trimsName, Text.trim_of_trims trimsValue, String.ofList_toList,
      String.ofList_toList]
  · rintro ⟨name, value, split, rfl⟩
    obtain ⟨split, absent⟩ := Text.splitFirst?_eq_some_iff.mp split
    refine ⟨name, value, split, absent, ?_, ?_⟩
    · rw [String.toList_ofList]
      exact Text.trims_trim name
    · rw [String.toList_ofList]
      exact Text.trims_trim value

/-- A field takes the place of an earlier one of its name. -/
def enter (headers : Table String) (field : String × String) : Table String :=
  headers.insert (Text.lower field.1) field.2

theorem ofParts_eq (method path : String) (fields : List (String × String)) :
    ofParts method path fields = ⟨method, path, fields.foldl enter {}⟩ := rfl

theorem parseHeader_eq_ok_iff :
    parseHeader headers line = .ok next ↔
      ∃ field, IsField line field ∧
        (Text.lower field.1 ∈ singleHeaders → headers.get? (Text.lower field.1) = none) ∧
        next = enter headers field := by
  simp only [isField_iff]
  unfold parseHeader
  cases split : Text.splitFirst? ':' line with
  | none => simp
  | some sides =>
    obtain ⟨name, value⟩ := sides
    have free (key : String) :
        ¬ (singleHeaders.contains key && headers.contains key) = true ↔
          (key ∈ singleHeaders → headers.get? key = none) := by
      simp [Table.contains]
    dsimp only
    constructor
    · intro read
      split at read
      · cases read
      · next unused =>
        cases read
        exact ⟨_, ⟨name, value, rfl, rfl⟩, (free _).mp unused, rfl⟩
    · rintro ⟨field, ⟨before, after, same, rfl⟩, unused, rfl⟩
      cases same
      exact if_neg ((free _).mpr unused)

/-- Of the names that may come only once, none is in the table and in these fields. -/
def SingleBehind (headers : Table String) (fields : List (String × String)) : Prop :=
  ∀ name ∈ singleHeaders, ((headers.get? name).toList ++ valuesOf name fields).length ≤ 1

theorem lower_of_mem_singleHeaders (member : name ∈ singleHeaders) : Text.lower name = name := by
  revert name
  decide

theorem singleBehind_nil (headers : Table String) : SingleBehind headers [] := by
  intro name _
  cases headers.get? name <;> simp [valuesOf]

theorem valuesOf_cons_of_single (member : name ∈ singleHeaders) :
    valuesOf name (field :: fields) =
      if name = Text.lower field.1 then field.2 :: valuesOf name fields
      else valuesOf name fields := by
  simp only [valuesOf_cons, Text.equalsIgnoringCase_iff, lower_of_mem_singleHeaders member]

theorem singleBehind_cons_iff :
    SingleBehind headers (field :: fields) ↔
      (Text.lower field.1 ∈ singleHeaders → headers.get? (Text.lower field.1) = none) ∧
        SingleBehind (enter headers field) fields := by
  constructor
  · intro single
    refine ⟨fun member => ?_, fun name member => ?_⟩
    · have all := single _ member
      rw [valuesOf_cons_of_single member, if_pos rfl] at all
      cases given : headers.get? (Text.lower field.1) with
      | none => rfl
      | some value => simp [given] at all
    · have all := single name member
      rw [valuesOf_cons_of_single member] at all
      rw [enter, Table.get?_insert]
      by_cases same : name = Text.lower field.1
      · rw [if_pos same] at all ⊢
        simp only [List.length_append, List.length_cons, Option.toList_some, List.length_nil]
          at all ⊢
        omega
      · rwa [if_neg same] at all ⊢
  · rintro ⟨unused, single⟩ name member
    have all := single name member
    rw [enter, Table.get?_insert] at all
    rw [valuesOf_cons_of_single member]
    by_cases same : name = Text.lower field.1
    · rw [if_pos same] at all ⊢
      rw [same, unused (same ▸ member)]
      rw [same] at all
      exact all
    · rwa [if_neg same] at all ⊢

theorem foldlM_parseHeader_eq_ok_iff :
    lines.foldlM parseHeader headers = .ok next ↔
      ∃ fields, List.Forall₂ IsField lines fields ∧ SingleBehind headers fields ∧
        next = fields.foldl enter headers := by
  induction lines generalizing headers with
  | nil =>
    constructor
    · intro read
      cases read
      exact ⟨[], .nil, singleBehind_nil _, rfl⟩
    · rintro ⟨fields, all, -, rfl⟩
      cases all
      rfl
  | cons line lines ih =>
    have joined {read : Except HandshakeFault (Table String)} :
        (read >>= lines.foldlM parseHeader) = .ok next ↔
          ∃ headers, read = .ok headers ∧ lines.foldlM parseHeader headers = .ok next := by
      cases read <;> simp [bind, Except.bind]
    simp only [List.foldlM_cons, joined, parseHeader_eq_ok_iff, ih]
    constructor
    · rintro ⟨headers, ⟨field, here, unused, rfl⟩, fields, more, single, rfl⟩
      exact ⟨field :: fields, .cons here more, singleBehind_cons_iff.mpr ⟨unused, single⟩, rfl⟩
    · rintro ⟨fields, all, single, rfl⟩
      cases all with
      | @cons line field lines fields here more =>
        obtain ⟨unused, single⟩ := singleBehind_cons_iff.mp single
        exact ⟨enter headers field, ⟨field, here, unused, rfl⟩, fields, more, single, rfl⟩

theorem get?_foldl_enter (fields : List (String × String)) (headers : Table String)
    (name : String) :
    (fields.foldl enter headers).get? (Text.lower name) =
      (valuesOf name fields).getLast?.or (headers.get? (Text.lower name)) := by
  induction fields generalizing headers with
  | nil => rfl
  | cons field fields ih =>
    rw [List.foldl_cons, ih, enter, Table.get?_insert, valuesOf_cons]
    by_cases same : Text.lower name = Text.lower field.1
    · rw [if_pos same, if_pos (Text.equalsIgnoringCase_iff.mpr same), getLast?_cons_or]
    · rw [if_neg same, if_neg (mt Text.equalsIgnoringCase_iff.mp same)]

/-- A header's value is the last one that is given for its name. -/
theorem header?_ofParts (method path : String) (fields : List (String × String)) (name : String) :
    (ofParts method path fields).header? name = (valuesOf name fields).getLast? := by
  rw [header?, ofParts_eq]
  exact (get?_foldl_enter fields {} name).trans (Option.or_none)

/-! ## The whole head -/

theorem singleHeaders_eq : singleHeaders = upgradeNames.map Text.lower := by decide

theorem valuesOf_lower (member : name ∈ upgradeNames) :
    valuesOf (Text.lower name) fields = valuesOf name fields := by
  have again : ∀ name ∈ upgradeNames, Text.lower (Text.lower name) = Text.lower name := by decide
  simp only [valuesOf, Text.equalsIgnoringCase, again name member]

theorem singleBehind_empty_iff : SingleBehind {} fields ↔ Single fields := by
  have nothing (name : String) : ({} : Table String).get? name = none := rfl
  simp only [SingleBehind, Single, singleHeaders_eq, List.forall_mem_map, nothing,
    Option.toList_none, List.nil_append]
  refine forall₂_congr fun name member => ?_
  rw [valuesOf_lower member]

theorem parseText_eq_ok_iff {text : List Char} :
    parseText text = .ok request ↔
      ∃ requestLine others method path fields, Text.LinesOf text (requestLine :: others) ∧
        Text.Worded Text.isBlank requestLine [method.toList, path.toList, "HTTP/1.1".toList] ∧
        List.Forall₂ IsField (others.takeWhile (!·.isEmpty)) fields ∧ Single fields ∧
        request = ofParts method path fields := by
  constructor
  · intro read
    unfold parseText at read
    split at read
    · cases read
    · next requestLine others cut =>
      split at read
      · next method path version words =>
        split at read
        · cases read
        · next same =>
          cases headers : (others.takeWhile (!·.isEmpty)).foldlM parseHeader {} with
          | error fault =>
            rw [headers] at read
            cases read
          | ok table =>
            rw [headers] at read
            cases read
            obtain ⟨fields, all, single, rfl⟩ := foldlM_parseHeader_eq_ok_iff.mp headers
            have version : version = "HTTP/1.1".toList := by
              rw [← Decidable.not_not.mp same, String.toList_ofList]
            rw [version] at words
            refine ⟨requestLine, others, String.ofList method, String.ofList path, fields,
              Text.lines_eq_iff.mp cut, ?_, all, singleBehind_empty_iff.mp single, rfl⟩
            rw [String.toList_ofList, String.toList_ofList]
            exact Text.tokens_eq_iff.mp words
      · cases read
  · rintro ⟨requestLine, others, method, path, fields, lined, words, all, single, rfl⟩
    have table := foldlM_parseHeader_eq_ok_iff.mpr
      ⟨fields, all, singleBehind_empty_iff.mpr single, rfl⟩
    rw [parseText, Text.lines_eq_iff.mpr lined]
    dsimp only
    rw [Text.tokens_eq_iff.mpr words]
    dsimp only
    rw [String.ofList_toList, String.ofList_toList, String.ofList_toList, if_neg (by simp), table]
    rfl

theorem eq_ofString_of_fromUTF8? {data : Bytes} {text : String}
    (decoded : String.fromUTF8? data.toByteArray = some text) : data = Bytes.ofString text := by
  have bytes : data.toByteArray = text.toByteArray := by
    unfold String.fromUTF8? at decoded
    split at decoded
    · cases decoded
      rfl
    · cases decoded
  have same : data.toByteArray = (Bytes.ofString text).toByteArray :=
    bytes.trans String.utf8Encode_toList.symm
  have lists := congrArg (·.data.toList) same
  simpa using lists

theorem parse_eq_ok_iff {data : Bytes} :
    parse data = .ok request ↔
      ∃ method path fields, Written data method path fields ∧
        request = ofParts method path fields := by
  constructor
  · intro read
    unfold parse at read
    dsimp only at read
    split at read
    · cases read
    · next text decoded =>
      obtain ⟨requestLine, others, method, path, fields, lined, words, headers, single, parts⟩ :=
        parseText_eq_ok_iff.mp (ok_of_mapError read)
      rw [eq_ofString_of_fromUTF8? decoded]
      exact ⟨method, path, fields, .head lined words headers single, parts⟩
  · rintro ⟨method, path, fields, written, rfl⟩
    cases written with
    | head lined words headers single =>
      rw [parse_ofString, parseText_eq_ok_iff.mpr ⟨_, _, method, path, fields, lined, words,
        headers, single, rfl⟩]
      rfl

/-! ## Writing a head -/

def requestLine (method path : String) : List Char :=
  method.toList ++ ' ' :: path.toList ++ " HTTP/1.1".toList

def fieldLine (field : String × String) : List Char :=
  field.1.toList ++ ':' :: ' ' :: field.2.toList

/-- A head with these parts, each line and the blank one behind them with this end. -/
def render (ending : List Char) (method path : String) (fields : List (String × String)) :
    Bytes :=
  let lines := requestLine method path :: (fields.map fieldLine ++ [[]])
  Bytes.ofString (String.ofList (lines.flatMap (· ++ ending)))

/-- Only the characters of the text are looked at, not all that there are. -/
instance (text : List Char) : Decidable (∀ c ∈ text, Text.isBlank c = false) :=
  decidable_of_iff (text.all (!Text.isBlank ·) = true) (by simp)

/-- Parts that can be told from a head: the two words are words, no part of a field reaches beyond
its place, and no name that may come only once comes twice. -/
structure Plain (method path : String) (fields : List (String × String)) : Prop where
  words : ∀ word ∈ [method, path], word.toList ≠ [] ∧ ∀ c ∈ word.toList, Text.isBlank c = false
  names : ∀ field ∈ fields, Text.Trimmed field.1.toList ∧ ':' ∉ field.1.toList ∧
    '\n' ∉ field.1.toList
  values : ∀ field ∈ fields, Text.Trimmed field.2.toList ∧ '\n' ∉ field.2.toList
  single : Single fields

namespace Plain

variable (plain : Plain method path fields)
include plain

theorem worded_requestLine : Text.Worded Text.isBlank (requestLine method path)
    [method.toList, path.toList, "HTTP/1.1".toList] := by
  have one (c : Char) (member : c ∈ [' ']) : Text.isBlank c = true :=
    List.mem_singleton.mp member ▸ rfl
  obtain ⟨someMethod, solidMethod⟩ := plain.words method (by simp)
  obtain ⟨somePath, solidPath⟩ := plain.words path (by simp)
  have third : Text.Worded Text.isBlank ([' '] ++ "HTTP/1.1".toList ++ [])
      ["HTTP/1.1".toList] := .cons one (by decide) (by decide) nofun (.nil nofun)
  have second : Text.Worded Text.isBlank
      ([' '] ++ path.toList ++ ([' '] ++ "HTTP/1.1".toList ++ []))
      [path.toList, "HTTP/1.1".toList] := .cons one somePath solidPath (by simp; rfl) third
  have first : Text.Worded Text.isBlank ([] ++ method.toList ++
      ([' '] ++ path.toList ++ ([' '] ++ "HTTP/1.1".toList ++ [])))
      [method.toList, path.toList, "HTTP/1.1".toList] :=
    .cons nofun someMethod solidMethod (by simp; rfl) second
  simpa [requestLine] using first

theorem whole_requestLine :
    '\n' ∉ requestLine method path ∧ (requestLine method path).getLast? ≠ some '\r' := by
  have absent (word : String) (member : word ∈ [method, path]) : '\n' ∉ word.toList :=
    fun held => absurd ((plain.words word member).2 _ held) (by decide)
  constructor
  · simp [requestLine, absent method, absent path]
  · rw [requestLine, List.getLast?_append_of_ne_nil]
    · decide
    · decide

theorem whole_fieldLine (member : field ∈ fields) :
    '\n' ∉ fieldLine field ∧ (fieldLine field).getLast? ≠ some '\r' := by
  obtain ⟨-, -, inName⟩ := plain.names field member
  obtain ⟨trimmed, inValue⟩ := plain.values field member
  refine ⟨by simp [fieldLine, inName, inValue], fun last => ?_⟩
  rw [fieldLine, List.getLast?_append_cons, List.getLast?_cons_cons, List.getLast?_cons] at last
  cases own : field.2.toList.getLast? with
  | none =>
    rw [own] at last
    cases last
  | some c =>
    rw [own] at last
    cases last
    exact absurd (trimmed.2 _ own) (by decide)

theorem isField_fieldLine (member : field ∈ fields) : IsField (fieldLine field) field := by
  obtain ⟨trimmedName, absent, -⟩ := plain.names field member
  obtain ⟨trimmedValue, -⟩ := plain.values field member
  refine ⟨field.1.toList, ' ' :: field.2.toList, rfl, absent,
    ⟨trimmedName, [], [], ?_, nofun, nofun⟩, trimmedValue, [' '], [], ?_, ?_, nofun⟩
  · simp
  · simp
  · intro c member
    exact List.mem_singleton.mp member ▸ rfl

end Plain

theorem takeWhile_fieldLines (fields : List (String × String)) :
    (fields.map fieldLine ++ [[]]).takeWhile (!·.isEmpty) = fields.map fieldLine := by
  have nonempty : ∀ line ∈ fields.map fieldLine, (!line.isEmpty) = true := by
    intro line member
    obtain ⟨field, -, rfl⟩ := List.mem_map.mp member
    simp [fieldLine]
  rw [List.takeWhile_append_of_pos nonempty]
  exact List.append_nil _

theorem written_render {ending : List Char} (ends : ending = ['\n'] ∨ ending = ['\r', '\n'])
    (plain : Plain method path fields) :
    Written (render ending method path fields) method path fields := by
  let lines := requestLine method path :: (fields.map fieldLine ++ [[]])
  have whole : ∀ line ∈ lines, '\n' ∉ line ∧ line.getLast? ≠ some '\r' := by
    simp only [lines, List.forall_mem_cons, List.forall_mem_append, List.forall_mem_map]
    refine ⟨plain.whole_requestLine, fun field member => plain.whole_fieldLine member, ?_⟩
    simp
  have lined := Text.lined_flatMap ends (by decide) whole
  rw [← String.toList_ofList (l := lines.flatMap (· ++ ending))] at lined
  refine .head lined plain.worded_requestLine ?_ plain.single
  rw [takeWhile_fieldLines, List.forall₂_map_left_iff, List.forall₂_same]
  exact fun field member => plain.isField_fieldLine member

/-- **The parser accepts exactly its grammar.** A head is accepted just if it is written as
`Written` says, and what it is read as says the method, the path and of each name the last value.
So a head that is written from its parts is read as these, with either end of line. -/
theorem parse_exact :
    (∀ data request, parse data = .ok request ↔ ∃ method path fields,
      Written data method path fields ∧ request = ofParts method path fields) ∧
    (∀ method path fields, (ofParts method path fields).method = method ∧
      (ofParts method path fields).path = path ∧
      ∀ name, (ofParts method path fields).header? name = (valuesOf name fields).getLast?) ∧
    ∀ method path fields, Plain method path fields →
      ∀ ending ∈ [['\n'], ['\r', '\n']],
        parse (render ending method path fields) = .ok (ofParts method path fields) := by
  refine ⟨fun data request => parse_eq_ok_iff,
    fun method path fields => ⟨rfl, rfl, header?_ofParts method path fields⟩, ?_⟩
  intro method path fields plain ending ends
  have either : ending = ['\n'] ∨ ending = ['\r', '\n'] := by simpa using ends
  exact parse_eq_ok_iff.mpr ⟨method, path, fields, written_render either plain, rfl⟩

/-- The last value of a name counts, and a value keeps its colons and a carriage return inside. -/
theorem parse_exact_rendered :
    let fields := [("Upgrade", "websocket"), ("X", "1"), ("", ""), ("x", "2:\r3")]
    Plain "GET" "/chat" fields ∧
      parse (render ['\r', '\n'] "GET" "/chat" fields) = .ok (ofParts "GET" "/chat" fields) ∧
      (ofParts "GET" "/chat" fields).header? "X" = some "2:\r3" := by
  have plain : Plain "GET" "/chat"
      [("Upgrade", "websocket"), ("X", "1"), ("", ""), ("x", "2:\r3")] :=
    ⟨by decide +kernel, by decide +kernel, by decide +kernel, by decide +kernel⟩
  exact ⟨plain, parse_exact.2.2 _ _ _ plain _ (by simp), by decide +kernel⟩

end WebSocket.Request
