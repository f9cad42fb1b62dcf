import WebSocket.Handshake.Response
import WebSocket.Proofs.Utf8

/-!
# When a response can be written

A head is a list of lines, each with its end, and an empty one behind them (`Head.ofLines`). The
head of the switching response is written whole, line for line, if no field of it holds the end of
a line (`Response.write_of_fit`), and otherwise writing fails with the first field that does
(`Response.write_of_unfit`); so a head that is written whole has fields of which none does
(`Response.write_of_ok`). The digest of a key is always fit to stand in a head.
-/

namespace WebSocket

namespace Digest.Base64

theorem symbol_mem_alphabet (n : Nat) : symbol n ∈ alphabet := by
  have short : n % 64 < alphabet.length := Nat.mod_lt n (by decide)
  rw [symbol, List.getD_eq_getElem?_getD, List.getElem?_eq_getElem short]
  exact List.getElem_mem short

theorem mem_encodeChars {bytes : Bytes} {c : Char} (member : c ∈ encodeChars bytes) :
    c ∈ padding :: alphabet := by
  have symbols (n : Nat) : symbol n ∈ padding :: alphabet :=
    List.mem_cons_of_mem padding (symbol_mem_alphabet n)
  fun_induction encodeChars bytes with
  | case1 a b d rest n ih => grind
  | case2 a b n => grind
  | case3 a n => grind
  | case4 => cases member

end Digest.Base64

theorem breaksLine_eq_false_iff {text : String} :
    breaksLine text = false ↔ '\r' ∉ text.toList ∧ '\n' ∉ text.toList := by
  simp only [breaksLine, List.any_eq_false, Bool.or_eq_true, beq_iff_eq, not_or]
  constructor
  · intro neither
    exact ⟨fun held => (neither _ held).1 rfl, fun held => (neither _ held).2 rfl⟩
  · rintro ⟨noReturn, noFeed⟩ c member
    exact ⟨fun same => noReturn (same ▸ member), fun same => noFeed (same ▸ member)⟩

theorem checkField_eq_ok_iff {name value : String} :
    checkField name value = .ok () ↔ breaksLine name = false ∧ breaksLine value = false := by
  unfold checkField
  cases breaksLine name <;> cases breaksLine value <;> simp

theorem checkField_of_return {value : String} (held : '\r' ∈ value.toList) (name : String) :
    checkField name value = .error (.invalidHeaderValue name "contains CR or LF characters") := by
  have breaks : breaksLine value = true := List.any_eq_true.mpr ⟨'\r', held, rfl⟩
  rw [checkField, breaks, Bool.or_true, if_pos rfl]

theorem breaksLine_acceptKey (key : String) : breaksLine (acceptKey key) = false := by
  have symbols : (Digest.Base64.padding :: Digest.Base64.alphabet).any
      (fun c => c == '\r' || c == '\n') = false := by decide +kernel
  rw [breaksLine, acceptKey, Digest.Base64.encode, String.toList_ofList, List.any_eq_false]
  intro c member
  exact List.any_eq_false.mp symbols c (Digest.Base64.mem_encodeChars member)

theorem Table.putEntry_of_absent {α : Type} {same : String → Bool} {key : String} {value : α}
    {entries : List (String × α)} (absent : ∀ entry ∈ entries, same entry.1 = false) :
    putEntry same key value entries = entries ++ [(key, value)] := by
  induction entries with
  | nil => rfl
  | cons entry entries ih =>
    obtain ⟨other, others⟩ := List.forall_mem_cons.mp absent
    simp [putEntry, other, ih others]

/-! ## Lines -/

/-- The two bytes that end a line. -/
def lineEnd : Bytes := [13, 10]

/-- The head with these lines: each with its end, and an empty one behind them. -/
def Head.ofLines (lines : List Bytes) : Bytes := lines.flatMap (· ++ lineEnd) ++ lineEnd

namespace Response

variable {response : Response} {fields front back : List (String × String)}
  {name value : String} {error : Error}

/-- A field as it stands in its line. -/
def fieldText (field : String × String) : Bytes := Bytes.ofString (field.1 ++ ": " ++ field.2)

/-- The lines of a head up to these fields, without their ends. -/
def headLines (fields : List (String × String)) : List Bytes :=
  Bytes.ofString "HTTP/1.1 101 Switching Protocols" :: fields.map fieldText

theorem ofString_lineEnd : Bytes.ofString "\r\n" = lineEnd := by decide

theorem ofString_statusLine :
    Bytes.ofString statusLine = Bytes.ofString "HTTP/1.1 101 Switching Protocols" ++ lineEnd := by
  decide

theorem ofString_fieldLine (field : String × String) :
    Bytes.ofString (fieldLine field.1 field.2) = fieldText field ++ lineEnd := by
  rw [fieldLine, Bytes.ofString_append, ofString_lineEnd, fieldText]

/-! ## Writing -/

theorem writeFields_of_fit (fit : ∀ field ∈ fields, checkField field.1 field.2 = .ok ()) :
    writeFields fields = (Head.ofLines (fields.map fieldText), .ok ()) := by
  induction fields with
  | nil =>
    rw [writeFields, ofString_lineEnd]
    rfl
  | cons field fields ih =>
    obtain ⟨first, others⟩ := List.forall_mem_cons.mp fit
    simp only [writeFields, first, ih others, ofString_fieldLine, Head.ofLines, List.map_cons,
      List.flatMap_cons, List.append_assoc]

theorem writeFields_of_unfit (fit : ∀ field ∈ front, checkField field.1 field.2 = .ok ())
    (unfit : checkField name value = .error error) :
    writeFields (front ++ (name, value) :: back) =
      ((front.map fieldText).flatMap (· ++ lineEnd), .error error) := by
  induction front with
  | nil => simp only [List.nil_append, writeFields, unfit, List.map_nil, List.flatMap_nil]
  | cons field front ih =>
    obtain ⟨first, others⟩ := List.forall_mem_cons.mp fit
    simp only [List.cons_append, writeFields, first, ih others, ofString_fieldLine, List.map_cons,
      List.flatMap_cons]

theorem write_of_fit (fit : ∀ field ∈ response.fields, checkField field.1 field.2 = .ok ()) :
    response.write = (Head.ofLines (headLines response.fields), .ok ()) := by
  simp only [write, writeFields_of_fit fit, ofString_statusLine, headLines, Head.ofLines,
    List.flatMap_cons, List.append_assoc]

theorem write_of_unfit (split : response.fields = front ++ (name, value) :: back)
    (fit : ∀ field ∈ front, checkField field.1 field.2 = .ok ())
    (unfit : checkField name value = .error error) : response.write.2 = .error error := by
  simp only [write, split, writeFields_of_unfit fit unfit]

theorem fit_of_writeFields (whole : (writeFields fields).2 = .ok ()) :
    ∀ field ∈ fields, checkField field.1 field.2 = .ok () := by
  induction fields with
  | nil => exact nofun
  | cons field fields ih =>
    cases checked : checkField field.1 field.2 with
    | error error =>
      simp only [writeFields, checked] at whole
      cases whole
    | ok =>
      simp only [writeFields, checked] at whole
      exact List.forall_mem_cons.mpr ⟨checked, ih whole⟩

theorem fit_of_write (whole : response.write.2 = .ok ()) :
    ∀ field ∈ response.fields, checkField field.1 field.2 = .ok () :=
  fit_of_writeFields whole

theorem write_of_ok (whole : response.write.2 = .ok ()) :
    response.write.1 = Head.ofLines (headLines response.fields) :=
  congrArg Prod.fst (write_of_fit (fit_of_write whole))

end Response

end WebSocket
