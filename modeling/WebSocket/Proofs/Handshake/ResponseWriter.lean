import WebSocket.Handshake.Head
import WebSocket.Proofs.Handshake.FieldMerge

/-!
# Writing the switching response

Whatever names and values a handler gives, a head that is written whole consists of the status
line, one line for each field and an empty line, and no byte of a field ends a line; and a head
with a field that would is broken off in front of it (`Response.writeTo_merged`).
-/

namespace WebSocket

variable {text name value : String} {fields front back : List (String × String)} {line : Bytes}

/-- A field whose name and value keep to one line. -/
def Unbroken (field : String × String) : Prop :=
  breaksLine field.1 = false ∧ breaksLine field.2 = false

instance (field : String × String) : Decidable (Unbroken field) :=
  inferInstanceAs (Decidable (_ ∧ _))

theorem checkField_of_not_unbroken (broken : ¬ Unbroken (name, value)) :
    checkField name value = .error (.invalidHeaderValue name "contains CR or LF characters") := by
  refine if_pos (Decidable.byContradiction fun neither => broken ?_)
  rw [Bool.or_eq_true, not_or] at neither
  exact ⟨Bool.eq_false_iff.mpr neither.1, Bool.eq_false_iff.mpr neither.2⟩

/-- These bytes end no line. -/
def Inline (bytes : Bytes) : Prop := Head.carriageReturn ∉ bytes ∧ Head.lineFeed ∉ bytes

theorem inline_ofString (unbroken : breaksLine text = false) : Inline (Bytes.ofString text) := by
  obtain ⟨noReturn, noFeed⟩ := breaksLine_eq_false_iff.mp unbroken
  exact ⟨fun held => noReturn (Bytes.mem_of_mem_ofString held (by decide)),
    fun held => noFeed (Bytes.mem_of_mem_ofString held (by decide))⟩

theorem Inline.append {more : Bytes} (before : Inline line) (behind : Inline more) :
    Inline (line ++ more) := by
  simp only [Inline, List.mem_append, not_or]
  exact ⟨⟨before.1, behind.1⟩, before.2, behind.2⟩

namespace Response

/-- A field's line is ended by nothing in it. -/
theorem inline_headLines (unbroken : ∀ field ∈ fields, Unbroken field)
    (member : line ∈ headLines fields) : Inline line := by
  rcases List.mem_cons.mp member with rfl | member
  · exact inline_ofString (by decide)
  · obtain ⟨field, held, rfl⟩ := List.mem_map.mp member
    obtain ⟨name, value⟩ := unbroken field held
    simp only [fieldText, Bytes.ofString_append]
    exact ((inline_ofString name).append (inline_ofString (by decide))).append
      (inline_ofString value)

theorem writeTo_of_unbroken {response : Response} (buffer : Bytes)
    (unbroken : ∀ field ∈ response.fields, Unbroken field) :
    response.writeTo buffer =
      (buffer ++ (headLines response.fields).flatMap (· ++ lineEnd) ++ lineEnd, .ok ()) := by
  have fit : ∀ field ∈ response.fields, checkField field.1 field.2 = .ok () :=
    fun field member => checkField_eq_ok_iff.mpr (unbroken field member)
  rw [writeTo, write_of_fit fit, Head.ofLines, List.append_assoc]

theorem writeTo_of_broken {response : Response} (buffer : Bytes)
    (split : response.fields = front ++ (name, value) :: back)
    (unbroken : ∀ field ∈ front, Unbroken field) (broken : ¬ Unbroken (name, value)) :
    response.writeTo buffer =
      (buffer ++ (headLines front).flatMap (· ++ lineEnd),
        .error (.invalidHeaderValue name "contains CR or LF characters")) := by
  have fit : ∀ field ∈ front, checkField field.1 field.2 = .ok () :=
    fun field member => checkField_eq_ok_iff.mpr (unbroken field member)
  rw [writeTo, write, split, writeFields_of_unfit fit (checkField_of_not_unbroken broken),
    ofString_statusLine, headLines, List.flatMap_cons]

/-- Fields with an unfit one among them have a first unfit one. -/
theorem exists_first_broken (some : ¬ ∀ field ∈ fields, Unbroken field) :
    ∃ front name value back, fields = front ++ (name, value) :: back ∧
      (∀ field ∈ front, Unbroken field) ∧ ¬ Unbroken (name, value) := by
  induction fields with
  | nil => exact absurd (by simp) some
  | cons field fields ih =>
    by_cases first : Unbroken field
    · have behind : ¬ ∀ field ∈ fields, Unbroken field := fun others =>
        some (List.forall_mem_cons.mpr ⟨first, others⟩)
      obtain ⟨front, name, value, back, rfl, unbroken, broken⟩ := ih behind
      exact ⟨field :: front, name, value, back, rfl, List.forall_mem_cons.mpr ⟨first, unbroken⟩,
        broken⟩
    · exact ⟨[], field.1, field.2, fields, rfl, by simp, first⟩

/-- For every response and every buffer: a head that can be written is the status line, a line
for each of the merged fields, and an empty line. Else writing ends in front of the first field
that would break its line, and names it. -/
theorem writeTo_merged (response : Response) (buffer : Bytes) :
    (merged response.builtIn response.extra).Pairwise
      (fun a b => Text.equalsIgnoringCase a.1 b.1 = false) ∧
    ((response.writeTo buffer).2 = .ok () ↔
      ∀ field ∈ merged response.builtIn response.extra, Unbroken field) ∧
    ((∀ field ∈ merged response.builtIn response.extra, Unbroken field) →
      response.writeTo buffer =
        (buffer ++ (headLines (merged response.builtIn response.extra)).flatMap (· ++ lineEnd) ++
          lineEnd, .ok ()) ∧
      ∀ line ∈ headLines (merged response.builtIn response.extra), Inline line) ∧
    ((¬ ∀ field ∈ merged response.builtIn response.extra, Unbroken field) →
      ∃ front name value back,
        merged response.builtIn response.extra = front ++ (name, value) :: back ∧
        (∀ field ∈ front, Unbroken field) ∧ ¬ Unbroken (name, value) ∧
        response.writeTo buffer =
          (buffer ++ (headLines front).flatMap (· ++ lineEnd),
            .error (.invalidHeaderValue name "contains CR or LF characters"))) := by
  rw [← fields_eq_merged]
  refine ⟨response.distinct_fields, ⟨fun ok => ?_, fun unbroken => ?_⟩, fun unbroken => ?_,
    fun some => ?_⟩
  · refine Decidable.byContradiction fun some => ?_
    obtain ⟨front, name, value, back, split, before, broken⟩ := exists_first_broken some
    rw [writeTo_of_broken buffer split before broken] at ok
    cases ok
  · rw [writeTo_of_unbroken buffer unbroken]
  · exact ⟨writeTo_of_unbroken buffer unbroken, fun line => inline_headLines unbroken⟩
  · obtain ⟨front, name, value, back, split, before, broken⟩ := exists_first_broken some
    exact ⟨front, name, value, back, split, before, broken,
      writeTo_of_broken buffer split before broken⟩

/-- Of three extra fields one gives a built-in field its value and the last breaks the one before
it. The head ends in front of that one. -/
theorem writeTo_merged_broken :
    ∃ front name value back,
      [("Upgrade", "h2c"), ("Connection", "Upgrade"), ("Sec-WebSocket-Accept", "digest"),
        ("X-A", "2\n")] = front ++ (name, value) :: back ∧
      (∀ field ∈ front, Unbroken field) ∧ ¬ Unbroken (name, value) ∧
      writeTo ⟨"digest", none, [("X-A", "1"), ("upgrade", "h2c"), ("x-a", "2\n")]⟩ [0x21] =
        ([0x21] ++ (headLines front).flatMap (· ++ lineEnd),
          .error (.invalidHeaderValue name "contains CR or LF characters")) := by
  have same : merged (builtIn ⟨"digest", none, [("X-A", "1"), ("upgrade", "h2c"), ("x-a", "2\n")]⟩)
      [("X-A", "1"), ("upgrade", "h2c"), ("x-a", "2\n")] =
        [("Upgrade", "h2c"), ("Connection", "Upgrade"), ("Sec-WebSocket-Accept", "digest"),
          ("X-A", "2\n")] := by decide +kernel
  rw [← same]
  exact (writeTo_merged ⟨"digest", none, [("X-A", "1"), ("upgrade", "h2c"), ("x-a", "2\n")]⟩
    [0x21]).2.2.2 (by decide +kernel)

end Response

end WebSocket
