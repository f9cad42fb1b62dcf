import WebSocket.Handshake.Response

/-!
# The fields of a response

A handler's field takes the place of a built-in one of the same name, and of an earlier one of its
own, whatever the case of the name. So each name has one field at most in the head, and its value
is the one that was set last, or else the built-in one (`Response.valuesOf_fields`).
-/

namespace WebSocket

theorem Text.equalsIgnoringCase_iff {a b : String} :
    equalsIgnoringCase a b = true ↔ lower a = lower b := beq_iff_eq

/-- The values of the fields with this name, whatever its case. -/
def valuesOf (name : String) (fields : List (String × String)) : List String :=
  (fields.filter fun field => Text.equalsIgnoringCase name field.1).map (·.2)

section Values

variable {name other value : String} {entry : String × String}
  {fields : List (String × String)}

theorem valuesOf_cons :
    valuesOf name (entry :: fields) =
      if Text.equalsIgnoringCase name entry.1 then entry.2 :: valuesOf name fields
      else valuesOf name fields := by
  unfold valuesOf
  rw [List.filter_cons]
  split <;> rfl

/-- Where a name has one field at most, a field that is put there is the only one of its name. -/
theorem valuesOf_putEntry (few : (valuesOf other fields).length ≤ 1) :
    valuesOf other (Table.putEntry (Text.equalsIgnoringCase name) name value fields) =
      if Text.equalsIgnoringCase other name then [value] else valuesOf other fields := by
  induction fields with
  | nil => rw [Table.putEntry, valuesOf_cons]; rfl
  | cons entry fields ih =>
    rw [valuesOf_cons] at few ⊢
    rw [Table.putEntry]
    by_cases here : Text.equalsIgnoringCase name entry.1 = true
    · have same : Text.equalsIgnoringCase other entry.1 = Text.equalsIgnoringCase other name := by
        simp only [Text.equalsIgnoringCase, Text.equalsIgnoringCase_iff.mp here]
      rw [if_pos here, valuesOf_cons]
      dsimp only
      rw [same] at few ⊢
      split
      · next named =>
        rw [if_pos named, List.length_cons] at few
        have others : valuesOf other fields = [] := List.eq_nil_of_length_eq_zero (by omega)
        rw [others]
      · rfl
    · rw [if_neg here, valuesOf_cons]
      split
      · next named =>
        -- This entry is the only one of its name, so that what is put behind it has another.
        rw [if_pos named, List.length_cons] at few
        have elsewhere : ¬ Text.equalsIgnoringCase other name = true := fun same =>
          have lowered := (Text.equalsIgnoringCase_iff.mp same).symm.trans
            (Text.equalsIgnoringCase_iff.mp named)
          here (Text.equalsIgnoringCase_iff.mpr lowered)
        rw [ih (by omega), if_neg elsewhere, if_neg elsewhere]
      · next unnamed =>
        rw [if_neg unnamed] at few
        exact ih few

theorem valuesOf_append (fields others : List (String × String)) :
    valuesOf name (fields ++ others) = valuesOf name fields ++ valuesOf name others := by
  simp only [valuesOf, List.filter_append, List.map_append]

/-- The last of several values counts, and one before them only if there are none. -/
theorem getLast?_cons_or {α : Type} (first : α) (others : List α) (before : Option α) :
    (first :: others).getLast?.or before = others.getLast?.or (some first) := by
  rw [List.getLast?_cons]
  cases others.getLast? <;> rfl

end Values

namespace Response

variable {response : Response} {name : String}

/-- A name that stands at most once among the built-in fields stands at most once in the head,
with the last value that was set for it, or else the built-in one. -/
theorem valuesOf_fields (few : (valuesOf name response.builtIn).length ≤ 1) :
    valuesOf name response.fields =
      ((valuesOf name response.extra).getLast?.or
        (valuesOf name response.builtIn).head?).toList := by
  unfold fields
  generalize response.builtIn = fields at few ⊢
  induction response.extra generalizing fields with
  | nil =>
    rw [List.foldl_nil]
    cases given : valuesOf name fields with
    | nil => rfl
    | cons value values =>
      rw [given, List.length_cons] at few
      have alone : values = [] := List.eq_nil_of_length_eq_zero (by omega)
      rw [alone]
      rfl
  | cons entry extra ih =>
    have put : valuesOf name (Table.putEntry (Text.equalsIgnoringCase entry.1) entry.1 entry.2
        fields) = _ := valuesOf_putEntry few
    have one : (valuesOf name (Table.putEntry (Text.equalsIgnoringCase entry.1) entry.1 entry.2
        fields)).length ≤ 1 := by
      rw [put]
      split
      · exact Nat.le_refl _
      · exact few
    rw [List.foldl_cons, ih _ one, put, valuesOf_cons]
    split
    · rw [getLast?_cons_or]
      rfl
    · rfl

/-- The name of the field that announces a subprotocol. -/
def protocolHeader : String := "Sec-WebSocket-Protocol"

theorem valuesOf_builtIn (response : Response) :
    valuesOf protocolHeader response.builtIn = response.protocol.toList := by
  have names : Text.equalsIgnoringCase protocolHeader "Upgrade" = false ∧
      Text.equalsIgnoringCase protocolHeader "Connection" = false ∧
      Text.equalsIgnoringCase protocolHeader "Sec-WebSocket-Accept" = false ∧
      Text.equalsIgnoringCase protocolHeader "Sec-WebSocket-Protocol" = true := by decide +kernel
  obtain ⟨upgrade, connection, accept, protocol⟩ := names
  have front (fields : List (String × String)) :
      valuesOf protocolHeader
          ([("Upgrade", "websocket"), ("Connection", "Upgrade"),
            ("Sec-WebSocket-Accept", response.accept)] ++ fields) =
        valuesOf protocolHeader fields := by
    simp [valuesOf_cons, upgrade, connection, accept]
  rw [builtIn, front]
  cases response.protocol with
  | none => rfl
  | some name => exact valuesOf_cons.trans (if_pos protocol)

/-- The subprotocol that the head announces is the last value that was set for its field, or else
the one that was chosen. -/
theorem valuesOf_protocolHeader (response : Response) :
    valuesOf protocolHeader response.fields =
      ((valuesOf protocolHeader response.extra).getLast?.or response.protocol).toList := by
  have builtIn := response.valuesOf_builtIn
  have few : (valuesOf protocolHeader response.builtIn).length ≤ 1 := by
    rw [builtIn]
    cases response.protocol <;> simp
  rw [valuesOf_fields few, builtIn, Option.head?_toList]

end Response

end WebSocket
