import WebSocket.Frame.Header

/-!
# Reading frames that a server sends

A reader for unmasked frames, as a client needs it. It accepts longer spellings of a length than
`Frame.header` writes.
-/

namespace WebSocket.Frame

/-- A frame as it stands on the wire. -/
structure Unmasked where
  fin : Bool
  opcode : Nat
  payload : Bytes
  deriving DecidableEq, Repr

/-- Exactly `size` bytes from the front, if there are as many, and what follows them. -/
def splitExact? (size : Nat) (bytes : Bytes) : Option (Bytes × Bytes) :=
  let taken := bytes.take size
  if taken.length = size then some (taken, bytes.drop size) else none

/-- How many bytes of length follow a length byte that only announces them. -/
def lengthWidth (byte : UInt8) : Nat := if byte = 126 then 2 else 8

/-- The payload length behind a frame's first byte, and what follows it. A masked frame has none
that this reader accepts. -/
def readLength? : Bytes → Option (Nat × Bytes)
  | [] => none
  | byte :: rest =>
    if byte < 126 then some (byte.toNat, rest)
    else if byte > 127 then none
    else
      match splitExact? (lengthWidth byte) rest with
      | none => none
      | some (digits, rest) => some (BigEndian.decode digits, rest)

/-- The frame at the front, if all of it is there, and what follows it. -/
def read? : Bytes → Option (Unmasked × Bytes)
  | [] => none
  | first :: rest =>
    match readLength? rest with
    | none => none
    | some (length, rest) =>
      match splitExact? length rest with
      | none => none
      | some (payload, rest) =>
        some (⟨first &&& 0x80 ≠ 0, (first &&& 0x0F).toNat, payload⟩, rest)

/-- An exact read of what was put in front takes it and leaves the rest. -/
theorem splitExact?_append (taken rest : Bytes) :
    splitExact? taken.length (taken ++ rest) = some (taken, rest) := by
  simp [splitExact?]

theorem length_splitExact?_le {size : Nat} {bytes taken rest : Bytes}
    (h : splitExact? size bytes = some (taken, rest)) : rest.length ≤ bytes.length := by
  simp only [splitExact?, Option.ite_none_right_eq_some, Option.some.injEq, Prod.mk.injEq] at h
  rw [← h.2.2, List.length_drop]
  omega

theorem length_readLength?_lt {bytes rest : Bytes} {length : Nat}
    (h : readLength? bytes = some (length, rest)) : rest.length < bytes.length := by
  cases bytes with
  | nil => simp [readLength?] at h
  | cons byte tail =>
    simp only [readLength?] at h
    split at h
    · obtain ⟨_, rfl⟩ := by simpa using h
      simp
    · split at h
      · simp at h
      · split at h
        · simp at h
        · next found =>
          obtain ⟨_, rfl⟩ := by simpa using h
          exact Nat.lt_succ_of_le (length_splitExact?_le found)

theorem length_read?_lt {bytes rest : Bytes} {frame : Unmasked}
    (h : read? bytes = some (frame, rest)) : rest.length < bytes.length := by
  cases bytes with
  | nil => simp [read?] at h
  | cons first tail =>
    simp only [read?] at h
    split at h
    · simp at h
    · next behind =>
      split at h
      · simp at h
      · next found =>
        obtain ⟨_, rfl⟩ := by simpa using h
        exact Nat.lt_succ_of_le
          (Nat.le_trans (length_splitExact?_le found) (Nat.le_of_lt (length_readLength?_lt behind)))

/-- The payloads of the final text frames at the front, and what follows them. -/
def readTexts (bytes : Bytes) : List Bytes × Bytes :=
  go bytes []
where
  go (bytes : Bytes) (done : List Bytes) : List Bytes × Bytes :=
    match _h : read? bytes with
    | none => (done.reverse, bytes)
    | some (frame, rest) =>
      if frame.fin ∧ frame.opcode = Opcode.text.code then go rest (frame.payload :: done)
      else (done.reverse, bytes)
  termination_by bytes.length
  decreasing_by exact length_read?_lt _h

end WebSocket.Frame
