import WebSocket.Handshake.Request

/-!
# Upgrade requests

A request is fit for an upgrade exactly if each of five conditions on its parts holds, whatever
else it says (`Request.validate_eq_ok_iff`).
-/

namespace WebSocket.Request

variable {request : Request}

/-- What a request has to say to be upgraded. -/
structure IsUpgrade (request : Request) : Prop where
  method : request.method = "GET"
  upgrade : ∃ value, request.header? "Upgrade" = some value ∧
    Text.equalsIgnoringCase value "websocket" = true
  connection : ∃ value, request.header? "Connection" = some value ∧
    Text.equalsIgnoringCase value "upgrade" = true
  revision : request.header? "Sec-WebSocket-Version" = some "7"
  key : ∃ value, request.header? "Sec-WebSocket-Key" = some value ∧ value ≠ ""

theorem ite_eq_ok_iff {p : Prop} [Decidable p] {fault : HandshakeFault} :
    (if p then Except.ok () else Except.error fault) = .ok () ↔ p := by
  split <;> simp [*]

theorem requireHeader_eq_ok_iff (request : Request) (name expected : String) :
    request.requireHeader name expected = .ok () ↔
      ∃ value, request.header? name = some value ∧
        Text.equalsIgnoringCase value expected = true := by
  unfold requireHeader
  cases request.header? name with
  | none => simp
  | some value => simp

theorem checkMethod_eq_ok_iff : request.checkMethod = .ok () ↔ request.method = "GET" := by
  rw [checkMethod, ite_eq_ok_iff]

theorem checkRevision_eq_ok_iff :
    request.checkRevision = .ok () ↔ request.header? "Sec-WebSocket-Version" = some "7" := by
  unfold checkRevision revision?
  cases request.header? "Sec-WebSocket-Version" with
  | none => simp
  | some revision => exact ite_eq_ok_iff.trans (by simp [supportedRevision])

theorem checkKey_eq_ok_iff :
    request.checkKey = .ok () ↔
      ∃ value, request.header? "Sec-WebSocket-Key" = some value ∧ value ≠ "" := by
  unfold checkKey key?
  cases request.header? "Sec-WebSocket-Key" with
  | none => simp
  | some key => simp

theorem checkUpgrade_eq_ok_iff : request.checkUpgrade = .ok () ↔ request.IsUpgrade := by
  have joined {first second : Except HandshakeFault Unit} :
      (first >>= fun _ => second) = .ok () ↔ first = .ok () ∧ second = .ok () := by
    cases first <;> simp [bind, Except.bind]
  rw [checkUpgrade, joined, joined, joined, joined, checkMethod_eq_ok_iff,
    requireHeader_eq_ok_iff, requireHeader_eq_ok_iff, checkRevision_eq_ok_iff, checkKey_eq_ok_iff]
  constructor
  · rintro ⟨method, upgrade, connection, revision, key⟩
    exact ⟨method, upgrade, connection, revision, key⟩
  · rintro ⟨method, upgrade, connection, revision, key⟩
    exact ⟨method, upgrade, connection, revision, key⟩

theorem ok_of_mapError {α : Type} {checked : Except HandshakeFault α} {value : α}
    (h : checked.mapError Error.invalidHandshake = .ok value) : checked = .ok value := by
  cases checked with
  | ok found =>
    cases h
    rfl
  | error fault => cases h

theorem validate_eq_ok_iff : request.validate = .ok () ↔ request.IsUpgrade := by
  rw [← checkUpgrade_eq_ok_iff]
  constructor
  · exact ok_of_mapError
  · intro fit
    rw [validate, fit]
    rfl

/-! ## Faults -/

theorem error_of_mapError {α : Type} {checked : Except HandshakeFault α} {error : Error}
    (h : checked.mapError .invalidHandshake = .error error) :
    ∃ fault, error = .invalidHandshake fault := by
  cases checked with
  | ok value => cases h
  | error fault => exact ⟨fault, (Except.error.inj h).symm⟩

theorem error_of_parse {data : Bytes} {error : Error} (h : parse data = .error error) :
    ∃ fault, error = .invalidHandshake fault :=
  error_of_mapError h

theorem error_of_validate {error : Error} (h : request.validate = .error error) :
    ∃ fault, error = .invalidHandshake fault :=
  error_of_mapError h

end WebSocket.Request
