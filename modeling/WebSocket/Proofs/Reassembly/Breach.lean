import WebSocket.Close
import WebSocket.Frame.Reassembler

/-!
# Breaches of the protocol

The machine rejects a frame only for a breach of the protocol, whatever state it is in
(`isProtocol_of_feedFrom`), and for every breach there is a close frame that tells the peer of it
(`Error.closeStatus_of_isProtocol`).
-/

namespace WebSocket

/-- The status that tells of a breach: the limits of size have one of their own. -/
def Error.status : Error → Nat
  | frameTooLarge .. | messageTooLarge .. => 1009
  | _ => 1002

theorem Error.closeStatus_of_isProtocol {error : Error} (breach : error.isProtocol = true) :
    ∃ code, error.closeStatus = some code ∧
      CloseFrame.encode ⟨code, ""⟩ = .ok (BigEndian.encode 2 error.status) := by
  cases error with
  | frameTooLarge | messageTooLarge => exact ⟨.messageTooBig, rfl, rfl⟩
  | connectionClosed | invalidHandshake | handshakeTooLarge | handshakeTimeout | noHandler
  | invalidHeaderValue | io => cases breach
  | _ => exact ⟨.protocolError, rfl, rfl⟩

namespace Reassembler

variable {limits : Limits} {machine next : Reassembler} {bytes : Bytes} {error : Error}

theorem isProtocol_of_beginFrame {fin : Bool} {opcode : Opcode}
    (h : machine.beginFrame fin opcode = .error error) : error.isProtocol = true := by
  simp only [beginFrame] at h
  split at h
  · split at h
    · cases h
    · cases h
      rfl
  · split at h
    · split at h
      · cases h
      · cases h
        rfl
    · split at h
      · cases h
        rfl
      · cases h

theorem isProtocol_of_ofCode {n : Nat} (h : Opcode.ofCode n = .error error) :
    error.isProtocol = true := by
  unfold Opcode.ofCode at h
  split at h
  case h_7 =>
    cases h
    split <;> rfl
  all_goals cases h

theorem isProtocol_of_openFrame {byte : UInt8} (h : machine.openFrame byte = .error error) :
    error.isProtocol = true := by
  unfold openFrame at h
  split at h
  · cases h
    rfl
  · split at h
    · next unknown =>
      cases h
      exact isProtocol_of_ofCode unknown
    · exact isProtocol_of_beginFrame h

theorem isProtocol_of_checkPayload {size : Nat} (h : limits.checkPayload size = .error error) :
    error.isProtocol = true := by
  unfold Limits.checkPayload at h
  split at h
  · cases h
    rfl
  · cases h

theorem isProtocol_of_checkMessage {size : Nat} (h : limits.checkMessage size = .error error) :
    error.isProtocol = true := by
  unfold Limits.checkMessage at h
  split at h
  · cases h
    rfl
  · cases h

theorem isProtocol_of_checkLength (h : machine.checkLength limits = .error error) :
    error.isProtocol = true := by
  simp only [checkLength] at h
  split at h
  · cases h
    rfl
  · split at h
    · next large =>
      cases h
      exact isProtocol_of_checkPayload large
    · split at h
      · exact isProtocol_of_checkMessage h
      · split at h
        · cases h
          rfl
        · exact isProtocol_of_checkMessage h

theorem isProtocol_of_readWhile {wants : Reassembler → Bool}
    {take : Reassembler → UInt8 → Reassembler} {goOn : Reassembler → Bytes → Progress}
    (ends : ∀ machine bytes, goOn machine bytes = .reject next error → error.isProtocol = true)
    (h : machine.readWhile wants take goOn bytes = .reject next error) :
    error.isProtocol = true := by
  fun_induction readWhile wants take goOn machine bytes with
  | case1 => cases h
  | case2 => exact ends _ _ h
  | case3 _ _ _ _ ih => exact ih h
  | case4 => exact ends _ _ h

/-- A frame is rejected only for a breach of the protocol. -/
theorem isProtocol_of_proceed (h : machine.proceed limits bytes = .reject next error) :
    error.isProtocol = true := by
  unfold proceed at h
  split at h
  · unfold readStart at h
    split at h
    · cases h
    · split at h
      · next opens =>
        cases h
        exact isProtocol_of_openFrame opens
      · cases h
  · unfold readLength at h
    split at h
    · cases h
    · split at h
      · cases h
        rfl
      · cases h
  · refine isProtocol_of_readWhile (fun machine bytes h => ?_) h
    unfold endLength at h
    split at h
    · next checked =>
      cases h
      exact isProtocol_of_checkLength checked
    · cases h
  · refine isProtocol_of_readWhile (fun machine bytes h => ?_) h
    cases h
  · cases h
  · simp only [readPayload] at h
    split at h <;> cases h
  · cases h

theorem isProtocol_of_feedFrom {events : Array Event}
    (h : (machine.feedFrom limits bytes events).violation = some error) :
    error.isProtocol = true := by
  fun_induction feedFrom limits machine bytes events with
  | case1 => cases h
  | case2 _ _ _ _ _ _ _ ih => exact ih h
  | case3 _ _ _ _ _ rejected =>
    cases h
    exact isProtocol_of_proceed rejected

end Reassembler

end WebSocket
