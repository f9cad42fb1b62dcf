import WebSocket.Error
import WebSocket.Text.Utf8

/-!
# Close frames

A close payload is empty or starts with a status code of two bytes, followed by a reason in
UTF-8. Which codes may be sent and which are accepted are two rules of their own: four codes
never stand in a frame that this side sends, and an inbound code has to be a known one, lie in
the range left to applications, or be a reserved one that the settings allow.
-/

namespace WebSocket

inductive CloseCode where
  | normal | goingAway | protocolError | unsupportedData | policyViolation | messageTooBig
  | internalError
  | other (number : UInt16)
  deriving DecidableEq, Repr

namespace CloseCode

def toNumber : CloseCode → UInt16
  | normal => 1000
  | goingAway => 1001
  | protocolError => 1002
  | unsupportedData => 1003
  | policyViolation => 1008
  | messageTooBig => 1009
  | internalError => 1011
  | other number => number

/-- The named code of a number, or the number itself. -/
def ofNumber (number : UInt16) : CloseCode :=
  match [normal, goingAway, protocolError, unsupportedData, policyViolation, messageTooBig,
      internalError].find? (·.toNumber == number) with
  | some code => code
  | none => other number

def toNat (code : CloseCode) : Nat := code.toNumber.toNat

/-- Codes that stand for something other than a received code and are never sent. -/
def isReserved (code : CloseCode) : Bool :=
  [1004, 1005, 1006, 1015].contains code.toNat

/-- Whether a code received from the peer is accepted. The codes left undefined below 3000 are
accepted only if `allowReserved` is set, and three reserved ones never. -/
def isValidInbound (code : CloseCode) (allowReserved : Bool) : Bool :=
  let n := code.toNat
  if n = 1005 ∨ n = 1006 ∨ n = 1015 then false
  else if 1000 ≤ n ∧ n ≤ 1003 ∨ 1007 ≤ n ∧ n ≤ 1011 ∨ 3000 ≤ n ∧ n ≤ 4999 then true
  else if n = 1004 ∨ 1012 ≤ n ∧ n ≤ 2999 then allowReserved
  else false

end CloseCode

structure CloseFrame where
  code : CloseCode
  reason : String
  deriving DecidableEq, Repr

namespace CloseFrame

/-- The longest reason that fits a control frame beside the two bytes of the code. -/
def maxReason : Nat := Error.maxControlPayload - 2

/-- A payload shorter than a status code holds no close frame. Bytes of the reason that are not
UTF-8 are replaced. -/
def parse? : Bytes → Option CloseFrame
  | high :: low :: reason =>
    some ⟨CloseCode.ofNumber (UInt16.ofNat (BigEndian.decode [high, low])),
      Text.Utf8.decodeLossy reason⟩
  | _ => none

def encode (frame : CloseFrame) : Except Error Bytes :=
  let reason := Bytes.ofString frame.reason
  if frame.code.isReserved then .error (.invalidCloseCode frame.code.toNat)
  else if reason.length > maxReason then .error (.controlFrameTooLarge (reason.length + 2))
  else .ok (BigEndian.encode 2 frame.code.toNat ++ reason)

end CloseFrame

namespace Error

/-- The status code that tells the peer about a failure, if it is the peer's. -/
def closeStatus (error : Error) : Option CloseCode :=
  match error with
  | frameTooLarge .. | messageTooLarge .. => some .messageTooBig
  | _ => if error.isProtocol then some .protocolError else none

end Error

end WebSocket
