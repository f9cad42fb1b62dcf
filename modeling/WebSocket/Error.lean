import WebSocket.Bytes

/-!
# What can go wrong

Every failure of the library is a value of `Error`, with the causes of malformed input spelled
out as data. `Error.message` gives each its wording. `Error.closeStatus` says which status code
tells the peer about a failure: the size limits have a code of their own, every other breach of
the framing protocol shares one, and a failure that is not the peer's has none.
-/

namespace WebSocket

/-- Breaches of the framing protocol that have no error of their own. -/
inductive Violation where
  /-- A continuation frame came while no message was in progress. -/
  | strayContinuation
  /-- A new message began before the previous one was complete. -/
  | interruptedMessage
  /-- A length of 64 bits had its top bit set, so it reads as this negative number. -/
  | negativeLength (value : Int)
  /-- A close payload held a single byte, half of a status code. -/
  | truncatedCloseStatus
  | other (detail : String)
  deriving DecidableEq, Repr

/-- What makes a request head unacceptable. -/
inductive HandshakeFault where
  | invalidUtf8
  | emptyRequest
  | malformedRequestLine
  | unexpectedVersion (version : String)
  | malformedHeader (line : String)
  | duplicateHeader (name : String)
  | unexpectedMethod (method : String)
  | missingHeader (name : String)
  | unexpectedHeader (name value : String)
  | unsupportedRevision (revision supported : String)
  /-- The stream ended before the head did. -/
  | endedEarly
  | other (detail : String)
  deriving DecidableEq, Repr

inductive Error where
  | protocolViolation (violation : Violation)
  | frameTooLarge (size max : Nat)
  | messageTooLarge (size max : Nat)
  | connectionClosed
  | invalidHandshake (fault : HandshakeFault)
  | handshakeTooLarge (size max : Nat)
  | handshakeTimeout
  | noHandler (target : String)
  | invalidHeaderValue (header reason : String)
  | io (detail : String)
  | invalidCloseCode (code : Nat)
  | reservedOpcode (code : Nat)
  | fragmentedControlFrame
  | controlFrameTooLarge (size : Nat)
  | unmaskedClientFrame
  | reservedBitsSet
  | invalidOpcode (code : Nat)
  deriving DecidableEq, Repr

def Violation.detail : Violation → String
  | strayContinuation => "Continuation frame without a message in progress"
  | interruptedMessage => "New message started before the previous one finished"
  | negativeLength value => "Negative payload length: " ++ toString value
  | truncatedCloseStatus => "Close payload too short for a status code"
  | other detail => detail

def HandshakeFault.detail : HandshakeFault → String
  | invalidUtf8 => "Invalid UTF-8"
  | emptyRequest => "Empty request"
  | malformedRequestLine => "Invalid request line"
  | unexpectedVersion version => "Expected HTTP/1.1, got " ++ version
  | malformedHeader line => "Malformed header line: " ++ line
  | duplicateHeader name => "Duplicate header: " ++ name
  | unexpectedMethod method => "Expected GET method, got " ++ method
  | missingHeader name => "Missing " ++ name ++ " header"
  | unexpectedHeader name value => "Invalid " ++ name ++ " header: " ++ value
  | unsupportedRevision revision supported =>
    "Unsupported version: " ++ revision ++ " (expected " ++ supported ++ ")"
  | endedEarly => "Connection closed during handshake"
  | other detail => detail

namespace Error

/-- The largest payload a control frame may carry. -/
def maxControlPayload : Nat := 125

private def excess (what : String) (size max : Nat) : String :=
  what ++ " too large: " ++ toString size ++ " bytes (max: " ++ toString max ++ ")"

private def hex (code : Nat) : String :=
  "0x" ++ String.ofList (Nat.toDigits 16 code)

def message : Error → String
  | protocolViolation violation => "Protocol violation: " ++ violation.detail
  | frameTooLarge size max => excess "Frame" size max
  | messageTooLarge size max => excess "Message" size max
  | connectionClosed => "Connection closed"
  | invalidHandshake fault => "Invalid handshake: " ++ fault.detail
  | handshakeTooLarge size max => excess "Handshake" size max
  | handshakeTimeout => "Handshake timed out"
  | noHandler target => "No handler for path: " ++ target
  | invalidHeaderValue header reason => "Invalid value for header " ++ header ++ ": " ++ reason
  | io detail => "I/O error: " ++ detail
  | invalidCloseCode code => "Invalid close code: " ++ toString code
  | reservedOpcode code => "Reserved opcode: " ++ hex code
  | fragmentedControlFrame => "Control frames cannot be fragmented"
  | controlFrameTooLarge size =>
    "Control frame payload too large: " ++ toString size ++ " bytes (max: " ++
      toString maxControlPayload ++ ")"
  | unmaskedClientFrame => "Client frame must be masked"
  | reservedBitsSet => "Reserved bits set without negotiated extension"
  | invalidOpcode code => "Invalid opcode: " ++ hex code

/-- Whether the failure is a breach of the framing protocol. -/
def isProtocol : Error → Bool
  | protocolViolation _ | frameTooLarge .. | messageTooLarge .. | invalidCloseCode _
  | reservedOpcode _ | fragmentedControlFrame | controlFrameTooLarge _ | unmaskedClientFrame
  | reservedBitsSet | invalidOpcode _ => true
  | connectionClosed | invalidHandshake _ | handshakeTooLarge .. | handshakeTimeout
  | noHandler _ | invalidHeaderValue .. | io _ => false

end Error

end WebSocket
