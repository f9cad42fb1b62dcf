import WebSocket.Error
import WebSocket.Settings
import WebSocket.Table
import WebSocket.Text.AsciiCase
import WebSocket.Text.Blank
import WebSocket.Text.Tokens

/-!
# Upgrade requests

A request head is a request line of three words and header lines up to the first empty one.
Header names are kept in lower case; of two headers of one name the later counts, but four
names may come only once. `Request.parse` reads a head, `Request.validate` says whether it asks
for an upgrade that this library serves.
-/

namespace WebSocket

structure Request where
  method : String
  /-- The request target, with its query. -/
  path : String
  /-- Values by lower-case name. -/
  headers : Table String
  deriving DecidableEq, Repr

namespace Request

/-- The only protocol revision served. -/
def supportedRevision : String := "7"

def singleHeaders : List String :=
  ["upgrade", "connection", "sec-websocket-key", "sec-websocket-version"]

/-- A request of given parts; names and values stay untrimmed. -/
def ofParts (method path : String) (headers : List (String × String)) : Request where
  method := method
  path := path
  headers := headers.foldl (fun table (name, value) => table.insert (Text.lower name) value) {}

/-- Reads one header line into the table. -/
def parseHeader (headers : Table String) (line : List Char) :
    Except HandshakeFault (Table String) :=
  match Text.splitFirst? ':' line with
  | none => .error (.malformedHeader (String.ofList line))
  | some (name, value) =>
    let name := String.ofList (Text.trim name)
    let key := Text.lower name
    if singleHeaders.contains key && headers.contains key then .error (.duplicateHeader name)
    else .ok (headers.insert key (String.ofList (Text.trim value)))

def parseText (text : List Char) : Except HandshakeFault Request :=
  match Text.lines text with
  | [] => .error .emptyRequest
  | requestLine :: rest =>
    match Text.tokens Text.isBlank requestLine with
    | [method, path, version] =>
      if String.ofList version ≠ "HTTP/1.1" then
        .error (.unexpectedVersion (String.ofList version))
      else
        ((rest.takeWhile (!·.isEmpty)).foldlM parseHeader {}).map fun headers =>
          ⟨String.ofList method, String.ofList path, headers⟩
    | _ => .error .malformedRequestLine

def parse (data : Bytes) : Except Error Request :=
  let parsed : Except HandshakeFault Request :=
    match String.fromUTF8? data.toByteArray with
    | none => .error .invalidUtf8
    | some text => parseText text.toList
  parsed.mapError .invalidHandshake

/-- Refuses a head of more than `max` bytes. -/
def parseWithin (max : Nat) (data : Bytes) : Except Error Request :=
  if data.length > max then .error (.handshakeTooLarge data.length max) else parse data

/-- A header's value; the case of ASCII letters in the name does not matter. -/
def header? (request : Request) (name : String) : Option String :=
  request.headers.get? (Text.lower name)

def key? (request : Request) : Option String := request.header? "Sec-WebSocket-Key"

def revision? (request : Request) : Option String := request.header? "Sec-WebSocket-Version"

def isListSeparator (c : Char) : Bool := c == ',' || c == ' ' || c == '\t'

/-- The tokens of a list of subprotocols, in order. -/
def parseProtocols (value : String) : List String :=
  (Text.tokens isListSeparator value.toList).map String.ofList

/-- The subprotocols that the client offers, in its order. -/
def protocols (request : Request) : List String :=
  match request.header? "Sec-WebSocket-Protocol" with
  | some value => parseProtocols value
  | none => []

/-- A header that has to be there with a value of which only the case is free. -/
def requireHeader (request : Request) (name expected : String) : Except HandshakeFault Unit :=
  match request.header? name with
  | none => .error (.missingHeader name)
  | some value =>
    if Text.equalsIgnoringCase value expected then .ok ()
    else .error (.unexpectedHeader name value)

def checkMethod (request : Request) : Except HandshakeFault Unit :=
  if request.method = "GET" then .ok () else .error (.unexpectedMethod request.method)

def checkRevision (request : Request) : Except HandshakeFault Unit :=
  match request.revision? with
  | none => .error (.missingHeader "Sec-WebSocket-Version")
  | some revision =>
    if revision = supportedRevision then .ok ()
    else .error (.unsupportedRevision revision supportedRevision)

/-- An empty key counts as none. -/
def checkKey (request : Request) : Except HandshakeFault Unit :=
  if request.key?.getD "" = "" then .error (.missingHeader "Sec-WebSocket-Key") else .ok ()

/-- The first thing, in this order, that makes a request unfit for an upgrade. -/
def checkUpgrade (request : Request) : Except HandshakeFault Unit := do
  request.checkMethod
  request.requireHeader "Upgrade" "websocket"
  request.requireHeader "Connection" "upgrade"
  request.checkRevision
  request.checkKey

def validate (request : Request) : Except Error Unit :=
  request.checkUpgrade.mapError .invalidHandshake

end Request

end WebSocket
