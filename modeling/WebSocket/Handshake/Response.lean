import WebSocket.Digest.Base64
import WebSocket.Digest.Sha1
import WebSocket.Error
import WebSocket.Table
import WebSocket.Text.AsciiCase

/-!
# The switching response

The head that answers an accepted upgrade. Its fields are the built-in ones and those that a
handler adds; a handler's field of a name that is already there, in any case, gives that field
its value. A field whose name or value holds a line end would forge another line, so writing
stops in front of it.
-/

namespace WebSocket

/-- The value that proves the upgrade request was understood: a digest of the client's key and a
fixed identifier. -/
def acceptKey (key : String) : String :=
  let identifier := "258EAFA5-E914-47DA-95CA-C5AB0DC85B11"
  Digest.Base64.encode (Digest.Sha1.digest (Bytes.ofString (key ++ identifier)))

/-- Whether text holds a carriage return or a line feed. -/
def breaksLine (text : String) : Bool :=
  text.toList.any fun c => c == '\r' || c == '\n'

/-- A name and a value as they may stand in a header line. -/
def checkField (name value : String) : Except Error Unit :=
  if breaksLine name || breaksLine value then
    .error (.invalidHeaderValue name "contains CR or LF characters")
  else .ok ()

structure Response where
  accept : String
  protocol : Option String
  /-- Further fields, in the order in which they were set. -/
  extra : List (String × String)
  deriving DecidableEq, Repr

namespace Response

def statusLine : String := "HTTP/1.1 101 Switching Protocols\r\n"

def builtIn (response : Response) : List (String × String) :=
  [("Upgrade", "websocket"), ("Connection", "Upgrade"),
    ("Sec-WebSocket-Accept", response.accept)] ++
    match response.protocol with
    | some name => [("Sec-WebSocket-Protocol", name)]
    | none => []

/-- The fields of the head. Each keeps the place and the spelling in which it first came. -/
def fields (response : Response) : List (String × String) :=
  response.extra.foldl
    (fun fields (name, value) => Table.putEntry (Text.equalsIgnoringCase name) name value fields)
    response.builtIn

def fieldLine (name value : String) : String := name ++ ": " ++ value ++ "\r\n"

/-- The header lines up to the first field that cannot stand in one. -/
def writeFields : List (String × String) → Bytes × Except Error Unit
  | [] => (Bytes.ofString "\r\n", .ok ())
  | (name, value) :: rest =>
    match checkField name value with
    | .error error => ([], .error error)
    | .ok () =>
      let (written, result) := writeFields rest
      (Bytes.ofString (fieldLine name value) ++ written, result)

/-- What is written of the head, and whether that is all of it. -/
def write (response : Response) : Bytes × Except Error Unit :=
  let (written, result) := writeFields response.fields
  (Bytes.ofString statusLine ++ written, result)

/-- Writes the head behind what a buffer holds. -/
def writeTo (response : Response) (buffer : Bytes) : Bytes × Except Error Unit :=
  let (written, result) := response.write
  (buffer ++ written, result)

end Response

end WebSocket
