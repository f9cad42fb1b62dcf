import WebSocket.Handler
import WebSocket.Text.Utf8

/-!
# The inspector

Shows a client what the server knows of its connection. Two request headers steer the upgrade:
one makes the handler refuse, one picks a subprotocol by its index. Text messages are commands;
what is no command, and every binary message, gets no answer.
-/

namespace WebSocket.Handler

namespace Inspector

def refuseHeader : String := "X-Refuse-Connection"
def chooseHeader : String := "X-Choose-Subprotocol"
def markHeader : String := "X-Debug-Header"

/-- Reads a number of decimal digits, with a plus sign in front of them or not. -/
def parseIndex? (text : String) : Option Nat :=
  let digits :=
    match text.toList with
    | '+' :: rest => rest
    | rest => rest
  if !digits.isEmpty && digits.all Char.isDigit then
    some (digits.foldl (fun n c => n * 10 + (c.toNat - '0'.toNat)) 0)
  else none

/-- The offered subprotocol that the request picks. -/
def picked? (request : Request) : Option String := do
  let text ← request.header? chooseHeader
  let index ← parseIndex? text
  request.protocols[index]?

def greet (request : Request) : Greeting :=
  if (request.header? refuseHeader).isSome then { accepts := false }
  else
    let choice :=
      match picked? request with
      | some name => [Call.setProtocol name]
      | none => []
    { calls := choice ++ [.setHeader markHeader "true"] }

def headerCommand : Bytes := Bytes.ofString "header: "

/-- The answer to a command, if it is one. -/
def answer? (request : Request) (command : Bytes) : Option Call :=
  let say (text : String) : Option Call := some (.send .text (Bytes.ofString text))
  if command = Bytes.ofString "close" then some .close
  else if headerCommand.isPrefixOf command then
    let name := Text.Utf8.decodeLossy (command.drop headerCommand.length)
    say ((request.header? name).getD "<null>")
  else if command = Bytes.ofString "version" then say (toString Server.apiVersion)
  else if command = Bytes.ofString "proto-count" then say (toString request.protocols.length)
  else none

end Inspector

def inspector : Handler where
  greet := Inspector.greet
  reply request _ message :=
    match message with
    | (.text, command) => (Inspector.answer? request command).toList
    | _ => []

end WebSocket.Handler
