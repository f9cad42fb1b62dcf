import WebSocket.Text.Invisible

/-!
# Quoted text

Text between double quotes, as it is shown in descriptions of a router or a session. A quote, a
backslash and the common control characters are written with a backslash; any other character
that shows no mark of its own is written as its number in hexadecimal.
-/

namespace WebSocket.Text

/-- The written form of one character between the quotes. -/
def escape (c : Char) : List Char :=
  match c with
  | '\x00' => ['\\', '0']
  | '\t' => ['\\', 't']
  | '\n' => ['\\', 'n']
  | '\r' => ['\\', 'r']
  | '"' => ['\\', '"']
  | '\\' => ['\\', '\\']
  | _ =>
    if isInvisible c then ['\\', 'u', '\x7b'] ++ Nat.toDigits 16 c.toNat ++ ['\x7d'] else [c]

def quote (text : String) : String :=
  String.ofList ('"' :: text.toList.flatMap escape ++ ['"'])

end WebSocket.Text
