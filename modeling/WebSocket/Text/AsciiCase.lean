/-!
# Text without regard to ASCII case

Header names are ASCII, so only the letters A to Z are folded; every other character stands for
itself.
-/

namespace WebSocket.Text

def lower (text : String) : String :=
  String.ofList (text.toList.map Char.toLower)

def equalsIgnoringCase (a b : String) : Bool :=
  lower a == lower b

end WebSocket.Text
