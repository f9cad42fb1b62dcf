/-!
# Message kinds

The five kinds of message that travel between a handler and its peer. Text and binary messages
carry data; pings, pongs and closes control the connection and are limited in size.
-/

namespace WebSocket

inductive MessageKind where
  | text | binary | ping | pong | close
  deriving DecidableEq, Repr

namespace MessageKind

def name : MessageKind → String
  | text => "text"
  | binary => "binary"
  | ping => "ping"
  | pong => "pong"
  | close => "close"

def isControl : MessageKind → Bool
  | text | binary => false
  | ping | pong | close => true

/-- The kind with this name. -/
def ofName? (name : String) : Option MessageKind :=
  [text, binary, ping, pong, close].find? (·.name == name)

end MessageKind

end WebSocket
