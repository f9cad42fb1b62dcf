import WebSocket.Table
import WebSocket.Text.Quoted

/-!
# Routing

A router keeps handlers by path. A handler is destroyed each time one of its registrations ends:
when it is replaced, unregistered, or still there as the router is dropped. Each operation gives
the handlers that it destroys.
-/

namespace WebSocket

structure Router (α : Type) where
  routes : Table α := {}
  deriving Repr

namespace Router

variable {α : Type}

/-- The path of a request target: all of it up to the first question mark. -/
def pathOf (target : String) : String :=
  String.ofList (target.toList.takeWhile (· != '?'))

def register (router : Router α) (path : String) (handler : α) : List α × Router α :=
  ((router.routes.get? path).toList, ⟨router.routes.insert path handler⟩)

/-- Destroys nothing if the path is not registered. -/
def unregister (router : Router α) (path : String) : List α × Router α :=
  ((router.routes.get? path).toList, ⟨router.routes.erase path⟩)

/-- What `unregister` reports: whether there was a handler to destroy. -/
def removes (router : Router α) (path : String) : Bool := !(router.unregister path).1.isEmpty

/-- The handler for a request target; a query does not matter. -/
def get? (router : Router α) (target : String) : Option α :=
  router.routes.get? (pathOf target)

def size (router : Router α) : Nat := router.routes.size

/-- The handlers that dropping the router destroys. -/
def drop (router : Router α) : List α := router.routes.entries.map (·.2)

/-- Lists the paths in order. -/
def describe (router : Router α) : String :=
  let paths := (router.routes.keys.mergeSort (· ≤ ·)).map Text.quote
  "Router \x7b paths: [" ++ ", ".intercalate paths ++ "] \x7d"

end Router

end WebSocket
