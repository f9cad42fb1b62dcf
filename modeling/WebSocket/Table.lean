/-!
# Tables with text keys

A table keeps one value per key, in the order in which the keys first came. `insert` replaces
the value of a key that is present.
-/

namespace WebSocket

structure Table (α : Type) where
  entries : List (String × α) := []
  deriving DecidableEq, Repr

namespace Table

variable {α : Type}

def get? (table : Table α) (key : String) : Option α :=
  (table.entries.find? (·.1 == key)).map (·.2)

def contains (table : Table α) (key : String) : Bool := (table.get? key).isSome

def size (table : Table α) : Nat := table.entries.length

def keys (table : Table α) : List String := table.entries.map (·.1)

/-- Replaces the value of the first entry that `same` accepts, or adds the new entry behind. -/
def putEntry (same : String → Bool) (key : String) (value : α) :
    List (String × α) → List (String × α)
  | [] => [(key, value)]
  | entry :: rest =>
    if same entry.1 then (entry.1, value) :: rest
    else entry :: putEntry same key value rest

def insert (table : Table α) (key : String) (value : α) : Table α :=
  ⟨putEntry (· == key) key value table.entries⟩

def erase (table : Table α) (key : String) : Table α :=
  ⟨table.entries.filter (·.1 != key)⟩

theorem find?_putEntry (key other : String) (value : α) (entries : List (String × α)) :
    ((putEntry (· == key) key value entries).find? (·.1 == other)).map (·.2) =
      if other = key then some value else (entries.find? (·.1 == other)).map (·.2) := by
  induction entries with
  | nil =>
    by_cases same : other = key
    · simp [putEntry, same]
    · simp [putEntry, same, Ne.symm same]
  | cons entry rest ih => grind [putEntry]

theorem get?_insert (table : Table α) (key other : String) (value : α) :
    (table.insert key value).get? other = if other = key then some value else table.get? other :=
  find?_putEntry key other value table.entries

theorem get?_erase (table : Table α) (key other : String) :
    (table.erase key).get? other = if other = key then none else table.get? other := by
  simp only [get?, erase, List.find?_filter]
  generalize table.entries = entries
  induction entries with
  | nil => simp
  | cons entry rest ih => grind

end Table

end WebSocket
