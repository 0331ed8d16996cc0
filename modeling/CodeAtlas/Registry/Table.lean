import CodeAtlas.Registry.Store

/-!
# Tables and shelves

A table looks things up by keys.  It has no order to go by, so whatever has to
come in order is kept on a shelf: a table, and beside it the list of its keys in
the order they came in.  The two are edited one after the other, and nothing but
the care of whoever edits them keeps them in step.
-/

namespace CodeAtlas

/-- Things under keys. -/
structure Table (α : Type) where
  entries : List (String × α) := []

namespace Table

variable {α : Type}

/-- The thing under a key. -/
def get? (table : Table α) (key : String) : Option α :=
  table.entries.lookup key

def contains (table : Table α) (key : String) : Bool :=
  (table.get? key).isSome

/-- All things. -/
def values (table : Table α) : List α :=
  table.entries.map Prod.snd

/-- Changes the thing under a key. -/
def modify (table : Table α) (key : String) (change : α → α) : Table α :=
  ⟨table.entries.map fun entry => if entry.1 == key then (key, change entry.2) else entry⟩

/-- Puts a thing under a key, in the place of what was there. -/
def insert (table : Table α) (key : String) (item : α) : Table α :=
  if table.contains key then table.modify key fun _ => item
  else ⟨table.entries ++ [(key, item)]⟩

/-- Takes out what is under a key. -/
def remove (table : Table α) (key : String) : Table α :=
  ⟨table.entries.filter fun entry => entry.1 != key⟩

/-- Takes out what is under some keys, one after the other. -/
def removeAll (table : Table α) : List String → List α × Table α
  | [] => ([], table)
  | key :: keys =>
    let (removed, rest) := (table.remove key).removeAll keys
    ((table.get? key).toList ++ removed, rest)

end Table

/-- A table with the order in which its keys came in. -/
structure Shelf (α : Type) where
  order : List String := []
  table : Table α := {}

namespace Shelf

variable {α : Type}

def get? (shelf : Shelf α) (key : String) : Option α :=
  shelf.table.get? key

def contains (shelf : Shelf α) (key : String) : Bool :=
  shelf.table.contains key

/-- The things in order. -/
def items (shelf : Shelf α) : List α :=
  shelf.order.filterMap shelf.get?

def modify (shelf : Shelf α) (key : String) (change : α → α) : Shelf α :=
  { shelf with table := shelf.table.modify key change }

/-- Puts a thing behind all others; its key is not looked for in the order. -/
def push (shelf : Shelf α) (key : String) (item : α) : Shelf α :=
  ⟨shelf.order ++ [key], shelf.table.insert key item⟩

/-- Takes out what is under a key. -/
def remove (shelf : Shelf α) (key : String) : Shelf α :=
  ⟨shelf.order.filter (· != key), shelf.table.remove key⟩

/-- Takes out the things that meet a condition, and drops the keys that have
nothing under them any more. -/
def removeWhere (shelf : Shelf α) (doomed : α → Bool) : List α × Shelf α :=
  let (removed, table) :=
    shelf.table.removeAll (shelf.order.filter fun key => (shelf.get? key).any doomed)
  (removed, ⟨shelf.order.filter table.contains, table⟩)

end Shelf

end CodeAtlas
