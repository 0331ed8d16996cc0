/-!
# Stores

Things that carry their own key, in the order they came in.
-/

namespace CodeAtlas

/-- Things that carry their own key. -/
class Keyed (α : Type) where
  key : α → String

/-- Things in the order they came in. -/
structure Store (α : Type) where
  items : List α := []

instance {α : Type} : Inhabited (Store α) :=
  ⟨{}⟩

namespace Store

variable {α : Type} [Keyed α]

/-- The keys in order. -/
def keys (store : Store α) : List String :=
  store.items.map Keyed.key

/-- The thing with a key. -/
def get? (store : Store α) (key : String) : Option α :=
  store.items.find? fun item => Keyed.key item == key

def contains (store : Store α) (key : String) : Bool :=
  store.items.any fun item => Keyed.key item == key

/-- Changes the thing with a key. -/
def modify (store : Store α) (key : String) (change : α → α) : Store α :=
  ⟨store.items.map fun item => if Keyed.key item == key then change item else item⟩

/-- Puts a thing in the place of the one with its key, or behind all others. -/
def insert (store : Store α) (item : α) : Store α :=
  if store.contains (Keyed.key item) then store.modify (Keyed.key item) fun _ => item
  else ⟨store.items ++ [item]⟩

/-- Takes out the thing with a key. -/
def erase (store : Store α) (key : String) : Store α :=
  ⟨store.items.filter fun item => Keyed.key item != key⟩

/-- The number of things. -/
def size (store : Store α) : Nat :=
  store.items.length

end Store

end CodeAtlas
