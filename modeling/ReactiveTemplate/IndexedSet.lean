/-!
# IndexedSet — items numbered by first insertion

Every table of a payload refers to items by number.  Inserting an item that is already there changes nothing, so the
first insertion fixes the number for good.
-/
namespace ReactiveTemplate

structure IndexedSet (α : Type) where
  items : List α := []
  deriving Repr

namespace IndexedSet

variable {α : Type} [BEq α]

def empty : IndexedSet α := ⟨[]⟩

instance : Inhabited (IndexedSet α) := ⟨empty⟩

def indexOf? (s : IndexedSet α) (a : α) : Option Nat := s.items.findIdx? (· == a)

def contains (s : IndexedSet α) (a : α) : Bool := s.items.contains a

def insert (s : IndexedSet α) (a : α) : Nat × IndexedSet α :=
  match s.indexOf? a with
  | some i => (i, s)
  | none => (s.items.length, ⟨s.items ++ [a]⟩)

def insertAll (s : IndexedSet α) (as : List α) : IndexedSet α :=
  as.foldl (fun s a => (s.insert a).2) s

def get? (s : IndexedSet α) (i : Nat) : Option α := s.items[i]?

def size (s : IndexedSet α) : Nat := s.items.length

def isEmpty (s : IndexedSet α) : Bool := s.items.isEmpty

end IndexedSet
end ReactiveTemplate
