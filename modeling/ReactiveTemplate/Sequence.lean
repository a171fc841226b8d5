import ReactiveTemplate.Digest.Xxh3
import ReactiveTemplate.Number.Decimal
/-!
# Sequence — generated identifiers

A sequence issues identifiers from a salt and a counter: equal salts issue equal identifiers in the same order, so a
template compiles to the same bytes every time.
-/
namespace ReactiveTemplate

structure Sequence where
  salt : String
  counter : Nat := 0
  deriving Repr, DecidableEq

namespace Sequence

def new (salt : String) : Sequence := ⟨salt, 0⟩

def salted (s : Sequence) (name : String) : Sequence := new (s.salt ++ "/" ++ name)

def next (s : Sequence) : Nat × Sequence := (s.counter, ⟨s.salt, s.counter + 1⟩)

def hashAt (s : Sequence) (n : Nat) : String := Digest.short (s.salt ++ ":" ++ Number.natText n)

def nextHash (s : Sequence) : String × Sequence :=
  let (n, s') := s.next
  (s.hashAt n, s')

def placeholder (s : Sequence) : String × Sequence :=
  let (h, s') := s.nextHash
  ("_i_" ++ h, s')

def elementHandle (s : Sequence) : String × Sequence :=
  let (h, s') := s.nextHash
  ("_ref_" ++ h, s')

def referenceHandle (s : Sequence) (name : String) : String :=
  "_ref_" ++ Digest.short (s.salt ++ "#" ++ name)

end Sequence
end ReactiveTemplate
