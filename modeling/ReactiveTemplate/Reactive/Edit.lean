/-!
# Edit — texts put into a source

An edit puts a text into a source at an offset, perhaps in place of some characters.  Edits are applied in the order of
their offsets.
-/
namespace ReactiveTemplate

inductive EditKind where
  | closing
  | replacing
  | opening
  deriving Repr, DecidableEq

def EditKind.rank : EditKind → Nat
  | closing => 0
  | replacing => 1
  | opening => 2

structure Edit where
  start : Nat
  stop : Nat
  kind : EditKind
  extent : Nat
  text : String
  deriving Repr, DecidableEq

namespace Edit

def wrap (start stop : Nat) (before after : String) : List Edit :=
  [⟨start, start, .opening, stop, before⟩, ⟨stop, stop, .closing, start, after⟩]

def replace (start stop : Nat) (text : String) : Edit := ⟨start, stop, .replacing, stop, text⟩

def precedes (a b : Edit) : Bool :=
  if a.start != b.start then decide (a.start < b.start)
  else if a.kind != b.kind then decide (a.kind.rank < b.kind.rank)
  else decide (b.extent ≤ a.extent)

def splice (source : List Char) : Nat → List Edit → List Char
  | cursor, [] => source.drop cursor
  | cursor, e :: es =>
    (source.drop cursor).take (e.start - cursor) ++ e.text.toList ++ splice source (max (max cursor e.start) e.stop) es

def apply (source : String) (edits : List Edit) : String :=
  String.ofList (splice source.toList 0 (edits.mergeSort precedes))

end Edit
end ReactiveTemplate
