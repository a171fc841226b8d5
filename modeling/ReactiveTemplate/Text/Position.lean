/-!
# Position — lines and columns

A position in a source text is a line and a column, both counted from 1, the column in characters. Offsets are in bytes.
-/
namespace ReactiveTemplate

structure Position where
  line : Nat := 0
  column : Nat := 0
  deriving Repr, DecidableEq, Inhabited

namespace Text

def bytes (cs : List Char) : Nat := cs.foldr (fun c n => c.utf8Size + n) 0

/-- The parts of a text before and behind an offset, if that is between two characters. -/
def splitBytes? : Nat → List Char → Option (List Char × List Char)
  | 0, cs => some ([], cs)
  | _, [] => none
  | offset, c :: cs =>
    if c.utf8Size ≤ offset then
      (splitBytes? (offset - c.utf8Size) cs).map (fun (before, after) => (c :: before, after))
    else none

def slice? (start stop : Nat) (cs : List Char) : Option (List Char) := do
  let (_, rest) ← splitBytes? start cs
  let (inside, _) ← splitBytes? (stop - start) rest
  if start ≤ stop then some inside else none

end Text

structure LineIndex where
  source : List Char
  starts : List Nat
  deriving Repr, DecidableEq

namespace LineIndex

/-- The offsets just behind the line feeds of a text that stands at an offset. -/
def startsFrom : Nat → List Char → List Nat
  | _, [] => []
  | offset, c :: cs =>
    let next := offset + c.utf8Size
    if c = '\n' then next :: startsFrom next cs else startsFrom next cs

def ofSource (source : List Char) : LineIndex := ⟨source, 0 :: startsFrom 0 source⟩

/-- How many lines start at an offset or before it; these are the first ones. -/
def lineAt (index : LineIndex) (offset : Nat) : Nat := (index.starts.takeWhile (· ≤ offset)).length

/-- An offset inside a character counts the bytes from the start of its line. -/
def locate (index : LineIndex) (offset : Nat) : Position :=
  let offset := min offset (Text.bytes index.source)
  let line := index.lineAt offset
  let start := index.starts.getD (line - 1) 0
  let column :=
    match Text.slice? start offset index.source with
    | some inside => inside.length
    | none => offset - start
  ⟨line, column + 1⟩

end LineIndex
end ReactiveTemplate
