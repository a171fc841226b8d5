import ReactiveTemplate.Text.WordTable
/-!
# Word — the characters of identifiers

A word starts with a letter, `$` or `_` and goes on with letters, digits and joiners, in the sense of the Unicode
properties `ID_Start` and `ID_Continue`.
-/
namespace ReactiveTemplate.Text

def inRuns : List Nat → Nat → Bool
  | gap :: run :: rest, n => decide (gap ≤ n) && (decide (n - gap < run) || inRuns rest (n - gap - run))
  | _, _ => false

def isWordStart (c : Char) : Bool :=
  if c.toNat < 0x80 then c.isAlpha || c == '$' || c == '_' else inRuns wordStarts c.toNat

def isWordPart (c : Char) : Bool :=
  if c.toNat < 0x80 then c.isAlphanum || c == '$' || c == '_'
  else inRuns wordStarts c.toNat || inRuns wordContinues c.toNat || c == '\u200c' || c == '\u200d'

end ReactiveTemplate.Text
