import ReactiveTemplate.Text.Blank
import ReactiveTemplate.Text.Search
import ReactiveTemplate.Sequence
/-!
# Interpolation — `$` and `#` spans in text

A text holds interpolations between an opening marker and the brace that closes it: `$` marks one whose value is
escaped, `#` one whose value is inserted as it is.
-/
namespace ReactiveTemplate

structure Interpolation where
  placeholder : String
  expression : String
  isSafe : Bool
  isFullContent : Bool := false
  deriving Repr, DecidableEq

/-- A text with its interpolations replaced; `none` where the text has no marker. -/
structure Scan where
  text : String
  interpolations : Option (List Interpolation)
  deriving Repr, DecidableEq

inductive Piece where
  | literal (text : String)
  | expression (found : Interpolation)
  deriving Repr, DecidableEq

namespace Interpolation

def hasMarkersIn : List Char → Bool
  | '$' :: '\x7b' :: _ => true
  | '#' :: '\x7b' :: _ => true
  | _ :: cs => hasMarkersIn cs
  | [] => false

def hasMarkers (s : String) : Bool := hasMarkersIn s.toList

inductive Mode where
  | code
  | quoted (quote : Char)
  | escaped (quote : Char)
  deriving Repr, DecidableEq

/-- Reads the expression of an interpolation up to the brace that closes it, which is dropped; `acc` holds what was
read, in reverse, and `depth` counts the braces that are open. -/
def readExpression : Mode → Nat → List Char → List Char → List Char × List Char
  | _, _, acc, [] => (acc.reverse, [])
  | .escaped q, depth, acc, c :: cs => readExpression (.quoted q) depth (c :: acc) cs
  | .quoted q, depth, acc, c :: cs =>
    if c = '\\' then readExpression (.escaped q) depth (c :: acc) cs
    else if c = q then readExpression .code depth (c :: acc) cs
    else readExpression (.quoted q) depth (c :: acc) cs
  | .code, depth, acc, c :: cs =>
    if c = '"' || c = '\'' || c = '\x60' then readExpression (.quoted c) depth (c :: acc) cs
    else if c = '\x7b' then readExpression .code (if acc.isEmpty then depth else depth + 1) (c :: acc) cs
    else if c = '\x7d' then
      match depth with
      | 0 => (acc.reverse, cs)
      | d + 1 => readExpression .code d (c :: acc) cs
    else readExpression .code depth (c :: acc) cs

/-- A text cut into its literal runs and its interpolations, each with whether it is escaped. -/
def segments : Nat → List Char → List (List Char ⊕ (Bool × List Char))
  | 0, _ => []
  | _ + 1, [] => []
  | fuel + 1, '$' :: '\x7b' :: cs =>
    let (expression, rest) := readExpression .code 0 [] cs
    .inr (true, expression) :: segments fuel rest
  | fuel + 1, '#' :: '\x7b' :: cs =>
    let (expression, rest) := readExpression .code 0 [] cs
    .inr (false, expression) :: segments fuel rest
  | fuel + 1, c :: cs => .inl [c] :: segments fuel cs

def place : List (List Char ⊕ (Bool × List Char)) → Sequence → List Char × List Interpolation × Sequence
  | [], s => ([], [], s)
  | .inl text :: rest, s =>
    let (out, found, s') := place rest s
    (text ++ out, found, s')
  | .inr (isSafe, expression) :: rest, s =>
    let (placeholder, s1) := s.placeholder
    let (out, found, s') := place rest s1
    (placeholder.toList ++ out, ⟨placeholder, String.ofList expression, isSafe, false⟩ :: found, s')

def distinct (found : List Interpolation) : List Interpolation :=
  found.foldl (fun kept i =>
    if kept.any (fun k => k.placeholder == i.placeholder) then
      kept.map (fun k => if k.placeholder == i.placeholder then i else k)
    else kept ++ [i]) []

def markFull (text : List Char) : List Interpolation → List Interpolation
  | [i] => [⟨i.placeholder, i.expression, i.isSafe, String.ofList (Text.trimChars text) == i.placeholder⟩]
  | found => found

end Interpolation

def scan (text : String) (s : Sequence) : Scan × Sequence :=
  if Interpolation.hasMarkers text then
    let cs := text.toList
    let (out, found, s') := Interpolation.place (Interpolation.segments (cs.length + 1) cs) s
    (⟨String.ofList out, some (Interpolation.markFull out (Interpolation.distinct found))⟩, s')
  else (⟨text, none⟩, s)

namespace Scan

/-- Cuts `rest` at the placeholder of each interpolation in turn; empty literals are left out. -/
def cut : List Interpolation → List Char → List Piece
  | [], rest => if rest.isEmpty then [] else [.literal (String.ofList rest)]
  | i :: more, rest =>
    match Text.cut? i.placeholder.toList rest with
    | some (before, after) =>
      (if before.isEmpty then [] else [.literal (String.ofList before)]) ++ .expression i :: cut more after
    | none => cut more rest

def parts (s : Scan) : List Piece :=
  match s.interpolations with
  | none => [.literal s.text]
  | some found => cut found s.text.toList

end Scan
end ReactiveTemplate
