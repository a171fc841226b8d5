import ReactiveTemplate.Script.Lexer
/-!
# Page — text under construction

A script is written from left to right on a page.
-/
namespace ReactiveTemplate.Script

structure Page where
  backwards : List Char := []
  size : Nat := 0
  depth : Nat := 0
  isInline : Bool := false
  statementAt : Option Nat := none
  arrowAt : Option Nat := none
  standardAt : Option Nat := none
  sign : Option (String × Nat) := none
  comments : List (Nat × Comment) := []

namespace Page

def toString (page : Page) : String := String.ofList page.backwards.reverse

def notes (page : Page) (offset : Nat) : List Comment :=
  (page.comments.filter (fun n => n.1 == offset)).map (·.2)

def isNoted (page : Page) (offset : Nat) : Bool := !(page.notes offset).isEmpty

def forget (page : Page) (offset : Nat) : Page :=
  { page with comments := page.comments.filter (fun n => n.1 != offset) }

def startsStatement (page : Page) : Bool := page.statementAt == some page.size

def startsArrow (page : Page) : Bool := page.arrowAt == some page.size

def startsStandard (page : Page) : Bool := page.standardAt == some page.size

end Page

abbrev Writer := Page → Page

namespace Writer

def none : Writer := id

def text (written : String) : Writer := fun page =>
  { page with backwards := written.toList.reverse ++ page.backwards, size := page.size + written.length }

def all (writers : List Writer) : Writer := fun page => writers.foldl (fun page w => w page) page

def when (condition : Bool) (w : Writer) : Writer := if condition then w else none

def separated (between : Writer) (writers : List Writer) : Writer := all (writers.intersperse between)

def listed (writers : List Writer) : Writer := separated (text ", ") writers

def newline : Writer := text "\n"

def indent : Writer := fun page =>
  if page.isInline then text " " { page with isInline := false }
  else text (String.ofList (List.replicate page.depth '\t')) page

def settle : Writer := fun page => if page.isInline then indent page else page

def inline : Writer := fun page => { page with isInline := true }

def deeper (w : Writer) : Writer := fun page =>
  { w { page with depth := page.depth + 1 } with depth := page.depth }

def grouped (needed : Bool) (w : Writer) : Writer := if needed then all [text "(", w, text ")"] else w

def braced (isShort : Bool) (w : Writer) : Writer :=
  if isShort then all [text "\x7b", w, text "\x7d"]
  else all [text "\x7b", newline, deeper w, indent, text "\x7d"]

def startStatement : Writer := fun page => { page with statementAt := some page.size }

def startArrow : Writer := fun page => { page with arrowAt := some page.size }

def startStandard : Writer := fun page => { page with standardAt := some page.size }

def sign (operator : String) : Writer := fun page =>
  let page := text operator page
  { page with sign := some (operator, page.size) }

def apart (operator : String) : Writer := fun page =>
  match page.sign with
  | some (before, stop) =>
    when (stop == page.size && (operator == before || operator == before ++ before)) (text " ") page
  | Option.none => page

/-! ## Comments -/

def closesScript (cs : List Char) : Bool := (cs.take 7).map Char.toLower == "/script".toList

def sheltered : List Char → List Char
  | [] => []
  | c :: cs => if c = '<' && closesScript cs then '<' :: '\\' :: sheltered cs else c :: sheltered cs

def commentLines : List Char → List (List Char)
  | [] => [[]]
  | '\r' :: '\n' :: cs => [] :: commentLines cs
  | c :: cs =>
    if isLineEnd c then [] :: commentLines cs
    else
      match commentLines cs with
      | first :: rest => (c :: first) :: rest
      | [] => [[c]]

def commentLine (line : List Char) : Writer :=
  all [newline, when (line.take 2 != "/*".toList) indent,
    text (String.ofList (sheltered (line.dropWhile Text.isBlank)))]

def comment (c : Comment) : Writer :=
  match (if c.isBlock then commentLines c.text.toList else [c.text.toList]) with
  | [] => none
  | first :: rest => all (text (String.ofList (sheltered first)) :: rest.map commentLine)

/-- Comments in a row; the line goes on behind the last one unless it ended there. -/
def commentRun : List Comment → Writer
  | [] => none
  | [c] => all [comment c, if c.newlineAfter then newline else inline]
  | c :: cs => all [comment c, if c.newlineAfter then all [newline, indent] else text " ", commentRun cs]

def commentOpening (c : Comment) : Writer := fun page =>
  if c.newlineBefore then
    match page.backwards with
    | [] => page
    | '\n' :: _ => indent page
    | '\t' :: _ => page
    | _ => all [newline, indent] page
  else indent page

def commentList : List Comment → Writer
  | [] => none
  | c :: cs => all [commentOpening c, commentRun (c :: cs)]

def comments (offset : Nat) : Writer := fun page => commentList (page.notes offset) (page.forget offset)

/-- What stands in front of a statement at an offset: its comments and its indentation. -/
def lead (offset : Nat) : Writer := all [comments offset, indent]

/-- The comments of the token at an offset, each on a line of its own; a line end at least. -/
def commentBlock (offset : Nat) : Writer := fun page =>
  let lines := (page.notes offset).map (fun c => all [newline, indent, comment c])
  all (lines ++ [newline]) (page.forget offset)

end Writer
end ReactiveTemplate.Script
