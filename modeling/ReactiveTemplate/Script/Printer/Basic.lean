import ReactiveTemplate.Number.Compact
import ReactiveTemplate.Script.Printer.Page
import ReactiveTemplate.Script.Tree
/-!
# Basic — what the writers of scripts share

A node is written by the writers of its parts.
-/
namespace ReactiveTemplate.Script

abbrev Level := Nat

namespace Level

def lowest : Level := 0
def comma : Level := 1
def yielding : Level := 3
def assign : Level := 4
def conditional : Level := 5
def equality : Level := 12
def comparison : Level := 13
def power : Level := 17
def front : Level := 18
def behind : Level := 19
def construct : Level := 20

def ofOperator : String → Level
  | "??" => 6
  | "||" => 7
  | "&&" => 8
  | "|" => 9
  | "^" => 10
  | "&" => 11
  | "==" | "!=" | "===" | "!==" => equality
  | "<" | "<=" | ">" | ">=" | "in" | "instanceof" => comparison
  | "<<" | ">>" | ">>>" => 14
  | "+" | "-" => 15
  | "*" | "/" | "%" => 16
  | _ => power

end Level

structure Setting where
  level : Level := Level.lowest
  forbidsIn : Bool := false
  forbidsCall : Bool := false
  isGrouped : Bool := false
  /-- Whether a node is written as part of another: without what surrounds it when it stands alone. -/
  isPart : Bool := false
  deriving Repr, DecidableEq

namespace Setting

def fresh (level : Level) : Setting := { level := level }

def under (s : Setting) (level : Level) : Setting :=
  { level := level, forbidsIn := s.forbidsIn, forbidsCall := s.forbidsCall }

def underIn (s : Setting) (level : Level) : Setting := { level := level, forbidsIn := s.forbidsIn }

def underCall (s : Setting) (level : Level) : Setting := { level := level, forbidsCall := s.forbidsCall }

def inner (s : Setting) : Setting := s.under Level.lowest

def part (s : Setting) : Setting := { s.inner with isPart := true }

end Setting

structure Draft where
  node : Node
  write : Setting → Writer

namespace Draft

def absent : Draft := ⟨Node.absentAt 0, fun _ => Writer.none⟩

def pick (drafts : List Draft) (i : Nat) : Draft := (drafts[i]?).getD absent

end Draft

/-! ## Literals -/

def stringChar (c : Char) (rest : List Char) : List Char :=
  match c with
  | '\x00' => if (rest.head?.map Char.isDigit).getD false then "\\x00".toList else "\\0".toList
  | '\x07' => "\\x07".toList
  | '\x08' => "\\b".toList
  | '\x0b' => "\\v".toList
  | '\x0c' => "\\f".toList
  | '\n' => "\\n".toList
  | '\r' => "\\r".toList
  | '\x1b' => "\\x1B".toList
  | '\\' => "\\\\".toList
  | '"' => "\\\"".toList
  | '\u00a0' => "\\xA0".toList
  | '\u2028' => "\\u2028".toList
  | '\u2029' => "\\u2029".toList
  | '<' => if Writer.closesScript rest then ['<', '\\'] else ['<']
  | c => [c]

/-- The characters of a string in double quotes; `lone` says whether U+FFFD marks a surrogate without a partner. -/
def stringChars (lone : Bool) : List Char → List Char
  | [] => []
  | '\ufffd' :: a :: b :: c :: d :: cs =>
    if lone then
      (if [a, b, c, d] == "fffd".toList then ['\ufffd'] else ['\\', 'u', a, b, c, d]) ++ stringChars lone cs
    else '\ufffd' :: stringChars lone (a :: b :: c :: d :: cs)
  | c :: cs => stringChar c cs ++ stringChars lone cs

def quoted (value : String) (lone : Bool) : String :=
  String.ofList ('"' :: stringChars lone value.toList ++ ['"'])

def quoteOf : List Char → Char
  | [] => '"'
  | '\'' :: _ => '"'
  | '"' :: _ => '\''
  | '\\' :: _ :: cs => quoteOf cs
  | _ :: cs => quoteOf cs

def directiveText (raw : String) : String :=
  let quote := quoteOf raw.toList
  String.ofList (quote :: raw.toList ++ [quote])

def bigintText (written : String) : String :=
  let digits := written.toList.filter (fun c => c != 'n' && c != '_')
  let value :=
    match digits with
    | '0' :: mark :: rest =>
      if mark = 'x' || mark = 'X' then Number.ofDigits 16 rest
      else if mark = 'o' || mark = 'O' then Number.ofDigits 8 rest
      else if mark = 'b' || mark = 'B' then Number.ofDigits 2 rest
      else Number.ofDigits 10 digits
    | _ => Number.ofDigits 10 digits
  Number.natText value ++ "n"

def regexText (written : String) : String :=
  let backwards := written.toList.reverse
  let flags := backwards.takeWhile (· != '/')
  String.ofList ((backwards.dropWhile (· != '/')).reverse ++ flags.mergeSort (fun a b => decide (a ≤ b)))

def templatePieces : List Quasi → List Writer → List Writer
  | [], _ => []
  | q :: qs, [] => Writer.text (String.ofList (Writer.sheltered q.raw.toList)) :: templatePieces qs []
  | q :: qs, h :: hs =>
    [Writer.text (String.ofList (Writer.sheltered q.raw.toList)), Writer.text "$\x7b", h, Writer.text "\x7d"] ++
      templatePieces qs hs

end ReactiveTemplate.Script
