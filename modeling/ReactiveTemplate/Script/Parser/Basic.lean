import ReactiveTemplate.Script.Lexer
import ReactiveTemplate.Script.Target
/-!
# Basic — the reader of scripts

A parser takes tokens off a `Cursor` under a `Mode`.
-/
namespace ReactiveTemplate.Script

structure Mode where
  allowsIn : Bool := true
  isAwait : Bool := true
  isYield : Bool := false
  inFunction : Bool := false
  inDecorator : Bool := false
  deriving Repr, DecidableEq

structure Cursor where
  token : Token
  start : Nat
  stop : Nat
  newline : Bool
  here : List Char
  rest : List Char
  before : Nat
  isFlawed : Bool
  annotations : List Annotation
  comments : List (Nat × Comment)
  annotated : List Span
  deriving Repr

namespace Cursor

def read (first opening : Bool) (stop : Nat) (cs : List Char) : Cursor :=
  let trivia := skipTrivia first opening cs
  let start := stop + trivia.size
  let found := lexeme (first && trivia.size == 0) trivia.rest
  { token := found.token, start := start, stop := start + (trivia.rest.length - found.rest.length)
    newline := trivia.newline, here := trivia.rest, rest := found.rest, before := stop
    isFlawed := !trivia.isSound || !found.isSound, annotations := trivia.annotations
    comments := (trivia.comments.filter (fun c => c.annotation?.isNone)).map (fun c => (start, c)), annotated := [] }

def ofSource (source : String) : Cursor := read true false 0 source.toList

def next (c : Cursor) : Cursor :=
  let found := read false (c.token.is "=" || c.token.is "(") c.stop c.rest
  { found with isFlawed := c.isFlawed || found.isFlawed, comments := c.comments ++ found.comments
               annotated := c.annotated }

def reread (c : Cursor) (found : Lexeme) : Cursor :=
  { c with token := found.token, stop := c.start + (c.here.length - found.rest.length), rest := found.rest
           isFlawed := c.isFlawed || !found.isSound }

end Cursor

abbrev Parser := ReaderT Mode (StateT Cursor Option)

namespace Parser

def on (symbol : String) : Parser Bool := return (← get).token.is symbol

def onAny (symbols : List String) : Parser Bool := return symbols.any (← get).token.is

def advance : Parser Unit := modify Cursor.next

def flaw : Parser Unit := modify (fun c => { c with isFlawed := true })

def flawIf (condition : Bool) : Parser Unit := if condition then flaw else pure ()

def annotate (annotations : List Annotation) (n : Node) : Parser Unit :=
  let calls := if annotations.contains .pure then n.leadingCalls else []
  let functions := if annotations.contains .inert then n.leadingFunctions else []
  modify (fun c => { c with annotated := c.annotated ++ calls ++ functions })

def eat (symbol : String) : Parser Bool := do
  if ← on symbol then
    advance
    return true
  else return false

def expect (symbol : String) : Parser Unit := do
  if ← eat symbol then return () else failure

def newline : Parser Bool := return (← get).newline

def position : Parser Nat := return (← get).start

def peek : Parser Cursor := return (← get).next

def close (start : Nat) (form : Form) (parts : List Node := []) : Parser Node :=
  return .node form ⟨start, (← get).before⟩ parts

def absent : Parser Node := return Node.absentAt (← get).before

def within {α : Type} (change : Mode → Mode) (p : Parser α) : Parser α := withReader change p

def allowingIn {α : Type} (p : Parser α) : Parser α := within (fun m => { m with allowsIn := true }) p

def iterate {α β : Type} (step : α → Parser (α ⊕ β)) : Nat → α → Parser β
  | 0, _ => failure
  | fuel + 1, a => do
    match ← step a with
    | .inl a' => iterate step fuel a'
    | .inr b => return b

def repeatFrom {α β : Type} (start : α) (step : α → Parser (α ⊕ β)) : Parser β := do
  iterate step ((← get).rest.length + 2) start

def delimited {α : Type} (closing : String) (item : Parser α) : Parser (List α × Bool) := do
  if ← on closing then return ([], false)
  repeatFrom [] (fun items => do
    let n ← item
    let items := items ++ [n]
    if ← on closing then return .inr (items, false)
    expect ","
    if ← on closing then return .inr (items, true)
    return .inl items)

/-- The items up to a closing token, of which the last may be introduced by dots. -/
def delimitedWithRest (closing : String) (item rest : Parser Node) : Parser (List Node) :=
  repeatFrom ([], false) (fun ((items, sawRest) : List Node × Bool) => do
    if ← on closing then return .inr items
    if !items.isEmpty then
      expect ","
      flawIf sawRest
    if ← on closing then return .inr items
    if ← on "..." then
      let n ← rest
      return .inl (items ++ [n], true)
    else
      let n ← item
      return .inl (items ++ [n], sawRest))

def endStatement : Parser Unit := do
  if ← eat ";" then return ()
  let c ← get
  if c.newline || c.token.is "\x7d" || c.token == .finish then return () else failure

/-! ## Names -/

def isReference (m : Mode) : Token → Bool
  | .word "yield" _ => !m.isYield
  | .word "await" _ => !m.isAwait
  | t => t.isPlainWord

def isBinding : Token → Bool
  | .word "yield" _ | .word "await" _ => true
  | t => t.isPlainWord

def word : Parser String := do
  match (← get).token with
  | .word name _ =>
    advance
    return name
  | _ => failure

def reference : Parser Node := do
  let start ← position
  if isReference (← read) (← get).token then
    let name ← word
    close start (.identifier name)
  else failure

def checkBinding (m : Mode) (name : String) : Parser Unit :=
  flawIf ((m.isAwait && name == "await") || (m.isYield && name == "yield"))

def bindingName : Parser Node := do
  let start ← position
  if isBinding (← get).token then
    let name ← word
    checkBinding (← read) name
    close start (.binding name)
  else failure

def plainName : Parser Node := do
  let start ← position
  let name ← word
  close start (.name name)

def privateName : Parser Node := do
  let start ← position
  match (← get).token with
  | .privateName name =>
    advance
    close start (.privateName name)
  | _ => failure

def stringValue : Parser (String × Bool) := do
  match (← get).token with
  | .string value lone =>
    advance
    return (value, lone)
  | _ => failure

def nameLiteral : Parser Node := do
  let start ← position
  let form ← match (← get).token with
    | .string value lone => pure (Form.string value lone)
    | .number bits => pure (Form.number bits)
    | .bigint text => pure (Form.bigint text)
    | _ => failure
  advance
  close start form

end Parser

structure Grammar where
  assignment : Parser Node
  binary : Nat → Parser Node
  unary : Parser Node
  leftSide : Parser Node
  callee : Parser Node
  pattern : Parser Node
  statement : (isSingle : Bool) → Parser Node

def Grammar.none : Grammar :=
  ⟨failure, fun _ => failure, failure, failure, failure, failure, fun _ => failure⟩

end ReactiveTemplate.Script
