import ReactiveTemplate.Reactive.Context
import ReactiveTemplate.Reactive.Invalidation
import ReactiveTemplate.Reactive.Payload
import ReactiveTemplate.Script.Printer.Statement
/-!
# Handler — what an event attribute runs

The value of an event attribute becomes a function of the event.
-/
namespace ReactiveTemplate.Handler

def standardFunction (source : String) : Except Fault String :=
  let wrapped := "(" ++ Text.trim source ++ ")"
  match Script.parseProgram? wrapped with
  | none => .error (.script wrapped)
  | some program =>
    let written := Text.trimChars (program.root.written program.comments program.annotated).toList
    let code := Text.dropEndWhile Text.isBlank (Text.dropEndWhile (· == ';') written)
    .ok (if code.head? == some '(' && code.getLast? == some ')' then String.ofList code
         else "(" ++ String.ofList code ++ ")")

def arrow (body : String) : String := "(e) => \x7b " ++ body ++ " \x7d"

def push (name : String) (arguments : Option String) : String :=
  "STX.push(" ++ commas ([singleQuote name, "$", "e"] ++ arguments.toList) ++ ")"

def ofShape (context : Context) (source : String) : Shape → Except Fault String
  | .call callee arguments =>
    .ok (arrow (if callee != "push" && context.isDeclared callee then source else push callee arguments))
  | .identifier name => .ok (arrow (if context.isDeclared name then name ++ "(e)" else push name none))
  | .arrow => .ok source
  | .function => (standardFunction source).map (fun f => arrow (f ++ "()"))
  | .other => .ok (arrow source)

def wrap (context : Context) (source : String) : Except Fault String :=
  match Summary.ofSource source with
  | .ok summary => ofShape context source summary.shape
  | .error fault => if (Script.parseProgram? source).isSome then .ok (arrow source) else .error fault

def verbatim? (source : String) : Option String :=
  ["javascript:", "js:"].findSome? (fun mark => (Text.dropStart? source mark).map Text.trim)

/-- The handler that the value of an event attribute becomes, and the variables that have numbers afterwards. -/
def ofValue (context : Context) (vars : IndexedSet String) (value : String) :
    Except Fault (String × IndexedSet String) := do
  let source := Text.trim value
  match verbatim? source with
  | some handler => return (handler, vars)
  | none =>
    let wrapped ← wrap context source
    instrumentSnippet wrapped context.declared vars

end ReactiveTemplate.Handler
