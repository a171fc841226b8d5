import ReactiveTemplate.Diagnostic
import ReactiveTemplate.Expression.Eval
import ReactiveTemplate.Script.Parse
import ReactiveTemplate.Script.Scope
/-!
# Summary — what an expression reads, writes and calls

A summary holds all that the compiler asks of an expression without its surroundings: the names it reads, the
variables it changes, the functions it calls by name, its outer shape, and its `Eval` if it has one.
-/
namespace ReactiveTemplate

inductive Shape where
  | call (callee : String) (arguments : Option String)
  | identifier (name : String)
  | arrow
  | function
  | other
  deriving Repr, DecidableEq

structure Write where
  name : String
  reach : Script.Reach
  deriving Repr, DecidableEq

structure Summary where
  source : String
  free : List String
  writes : List Write
  calls : List String
  shape : Shape
  eval : Except String Eval

namespace Summary

def textBetween (source : String) (start stop : Nat) : String :=
  String.ofList ((source.toList.drop start).take (stop - start))

def argumentsText (source : String) (arguments : List Script.Node) : Option String :=
  match arguments.head?, arguments.getLast? with
  | some first, some last => some (textBetween source first.span.start last.span.stop)
  | _, _ => none

def shapeOf (source : String) (n : Script.Node) : Shape :=
  let n := n.bare
  match n.form with
  | .identifier name => .identifier name
  | .call _ =>
    match (n.part 0).identifier? with
    | some callee => .call callee (argumentsText source (n.parts.drop 1))
    | none => .other
  | .arrow _ _ => .arrow
  | .function _ _ _ => .function
  | _ => .other

def outerNames (kind : Script.UseKind) (uses : List Script.Use) : List String :=
  ((uses.filter (fun u => u.kind == kind && u.reach != .inner)).map (·.name)).eraseDups

def ofNode (source : String) (n : Script.Node) : Summary :=
  let uses := n.contextUses []
  { source := source
    free := outerNames .read uses
    writes := (uses.filter (·.isWrite)).map (fun u => ⟨u.name, u.reach⟩)
    calls := outerNames .called uses
    shape := shapeOf source n
    eval := Eval.ofNode n }

def ofSource (source : String) : Except Fault Summary :=
  let trimmed := Text.trim source
  match Script.parseExpression? trimmed with
  | some n => .ok (ofNode trimmed n)
  | none => .error (.script trimmed)

def freeWrites (s : Summary) : List String :=
  (s.writes.filter (fun w => w.reach != .inner)).map (·.name)

def isLiteral (s : Summary) : Bool :=
  match s.eval with
  | .ok e => e.isLiteral
  | .error _ => false

/-- Refuses any change of a variable: what the server evaluates must not have effects. -/
def refuseWrites (s : Summary) : Except Fault Unit :=
  match s.writes with
  | w :: _ => .error (.sideEffect s.source w.name none)
  | [] => .ok ()

end Summary

def Eval.ofSource (source : String) : Except Fault Eval := do
  let summary ← Summary.ofSource source
  summary.refuseWrites
  summary.eval.mapError (.unsupported summary.source)

end ReactiveTemplate
