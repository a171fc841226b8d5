import ReactiveTemplate.Expression.Value
import ReactiveTemplate.Script.Tree
/-!
# Eval — expressions that can be evaluated on the server

An `Eval` holds literals, look-ups and operators only, so evaluating it has no effect and always ends.
-/
namespace ReactiveTemplate

inductive Eval where
  | literal (v : Value)
  | identifier (name : String)
  | member (object key : Eval)
  | unary (operator : String) (operand : Eval)
  | binary (operator : String) (left right : Eval)
  | logical (operator : String) (left right : Eval)
  | conditional (test first second : Eval)
  | template (texts : List String) (holes : List Eval)
  | array (items : List Eval)
  | sequence (items : List Eval)
  deriving Repr, Inhabited

namespace Eval

def unaryOperators : List String := ["!", "-", "+", "typeof", "void"]

def binaryOperators : List String :=
  ["+", "-", "*", "/", "%", "**", "==", "!=", "===", "!==", "<", "<=", ">", ">="]

def ofName : String → Eval
  | "undefined" => .literal .undefined
  | "NaN" => .literal (.number Value.notANumber)
  | "Infinity" => .literal (.number (Number.infinity false))
  | name => .identifier name

def refusal : Script.Form → String
  | .call _ => "function call"
  | .assign _ | .update _ _ => "assignment"
  | .arrow _ _ | .function _ _ _ => "function literal"
  | _ => "expression form"

inductive Shape where
  | refused (reason : String)
  | parts (build : List Eval → Option Eval)

def from0 (e : Eval) : Shape :=
  .parts (fun es => match es with | [] => some e | _ => none)

def from1 (f : Eval → Eval) : Shape :=
  .parts (fun es => match es with | [a] => some (f a) | _ => none)

def from2 (f : Eval → Eval → Eval) : Shape :=
  .parts (fun es => match es with | [a, b] => some (f a b) | _ => none)

def from3 (f : Eval → Eval → Eval → Eval) : Shape :=
  .parts (fun es => match es with | [a, b, c] => some (f a b c) | _ => none)

/-- What an expression of a form is made of; `isPrivate` says whether one of its parts is a private name. -/
def shapeOf (isPrivate : Bool) : Script.Form → Shape
  | .bool b => from0 (.literal (.bool b))
  | .null => from0 (.literal .null)
  | .number bits => from0 (.literal (.number (Number.signed false bits)))
  | .string value _ => from0 (.literal (.string value))
  | .template quasis => .parts (fun es => some (.template (quasis.map (fun q => q.cooked.getD q.raw)) es))
  | .identifier name => from0 (ofName name)
  | .name text => from0 (.literal (.string text))
  | .member false => if isPrivate then .refused "expression form" else from2 .member
  | .index false => from2 .member
  | .unary operator =>
    if unaryOperators.contains operator then from1 (.unary operator) else .refused ("unary operator " ++ operator)
  | .binary operator =>
    if isPrivate then .refused "expression form"
    else if binaryOperators.contains operator then from2 (.binary operator)
    else .refused ("binary operator " ++ operator)
  | .logical operator => from2 (.logical operator)
  | .conditional => from3 .conditional
  | .parenthesized => from1 id
  | .sequence => .parts (fun es => some (.sequence es))
  | .array _ => .parts (fun es => some (.array es))
  | .hole => from0 (.literal .undefined)
  | .spread => .refused "spread element"
  | form => .refused (refusal form)

def hasPrivateName (parts : List Script.Node) : Bool :=
  parts.any (fun n => match n.form with | .privateName _ => true | _ => false)

mutual
def ofNode : Script.Node → Except String Eval
  | .node form _ parts =>
    match shapeOf (hasPrivateName parts) form with
    | .refused reason => .error reason
    | .parts build =>
      match ofNodes parts with
      | .ok es => (build es).elim (.error "expression form") .ok
      | .error reason => .error reason

def ofNodes : List Script.Node → Except String (List Eval)
  | [] => .ok []
  | n :: ns =>
    match ofNode n with
    | .error reason => .error reason
    | .ok e =>
      match ofNodes ns with
      | .ok es => .ok (e :: es)
      | .error reason => .error reason
end

def isLiteral : Eval → Bool
  | literal _ => true
  | template _ holes => holes.isEmpty
  | _ => false

def decides (operator : String) (v : Value) : Bool :=
  match operator with
  | "&&" => !v.truthy
  | "||" => v.truthy
  | _ => !v.isNullish

def fill : List String → List Value → String
  | [], _ => ""
  | s :: ss, [] => s ++ fill ss []
  | s :: ss, v :: vs => s ++ v.text ++ fill ss vs

mutual
def evaluate (scope : Json) : Eval → Value
  | literal v => v
  | identifier name => ((scope.field? name).map Value.ofJson).getD .undefined
  | member object key => (evaluate scope object).property (evaluate scope key)
  | unary operator operand => (evaluate scope operand).operateUnary operator
  | binary operator left right => Value.operate operator (evaluate scope left) (evaluate scope right)
  | logical operator left right =>
    let v := evaluate scope left
    if decides operator v then v else evaluate scope right
  | conditional test first second =>
    if (evaluate scope test).truthy then evaluate scope first else evaluate scope second
  | template texts holes => .string (fill texts (evaluateAll scope holes))
  | array items => .array (evaluateAll scope items)
  | sequence items => ((evaluateAll scope items).getLast?).getD .undefined

def evaluateAll (scope : Json) : List Eval → List Value
  | [] => []
  | e :: es => evaluate scope e :: evaluateAll scope es
end

end Eval
end ReactiveTemplate
