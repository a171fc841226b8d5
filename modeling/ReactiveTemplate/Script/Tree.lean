/-!
# Tree — scripts as trees

A script is a tree of nodes.  A node says what it is (`Form`), which characters of the source it covers, and what it is
made of.
-/
namespace ReactiveTemplate.Script

inductive Declared where
  | hoisted
  | lexical
  | constant
  | resource
  | asyncResource
  deriving Repr, DecidableEq

inductive Member where
  | init
  | method
  | getter
  | setter
  | creator
  deriving Repr, DecidableEq

structure Quasi where
  raw : String
  cooked : Option String
  deriving Repr, DecidableEq

structure InterfaceName where
  text : String
  isQuoted : Bool := false
  deriving Repr, DecidableEq

inductive Imported where
  | standard
  | everything
  | named (name : InterfaceName)
  deriving Repr, DecidableEq

structure ImportAttribute where
  key : InterfaceName
  value : String
  lone : Bool
  deriving Repr, DecidableEq

/-- Where another module is found: its path, and the attributes behind it with the word that introduces them. -/
structure ModuleSource where
  path : String
  lone : Bool
  attributes : Option (String × List ImportAttribute)
  deriving Repr, DecidableEq

/-- What a node is: expressions first, then patterns of declarations, targets of assignments, and statements. -/
inductive Form where
  | absent
  | null
  | bool (value : Bool)
  | number (bits : Nat)
  | bigint (text : String)
  | string (value : String) (lone : Bool)
  | regex (text : String)
  | template (quasis : List Quasi)
  | tagged
  | identifier (name : String)
  | thisValue
  | superValue
  | metaProperty (object property : String)
  | array (trailing : Bool)
  | hole
  | spread
  | object (trailing : Bool)
  /-- The key and the value.  A third part is a default, which makes sense only where the object becomes a target. -/
  | property (member : Member) (shorthand computed : Bool)
  /-- A name that stands for itself: a key, or what follows a dot. -/
  | name (text : String)
  | privateName (text : String)
  | function (isExpression isAsync isGenerator : Bool)
  | arrow (isAsync isExpression : Bool)
  | parameters
  | body
  | classOf (isExpression : Bool)
  | interfaces
  | decorators (words : List String)
  | method (member : Member) (isStatic computed : Bool)
  | field (isStatic computed accessor : Bool)
  | staticBlock
  | unary (operator : String)
  | update (operator : String) (isPrefix : Bool)
  | binary (operator : String)
  | logical (operator : String)
  | assign (operator : String)
  | conditional
  | call (optional : Bool)
  | construct
  | member (optional : Bool)
  | index (optional : Bool)
  /-- An expression with `?.` in it, up to where it may be cut short. -/
  | chain
  | sequence
  | awaiting
  | yielding (delegate : Bool)
  | importCall (phase : Option String)
  | parenthesized
  | binding (name : String)
  | arrayPattern
  | objectPattern
  | patternProperty (shorthand computed : Bool)
  | defaulted
  | rest
  | arrayTarget
  | objectTarget
  | targetShorthand
  | targetProperty (computed : Bool)
  | targetDefault
  | targetRest
  | program
  | directive (raw : String)
  | block
  | empty
  | expression
  | branch
  | loop
  | loopIn
  | loopOf (isAwait : Bool)
  | whileLoop
  | doLoop
  | continueTo (label : Option String)
  | breakFrom (label : Option String)
  | returning
  | withObject
  | switchOn
  | switchCase
  | labeled (label : String)
  | throwing
  | tryBlock
  | handler
  | debugger
  | declaration (declared : Declared)
  | declarator
  /-- The specifiers; `isBare` says that not even empty braces stand there. -/
  | importFrom (source : ModuleSource) (phase : Option String) (isBare : Bool)
  | importSpecifier (imported : Imported) (localName : String)
  /-- The declaration and the specifiers; the source of what is exported further. -/
  | exportNamed (source : Option ModuleSource)
  | exportSpecifier (localName exported : InterfaceName)
  | exportDefault
  | exportAll (exported : Option InterfaceName) (source : ModuleSource)
  deriving Repr, DecidableEq, Inhabited

structure Span where
  start : Nat
  stop : Nat
  deriving Repr, DecidableEq, Inhabited

inductive Node where
  | node (form : Form) (span : Span) (parts : List Node)
  deriving Repr, Inhabited

namespace Node

def form : Node → Form
  | node form _ _ => form

def span : Node → Span
  | node _ span _ => span

def parts : Node → List Node
  | node _ _ parts => parts

def absentAt (offset : Nat) : Node := node .absent ⟨offset, offset⟩ []

def part (n : Node) (i : Nat) : Node := (n.parts[i]?).getD (absentAt 0)

def isAbsent (n : Node) : Bool := n.form == .absent

def identifier? (n : Node) : Option String :=
  match n.form with
  | .identifier name => some name
  | _ => none

def binding? (n : Node) : Option String :=
  match n.form with
  | .binding name => some name
  | _ => none

def bare : Node → Node
  | node .parenthesized span (inner :: rest) =>
    if rest.isEmpty then bare inner else node .parenthesized span (inner :: rest)
  | n => n

def leadingCalls : Node → List Span
  | node (.call _) span _ | node .construct span _ => [span]
  | node .parenthesized _ (inner :: _) | node .chain _ (inner :: _) => leadingCalls inner
  | node (.binary _) _ (left :: _) | node (.logical _) _ (left :: _) => leadingCalls left
  | node .conditional _ (test :: _) => leadingCalls test
  | _ => []

/-- The function that a node is or exports, or that a constant which it declares first is. -/
def leadingFunctions : Node → List Span
  | node (.function _ _ _) span _ | node (.arrow _ _) span _ => [span]
  | node (.declaration .constant) _ (first :: _) => leadingFunctions first
  | node .declarator _ [_, value] => leadingFunctions value
  | node (.exportNamed _) _ (first :: _) | node .exportDefault _ (first :: _) => leadingFunctions first
  | _ => []

def statements (n : Node) : List Node :=
  n.parts.filter (fun s => match s.form with | .directive _ => false | _ => true)

end Node
end ReactiveTemplate.Script
