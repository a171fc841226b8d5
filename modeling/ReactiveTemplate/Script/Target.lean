import ReactiveTemplate.Script.Tree
/-!
# Target — expressions as targets of assignments

The left side of an assignment is read as an expression first.  `Node.target?` turns it into what is assigned to: a
name, a member, or a pattern of such, with defaults.
-/
namespace ReactiveTemplate.Script

inductive Role where
  | fixed
  | simple
  | pattern
  | value
  | element (trailing : Bool)
  | property (trailing : Bool)
  deriving Repr, DecidableEq

inductive Becoming where
  | itself
  | inner
  | of (form : Form) (first others : Role)
  | shorthand
  | nothing
  deriving Repr, DecidableEq

namespace Role

def becomesTarget (patterns : Bool) : Form → Becoming
  | .identifier _ | .member false | .index false => .itself
  | .parenthesized => .inner
  | .array trailing => if patterns then .of .arrayTarget (.element trailing) (.element trailing) else .nothing
  | .object trailing => if patterns then .of .objectTarget (.property trailing) (.property trailing) else .nothing
  | _ => .nothing

def becomesValue : Form → Becoming
  | .assign "=" => .of .targetDefault .fixed .fixed
  | form => becomesTarget true form

/-- What becomes of an expression in a role; what is left over can only be the last one. -/
def becomes (isLast : Bool) : Role → Form → Becoming
  | fixed, _ => .itself
  | simple, form => becomesTarget false form
  | pattern, form => becomesTarget true form
  | value, form => becomesValue form
  | element _, .hole => .itself
  | element trailing, .spread => if isLast && !trailing then .of .targetRest .pattern .pattern else .nothing
  | element _, form => becomesValue form
  | property _, .property .init true _ => .shorthand
  | property _, .property .init false computed => .of (.targetProperty computed) .fixed .value
  | property trailing, .spread => if isLast && !trailing then .of .targetRest .simple .simple else .nothing
  | property _, _ => .nothing

end Role

namespace Node

def shorthandTarget (span : Span) : List Node → Option Node
  | [_, value] => some (node .targetShorthand span [value, absentAt span.stop])
  | [_, value, fallback] => some (node .targetShorthand span [value, fallback])
  | _ => none

mutual
def targetAs? (role : Role) (isLast : Bool) : Node → Option Node
  | node form span parts =>
    match role.becomes isLast form with
    | .itself => some (node form span parts)
    | .inner => (targetsAs? .simple .simple parts).bind List.head?
    | .of form first others => (targetsAs? first others parts).map (node form span)
    | .shorthand => shorthandTarget span parts
    | .nothing => none

def targetsAs? (first others : Role) : List Node → Option (List Node)
  | [] => some []
  | n :: ns =>
    match targetAs? first ns.isEmpty n, targetsAs? others others ns with
    | some t, some ts => some (t :: ts)
    | _, _ => none
end

/-- The target that an expression denotes; patterns only if `patterns` allows them. -/
def target? (patterns : Bool) (n : Node) : Option Node :=
  targetAs? (if patterns then .pattern else .simple) true n

mutual
def hasStrayDefault : Node → Bool
  | node (.property _ _ _) _ parts => decide (2 < parts.length) || anyStrayDefault parts
  | node _ _ parts => anyStrayDefault parts

def anyStrayDefault : List Node → Bool
  | [] => false
  | n :: ns => hasStrayDefault n || anyStrayDefault ns
end

end Node
end ReactiveTemplate.Script
