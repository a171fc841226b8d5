import ReactiveTemplate.Script.Declaration
/-!
# Scope — the names a script uses, and what they refer to

`Node.walk` goes through a script with the scopes that are open on a stack.
-/
namespace ReactiveTemplate.Script

inductive Reach where
  | inner
  | context
  | free
  deriving Repr, DecidableEq

inductive UseKind where
  | read
  | assigned
  | updated (isPrefix : Bool)
  | called
  deriving Repr, DecidableEq

/-- One use of a name; the span is that of the whole assignment, update or call. -/
structure Use where
  kind : UseKind
  name : String
  reach : Reach
  span : Span
  deriving Repr, DecidableEq

namespace Use

def isWrite (u : Use) : Bool :=
  match u.kind with
  | .assigned | .updated _ => true
  | _ => false

end Use

def reachOf (context : List String) (scopes : List (List String)) (name : String) : Reach :=
  if scopes.any (·.contains name) then .inner
  else if context.contains name then .context
  else .free

inductive Visit where
  | skipped
  | inside (names : List String)
  deriving Repr, DecidableEq

def headNames : List Node → List String
  | n :: _ =>
    match n.form with
    | .declaration _ => n.variableNames
    | _ => []
  | [] => []

/-- The names declared in a function: its parameters and whatever its body declares. -/
def functionNames (params body : Node) : List String :=
  params.boundNames ++ Node.scopeNames body.statements

def caseNames (cases : List Node) : List String :=
  cases.flatMap (fun c => Node.lexicalNames (c.parts.drop 1))

def Form.surrounds : Form → List Node → Visit × Visit
  | .block, parts =>
    let scope := Visit.inside (Node.lexicalNames parts)
    (scope, scope)
  | .switchOn, parts => (.inside [], .inside (caseNames (parts.drop 1)))
  | .function isExpression _ _, [title, params, code] =>
    let own := if isExpression then title.boundNames else []
    let scope := Visit.inside ("arguments" :: own ++ functionNames params code)
    (scope, scope)
  | .arrow _ _, [params, code] =>
    let scope := Visit.inside (functionNames params code)
    (scope, scope)
  | .handler, param :: _ => (.skipped, .inside param.boundNames)
  | .loop, parts | .loopIn, parts | .loopOf _, parts =>
    let scope := Visit.inside (headNames parts)
    (scope, scope)
  | _, _ => (.inside [], .inside [])

def Form.useOf : Form → List Node → Option (UseKind × String)
  | .identifier read, _ => some (.read, read)
  | .assign _, target :: _ => target.identifier?.map (.assigned, ·)
  | .update _ isPrefix, target :: _ => target.identifier?.map (.updated isPrefix, ·)
  | .call _, callee :: _ => callee.identifier?.map (.called, ·)
  | _, _ => none

/-- A walk through a script: the scopes that are open, the innermost first, and the uses of names met so far. -/
structure Walk where
  scopes : List (List String)
  found : List Use := []
  deriving Repr, DecidableEq

namespace Walk

def enter (w : Walk) (names : List String) : Walk := { w with scopes := names :: w.scopes }

def leave (w : Walk) : Walk := { w with scopes := w.scopes.tail }

def note (w : Walk) (context : List String) (use : Option (UseKind × String)) (span : Span) : Walk :=
  match use with
  | some (kind, name) => { w with found := w.found ++ [⟨kind, name, reachOf context w.scopes name, span⟩] }
  | none => w

end Walk

namespace Node

mutual
def walk (context : List String) : Node → Walk → Walk
  | node form span parts, w =>
    let (first, others) := form.surrounds parts
    walkParts context first others parts (w.note context (form.useOf parts) span)

/-- Walks the parts of a node, the first of which is walked in a way of its own. -/
def walkParts (context : List String) (first others : Visit) : List Node → Walk → Walk
  | [], w => w
  | n :: ns, w =>
    let w :=
      match first with
      | .skipped => w
      | .inside names => (walk context n (w.enter names)).leave
    walkParts context others others ns w
end

def uses (context : List String) (scopes : List (List String)) (n : Node) : List Use := (n.walk context ⟨scopes, []⟩).found

def contextUses (context : List String) (n : Node) : List Use := n.uses context []

def walkIsolated (context : List String) (n : Node) (w : Walk) : Walk :=
  (n.walk context (w.enter (scopeNames n.statements))).leave

def isolatedUses (context : List String) (n : Node) : List Use := (n.walkIsolated context ⟨[], []⟩).found

end Node
end ReactiveTemplate.Script
