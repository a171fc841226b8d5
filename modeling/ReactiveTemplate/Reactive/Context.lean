import ReactiveTemplate.Expression.Summary
/-!
# Context — the variables of a component and the effects of its functions

The context of a component is what its script declares at top level and what is put in front of it: references and
parameters.
-/
namespace ReactiveTemplate

structure Effects where
  writes : List String := []
  calls : List String := []
  deriving Repr, DecidableEq

namespace Effects

def ofNode (declared : List String) (n : Script.Node) : Effects :=
  let uses := (n.contextUses declared).filter (fun u => u.reach == .context)
  { writes := (uses.filter (·.isWrite)).map (·.name)
    calls := (uses.filter (fun u => u.kind == .called)).map (·.name) }

end Effects

structure Context where
  declared : List String := []
  /-- The effects of functions; of two entries for one name the later one counts. -/
  effects : List (String × Effects) := []
  deriving Repr, DecidableEq

namespace Context

def functionOf? (declarator : Script.Node) : Option (String × Script.Node) :=
  match (declarator.part 1).form with
  | .arrow _ _ | .function _ _ _ => (declarator.part 0).binding?.map (fun name => (name, declarator.part 1))
  | _ => none

def declaredFunctions (declaration : Script.Node) : List (String × Script.Node) :=
  match declaration.form with
  | .function _ _ _ => declaration.declaredName.map (fun name => (name, declaration))
  | .declaration _ => declaration.parts.filterMap functionOf?
  | _ => []

def functionsOf (statement : Script.Node) : List (String × Script.Node) :=
  match statement.form with
  | .exportNamed _ => declaredFunctions (statement.part 0)
  | _ => declaredFunctions statement

def ofProgram (injected : List String) (program : Script.Node) : Context :=
  let declared := (injected ++ Script.Node.scopeNames program.statements).eraseDups
  { declared
    effects := (program.statements.flatMap functionsOf).map (fun (name, f) => (name, Effects.ofNode declared f)) }

def isDeclared (c : Context) (name : String) : Bool := c.declared.contains name

def effectsOf? (c : Context) (name : String) : Option Effects :=
  (c.effects.reverse.find? (fun e => e.1 == name)).map (·.2)

def readBy (c : Context) (s : Summary) : List String := s.free.filter c.isDeclared

def writtenBy? (c : Context) (name : String) : Option String :=
  (c.effectsOf? name).bind (·.writes.head?)

/-- A variable that a call changes, and the function that does it: the one called or one that it calls. -/
def writtenThrough? (c : Context) (callee : String) : Option (String × String) :=
  match c.writtenBy? callee with
  | some written => some (written, callee)
  | none =>
    (((c.effectsOf? callee).map (·.calls)).getD []).findSome? (fun inner =>
      (c.writtenBy? inner).map (fun written => (written, inner)))

def refuseEffects (c : Context) (s : Summary) : Except Fault Unit :=
  match s.freeWrites.find? c.isDeclared with
  | some written => .error (.sideEffect s.source written none)
  | none =>
    match s.calls.findSome? c.writtenThrough? with
    | some (written, function) => .error (.sideEffect s.source written (some function))
    | none => .ok ()

end Context
end ReactiveTemplate
