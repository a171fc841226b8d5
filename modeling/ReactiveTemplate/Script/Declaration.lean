import ReactiveTemplate.Script.Tree
/-!
# Declaration — the names that statements declare

`boundNames` are the names of a pattern, `lexicalNames` those that a list of statements declares in its own block, and
`scopeNames` those of a whole function or program, where `var` reaches up from inner blocks.
-/
namespace ReactiveTemplate.Script.Node

mutual
def boundNames : Node → List String
  | node (.binding name) _ _ => [name]
  | node .defaulted _ parts => firstBoundNames parts
  | node (.patternProperty _ _) _ parts => laterBoundNames parts
  | node .arrayPattern _ parts => allBoundNames parts
  | node .objectPattern _ parts => allBoundNames parts
  | node .rest _ parts => allBoundNames parts
  | node .parameters _ parts => allBoundNames parts
  | _ => []

def allBoundNames : List Node → List String
  | [] => []
  | n :: ns => boundNames n ++ allBoundNames ns

def firstBoundNames : List Node → List String
  | [] => []
  | n :: _ => boundNames n

def laterBoundNames : List Node → List String
  | [] => []
  | _ :: ns => allBoundNames ns
end

def variableNames (declaration : Node) : List String :=
  declaration.parts.flatMap (fun d => (d.part 0).boundNames)

def declaredName (n : Node) : List String :=
  match n.form with
  | .function _ _ _ => (n.part 0).boundNames
  | .classOf _ => (n.part 1).boundNames
  | _ => []

def exportedNames (n : Node) : List String :=
  match n.form with
  | .declaration _ => n.variableNames
  | _ => n.declaredName

def isDeclaration (n : Node) : Bool :=
  match n.form with
  | .function false _ _ | .classOf false => true
  | _ => false

def lexicalNamesOf (n : Node) : List String :=
  match n.form with
  | .declaration .hoisted => []
  | .declaration _ => n.variableNames
  | .function _ _ _ | .classOf _ => n.declaredName
  | .importFrom _ _ _ =>
    n.parts.filterMap (fun s => match s.form with | .importSpecifier _ name => some name | _ => none)
  | .exportNamed _ => (n.part 0).exportedNames
  | .exportDefault => if (n.part 0).isDeclaration then (n.part 0).declaredName else []
  | _ => []

def lexicalNames (statements : List Node) : List String := statements.flatMap lexicalNamesOf

mutual
/-- The names of `var` declarations in a statement that reach up to the enclosing function. -/
def hoistedNames : Node → List String
  | node (.declaration declared) span parts =>
    if declared = .hoisted then variableNames (node (.declaration declared) span parts) else []
  | node (.function _ _ _) _ _ | node (.arrow _ _) _ _ | node (.classOf _) _ _ => []
  | node _ _ parts => allHoistedNames parts

def allHoistedNames : List Node → List String
  | [] => []
  | n :: ns => hoistedNames n ++ allHoistedNames ns
end

def scopeNames (statements : List Node) : List String := lexicalNames statements ++ allHoistedNames statements

def interfaceNames (n : Node) : List String :=
  match n.form with
  | .exportNamed _ =>
    (n.part 0).exportedNames ++
      n.parts.filterMap (fun s => match s.form with | .exportSpecifier _ exported => some exported.text | _ => none)
  | .exportDefault => ["default"]
  | .exportAll exported _ => (exported.map (·.text)).toList
  | _ => []

end ReactiveTemplate.Script.Node
