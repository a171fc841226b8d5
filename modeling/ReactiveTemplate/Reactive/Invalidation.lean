import ReactiveTemplate.Diagnostic
import ReactiveTemplate.IndexedSet
import ReactiveTemplate.Reactive.Edit
import ReactiveTemplate.Script.Parse
import ReactiveTemplate.Script.Scope
/-!
# Invalidation — telling the page that a variable changed

Every write to a variable of the context is wrapped in a call `_$i(number, variable, write)`, through which the page
learns of the change.
-/
namespace ReactiveTemplate

def standardExport : String := "_$default"

namespace Invalidation

def wrapping (number : Nat) (u : Script.Use) : List Edit :=
  let before := "_$i(" ++ Number.natText number ++ ", " ++ u.name ++ ", "
  match u.kind with
  | .updated false => Edit.wrap u.span.start u.span.stop (before ++ "(") (", " ++ u.name ++ "))")
  | _ => Edit.wrap u.span.start u.span.stop before ")"

def ofUses (vars : IndexedSet String) : List Script.Use → List Edit × IndexedSet String
  | [] => ([], vars)
  | u :: us =>
    if u.isWrite && u.reach == .context then
      let (number, vars) := vars.insert u.name
      let (edits, vars) := ofUses vars us
      (wrapping number u ++ edits, vars)
    else ofUses vars us

end Invalidation

def instrumentSnippet (source : String) (context : List String) (vars : IndexedSet String) :
    Except Fault (String × IndexedSet String) :=
  match Script.parseProgram? source with
  | none => .error (.script (Text.trim source))
  | some program =>
    let (edits, vars) := Invalidation.ofUses vars (program.root.isolatedUses context)
    .ok (Edit.apply source edits, vars)

structure InstrumentedScript where
  body : String
  imports : List String := []
  exports : List (String × String) := []
  deriving Repr, DecidableEq

namespace InstrumentedScript

structure Part where
  imports : List String := []
  exports : List (String × String) := []
  edits : List Edit := []

def moved (source : List Char) (span : Script.Span) : Part where
  imports := [String.ofList ((source.drop span.start).take (span.stop - span.start))]
  edits := [Edit.replace span.start span.stop ""]

def standard (statement : Script.Node) : Part :=
  let declaration := statement.part 0
  let cut := Edit.replace statement.span.start declaration.span.start
  match (if declaration.isDeclaration then declaration.declaredName else []) with
  | name :: _ => { exports := [("default", name)], edits := [cut ""] }
  | [] => { exports := [("default", standardExport)], edits := [cut ("const " ++ standardExport ++ " = ")] }

def specifier? (n : Script.Node) : Option (String × String) :=
  match n.form with
  | .exportSpecifier localName exported => some (exported.text, localName.text)
  | _ => none

def ofStatement (source : List Char) (statement : Script.Node) : Part :=
  match statement.form with
  | .importFrom _ _ _ | .exportAll _ _ | .exportNamed (some _) => moved source statement.span
  | .exportNamed none =>
    let declaration := statement.part 0
    if declaration.isAbsent then
      { exports := statement.parts.filterMap specifier?
        edits := [Edit.replace statement.span.start statement.span.stop ""] }
    else
      { exports := statement.lexicalNamesOf.map (fun name => (name, name))
        edits := [Edit.replace statement.span.start declaration.span.start ""] }
  | .exportDefault => standard statement
  | _ => {}

end InstrumentedScript

def instrumentScript (source : String) (context : List String) (vars : IndexedSet String) :
    Except Fault (InstrumentedScript × IndexedSet String) :=
  match Script.parseProgram? source with
  | none => .error (.script (Text.trim source))
  | some program =>
    let parts := program.root.statements.map (InstrumentedScript.ofStatement source.toList)
    let (edits, vars) := Invalidation.ofUses vars (program.root.contextUses context)
    .ok ({ body := Text.trim (Edit.apply source (parts.flatMap (·.edits) ++ edits))
           imports := parts.flatMap (·.imports)
           exports := parts.flatMap (·.exports) }, vars)

end ReactiveTemplate
