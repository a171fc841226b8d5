import ReactiveTemplate.Component.Param
import ReactiveTemplate.Markup.Tree
import ReactiveTemplate.Reactive.Context
import ReactiveTemplate.Reactive.Invalidation
/-!
# Source — the parts of a component

A component is a template with at most one script and one style sheet, which stand directly in its element.  Components
do not contain each other.
-/
namespace ReactiveTemplate.Component

open Markup (Tree)

def faultAt (file : String) (t : Tree) (fault : Fault) : Diagnostic :=
  fault.toDiagnostic.locate file t.position.line t.position.column

def single (file tag : String) (many misplaced : Fault) (children : List Tree) :
    Except Diagnostic (Option Tree) :=
  match (Tree.preorderAll children).filter (fun t => t.tag? == some tag) with
  | [] => .ok none
  | [t] =>
    if children.any (fun c => c.tag? == some tag) then .ok (some t) else .error (faultAt file t misplaced)
  | _ :: t :: _ => .error (faultAt file t many)

/-- The script and the style sheet of a component, and its template without them. -/
structure Parts where
  script : Option Tree
  style : Option Tree
  template : List Tree

namespace Parts

def emptied (t : Tree) : Tree :=
  if t.tag? == some "script" || t.tag? == some "style" then Tree.leaf (.raw "") t.position else t

def ofChildren (file : String) (children : List Tree) : Except Diagnostic Parts := do
  match (Tree.preorderAll children).find? (fun t => t.tag? == some "component") with
  | some t => throw (faultAt file t .nestedComponent)
  | none =>
    let style ← single file "style" .manyStyles .styleLocation children
    let script ← single file "script" .manyScripts .scriptLocation children
    return ⟨script, style, children.map emptied⟩

def scriptText (p : Parts) : String := (p.script.map Tree.textContent).getD ""

def styleText (p : Parts) : String := Text.trim ((p.style.map Tree.textContent).getD "")

end Parts

/-! ## The script -/

def paramDeclaration (p : Param) : String :=
  "let " ++ p.name ++ " = $.params[" ++ singleQuote p.name ++ "];\n"

def paramUpdates (client : List Param) : String :=
  if client.isEmpty then ""
  else
    let updates := client.map (fun p => p.name ++ " = _$p[" ++ singleQuote p.name ++ "];")
    "$.onChangeParams((_$p) => \x7b " ++ String.intercalate " " updates ++ " \x7d);\n"

def contextSource (references : List String) (client : List Param) (script : String) : String :=
  (if references.isEmpty then "" else "let " ++ commas references ++ ";\n") ++
    String.join (client.map paramDeclaration) ++ paramUpdates client ++ Text.trim script

/-- The lifecycle hooks that a script declares; refuses a script that declares an injected name again. -/
def hooksOf (script : String) (injected : List String) : Except Fault (List String) :=
  match Script.parseProgram? script with
  | none => .error (.script (Text.trim script))
  | some program =>
    let declared := Script.Node.scopeNames program.root.statements
    match declared.find? injected.contains with
    | some name => .error (.redeclared name)
    | none => .ok ((lifecycleHooks.map (·.1)).filter declared.contains)

structure Analysed where
  context : Context
  script : InstrumentedScript
  vars : IndexedSet String

def analyse (source : String) (injected : List String) : Except Fault Analysed := do
  match Script.parseProgram? source with
  | none => throw (.script (Text.trim source))
  | some program =>
    let context := Context.ofProgram injected program.root
    let (script, vars) ← instrumentScript source context.declared IndexedSet.empty
    return ⟨context, script, vars⟩

end ReactiveTemplate.Component
