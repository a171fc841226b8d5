import ReactiveTemplate.IndexedSet
import ReactiveTemplate.Json.Basic
import ReactiveTemplate.Text.Blank
import ReactiveTemplate.Text.Search
/-!
# Payload — the script that a component sends to the page

A payload collects what a component binds in numbered tables: elements, attributes, expressions, watchers, events and
the variables of its context.
-/
namespace ReactiveTemplate

def lifecycleHooks : List (String × String) :=
  [("OnMount", "a"), ("BeforeUpdate", "b"), ("AfterUpdate", "c"), ("BeforeRender", "d"), ("AfterRender", "e"),
   ("OnDestroy", "f"), ("OnConnect", "g"), ("OnDisconnect", "h"), ("OnEvent", "i"), ("OnError", "j")]

def quoteChar (c : Char) : List Char :=
  match c with
  | '\\' => ['\\', '\\']
  | '\'' => ['\\', '\'']
  | '\n' => ['\\', 'n']
  | '\r' => ['\\', 'r']
  | c => [c]

def singleQuote (s : String) : String := "'" ++ Text.flatMap s quoteChar ++ "'"

inductive TemplatePart where
  | literal (text : String)
  | expression (number : Nat)
  deriving Repr, DecidableEq

/-- An expression bound to an element or to one of its attributes, by number. -/
inductive Watcher where
  | text (element expression : Nat)
  | property (element attr expression : Nat)
  | template (element attr : Nat) (parts : List TemplatePart)
  deriving Repr, DecidableEq

def commas (items : List String) : String := String.intercalate ", " items

def TemplatePart.render : TemplatePart → String
  | literal text => singleQuote text
  | expression number => Number.natText number

def Watcher.render : Watcher → String
  | text element expression => "_$bind(" ++ commas ([element, expression].map Number.natText) ++ ")"
  | property element attr expression =>
    "_$bind_prop(" ++ commas ([element, attr, expression].map Number.natText) ++ ")"
  | template element attr parts =>
    "_$bind_prop_tpl(" ++ commas ([element, attr].map Number.natText) ++ ", [" ++
      commas (parts.map TemplatePart.render) ++ "])"

structure EventBinding where
  event : Nat
  element : Nat
  handler : Nat
  deriving Repr, DecidableEq

structure Payload where
  tag : String := ""
  file : String := ""
  line : Nat := 0
  elements : IndexedSet String := ⟨[]⟩
  attributes : IndexedSet String := ⟨[]⟩
  expressions : IndexedSet String := ⟨[]⟩
  watchers : IndexedSet Watcher := ⟨[]⟩
  eventNames : IndexedSet String := ⟨[]⟩
  handlers : IndexedSet String := ⟨[]⟩
  events : IndexedSet EventBinding := ⟨[]⟩
  vars : IndexedSet String := ⟨[]⟩
  dependents : List (Nat × List Nat) := []
  imports : List String := []
  body : String := ""
  hooks : List String := []
  exports : List (String × String) := []
  references : List (String × Nat) := []
  deriving Repr

namespace Payload

def dependentsOf (p : Payload) (number : Nat) : List Nat :=
  ((p.dependents.find? (fun entry => entry.1 == number)).map (·.2)).getD []

def addDependent (number watcher : Nat) : List (Nat × List Nat) → List (Nat × List Nat)
  | [] => [(number, [watcher])]
  | entry :: rest =>
    if entry.1 == number then
      (number, if entry.2.contains watcher then entry.2 else entry.2 ++ [watcher]) :: rest
    else entry :: addDependent number watcher rest

/-- Records that a watcher runs again when a variable changes; gives the number of the variable. -/
def link (p : Payload) (name : String) (watcher : Nat) : Nat × Payload :=
  let (number, vars) := p.vars.insert name
  (number, { p with vars, dependents := addDependent number watcher p.dependents })

def unwatched (p : Payload) : List String :=
  (p.vars.items.zipIdx.filter (fun (_, i) => !p.dependents.any (fun entry => entry.1 == i))).map (·.1)

/-! ## Writing -/

def tableText (key : String) (items : List String) : String :=
  if (commas items).isEmpty then "" else "    " ++ key ++ ": [" ++ commas items ++ "],\n"

def numbersText (ns : List Nat) : String := "[" ++ commas (ns.map Number.natText) ++ "]"

def tables (p : Payload) : String :=
  tableText "e" (p.elements.items.map singleQuote) ++
  tableText "t" (p.attributes.items.map singleQuote) ++
  tableText "o" (p.eventNames.items.map singleQuote) ++
  tableText "w" (p.watchers.items.map Watcher.render) ++
  tableText "v" ((List.range p.vars.size).map (fun i => numbersText (p.dependentsOf i))) ++
  tableText "a" (p.events.items.map (fun e => numbersText [e.event, e.element, e.handler]))

def hookText (hook : String) : String := ((lifecycleHooks.lookup hook).getD "") ++ ": " ++ hook

def exportText (names : String × String) : String :=
  if names.1 == names.2 then names.1 else names.1 ++ ": " ++ names.2

def callText (function : String) (entries : List String) : String :=
  if entries.isEmpty then "" else "      $." ++ function ++ "(\x7b " ++ commas entries ++ " \x7d);\n"

def resultText (p : Payload) : String :=
  let entry := fun (key : String) (items : List String) =>
    if items.isEmpty then [] else [key ++ ": [" ++ commas items ++ "]"]
  match entry "e" p.expressions.items ++ entry "h" p.handlers.items with
  | [] => "      return \x7b\x7d;\n"
  | entries => "      return \x7b " ++ commas entries ++ " \x7d;\n"

def functionText (p : Payload) : String :=
  "    i: function ($) \x7b\n      const [_$escape, _$i] = [STX.escape, $.invalidate];\n" ++
  (if (Text.trim p.body).isEmpty then "" else Text.trim p.body ++ "\n") ++
  callText "hooks" (p.hooks.map hookText) ++
  callText "exports" (p.exports.map exportText) ++
  String.join (p.references.map (fun (name, element) =>
    "      " ++ name ++ " = $.el(" ++ Number.natText element ++ ");\n")) ++
  p.resultText ++ "    \x7d\n"

def render (p : Payload) : String :=
  String.join (p.imports.map (fun line => Text.trim line ++ "\n")) ++
  "STX.r(" ++ singleQuote p.tag ++ ", function (STX) \x7b\n" ++
  "  const _$line = " ++ Number.natText p.line ++ "; const _$file = " ++ Json.quote p.file ++ ";\n" ++
  (if p.watchers.isEmpty then ""
   else "  const [_$bind, _$bind_prop, _$bind_prop_tpl] = [STX.bind, STX.bind_prop, STX.bind_prop_tpl];\n") ++
  "  return \x7b\n    f: _$file, l: _$line,\n" ++ p.tables ++ p.functionText ++ "  \x7d;\n\x7d);\n"

end Payload
end ReactiveTemplate
