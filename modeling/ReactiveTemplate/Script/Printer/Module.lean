import ReactiveTemplate.Script.Declaration
import ReactiveTemplate.Script.Printer.Expression
/-!
# Module — writing imports and exports

A name that keeps its spelling on the way into or out of a module is written once.
-/
namespace ReactiveTemplate.Script.Printer

open Writer (text all when listed newline)

def interfaceName (name : InterfaceName) : String := if name.isQuoted then quoted name.text false else name.text

def importAttribute (a : ImportAttribute) : String := interfaceName a.key ++ ": " ++ quoted a.value a.lone

def moduleSource (source : ModuleSource) : Writer :=
  all [text (quoted source.path source.lone),
    match source.attributes with
    | none => Writer.none
    | some (keyword, []) => text (" " ++ keyword ++ " \x7b\x7d")
    | some (keyword, items) =>
      text (" " ++ keyword ++ " \x7b " ++ String.intercalate ", " (items.map importAttribute) ++ " \x7d")]

def renamed (name : InterfaceName) (target : String) (isSame : Bool) : String :=
  interfaceName name ++ (if isSame then "" else " as " ++ target)

def importedName? (p : Draft) : Option String :=
  match p.node.form with
  | .importSpecifier (.named name) localName => some (renamed name localName (name.text == localName))
  | _ => none

def importedWhole? (p : Draft) : Option String :=
  match p.node.form with
  | .importSpecifier .standard localName => some localName
  | .importSpecifier .everything localName => some ("* as " ++ localName)
  | _ => none

def bracedNames (names : List String) : String :=
  if names.isEmpty then "\x7b\x7d" else "\x7b " ++ String.intercalate ", " names ++ " \x7d"

def importedText (items : List Draft) : String :=
  let whole := items.filterMap importedWhole?
  let names := items.filterMap importedName?
  String.intercalate ", " (whole ++ (if whole.isEmpty || !names.isEmpty then [bracedNames names] else []))

def importFrom (source : ModuleSource) (phase : Option String) (isBare : Bool) (items : List Draft) : Writer :=
  all [text ("import " ++ (phase.map (· ++ " ")).getD ""), when (!isBare) (text (importedText items ++ " from ")),
    moduleSource source, text ";\n"]

def exportedName? (p : Draft) : Option String :=
  match p.node.form with
  | .exportSpecifier localName exported =>
    some (renamed localName (interfaceName exported) (localName.text == exported.text))
  | _ => none

def exportedDeclaration (p : Draft) (s : Setting) : Writer :=
  all [p.write s.part, match p.node.form with | .declaration _ => text ";\n" | _ => newline]

def exportNamed (source : Option ModuleSource) (drafts : List Draft) (s : Setting) : Writer :=
  let declaration := Draft.pick drafts 0
  if declaration.node.isAbsent then
    all [text ("export " ++ bracedNames (drafts.filterMap exportedName?)),
      match source with
      | none => Writer.none
      | some source => all [text " from ", moduleSource source],
      text ";\n"]
  else all [text "export ", exportedDeclaration declaration s]

def exportStandard (p : Draft) (s : Setting) : Writer :=
  all [text "export default ",
    if p.node.isDeclaration then exportedDeclaration p s
    else all [Writer.startStandard, p.write (.fresh Level.comma), text ";\n"]]

def exportAll (exported : Option InterfaceName) (source : ModuleSource) : Writer :=
  all [text "export *", text ((exported.map (fun name => " as " ++ interfaceName name)).getD ""), text " from ",
    moduleSource source, text ";\n"]

def exportMark (annotated : List Span) (p : Draft) : Writer :=
  when (p.node.isDeclaration && annotated.contains p.node.span) (text "/* @__NO_SIDE_EFFECTS__ */\n")

end ReactiveTemplate.Script.Printer
