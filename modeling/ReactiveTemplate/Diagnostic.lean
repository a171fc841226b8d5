import ReactiveTemplate.Text.Search
import ReactiveTemplate.Number.Decimal
/-!
# Diagnostic — what can go wrong, and how it is reported

`Fault` lists the causes for which a template is refused; its code, message and details are read off it in one place.
-/
namespace ReactiveTemplate

inductive Fault where
  | truncated (reason : String)
  | endTag (expected found : String)
  | unclosed (tag : String)
  | componentName
  | nestedComponent
  | manyStyles
  | styleLocation
  | manyScripts
  | scriptLocation
  | paramType (param type : String)
  | clientReference (param reference : String)
  | clientName (param : String)
  | redeclared (identifier : String)
  | paramCollision (identifier : String)
  | refName (name : String)
  | refDuplicated (name : String)
  | hostBinding (name : String)
  | script (source : String)
  | sideEffect (expression written : String) (via : Option String)
  | unsupported (expression reason : String)
  | cycle (start finish : String) (path reverse : List String)
  | assetCycle (start finish : String) (path reverse : List String)
  | assetDependency (asset dependency : String)
  | templateMissing (name root : String)
  | templateUnreadable (path : String)
  | custom (code message : String)
  deriving Repr, DecidableEq

namespace Fault

def code : Fault → String
  | truncated _ => "parse.tokenizer"
  | endTag _ _ | unclosed _ => "parse.endingTag"
  | componentName => "component.name"
  | nestedComponent => "component:nested"
  | manyStyles => "component:style:single"
  | styleLocation => "component:style:location"
  | manyScripts => "component:script:single"
  | scriptLocation => "component:script:location"
  | paramType _ _ => "component.param.type"
  | clientReference _ _ => "component.param.client.ref.notfound"
  | clientName _ => "component.param.client.name"
  | redeclared _ | paramCollision _ => "component.js.redeclaration"
  | refName _ => "component:js:ref:name"
  | refDuplicated _ => "component:js:ref:duplicated"
  | hostBinding _ => "component.host.binding"
  | script _ => "js.parse"
  | sideEffect _ _ _ => "js:interpolation:sideeffect"
  | unsupported _ _ => "js:interpolation:unsupported"
  | cycle _ _ _ _ => "graph.circulardep"
  | assetCycle _ _ _ _ => "asset.graph.circulardep"
  | assetDependency _ _ => "asset.dependency.notfound"
  | templateMissing _ _ => "template.notfound"
  | templateUnreadable _ => "template.read"
  | custom code _ => code

def message : Fault → String
  | truncated _ => "Unexpected end of template"
  | endTag _ found => "Unexpected end tag </" ++ found ++ ">"
  | unclosed tag => "Unclosed tag <" ++ tag ++ ">"
  | componentName => "Component is missing a name"
  | nestedComponent => "Components cannot be nested"
  | manyStyles => "Component has more than one <style>"
  | styleLocation => "<style> must be an immediate child of <component>"
  | manyScripts => "Component has more than one <script>"
  | scriptLocation => "<script> must be an immediate child of <component>"
  | paramType _ _ => "Unknown parameter type"
  | clientReference _ _ => "Client parameter references an unknown server parameter"
  | clientName _ => "Invalid client parameter name"
  | redeclared _ => "Identifier is already declared"
  | paramCollision _ => "Client parameter collides with a reference"
  | refName _ => "Invalid reference name"
  | refDuplicated _ => "Duplicated reference name"
  | hostBinding _ => "Component element attributes cannot bind"
  | script _ => "Invalid JavaScript"
  | sideEffect _ _ _ => "Interpolation must not modify component state"
  | unsupported _ _ => "Interpolation cannot be evaluated on the server"
  | cycle _ _ _ _ | assetCycle _ _ _ _ => "Circular dependency detected"
  | assetDependency _ _ => "Asset depends on an unknown asset"
  | templateMissing _ _ => "Template not found"
  | templateUnreadable _ => "Failed to read template: stream did not contain valid UTF-8"
  | custom _ message => message

def details : Fault → List (String × String)
  | truncated reason => [("reason", reason)]
  | endTag expected found => [("expected", expected), ("found", found)]
  | unclosed tag => [("expected", "</" ++ tag ++ ">"), ("found", "end of input")]
  | paramType param type => [("param", param), ("type", type)]
  | clientReference param reference => [("param", param), ("reference", reference)]
  | clientName param => [("param", param)]
  | redeclared identifier | paramCollision identifier => [("identifier", identifier)]
  | refName name | refDuplicated name => [("ref", name)]
  | hostBinding name => [("attribute", name)]
  | script source => [("source", source)]
  | sideEffect expression written via =>
    [("expression", expression), ("variable", written)] ++ (via.map (fun f => ("function", f))).toList
  | unsupported expression reason => [("expression", expression), ("reason", reason)]
  | cycle start finish path reverse | assetCycle start finish path reverse =>
    [("from", start), ("to", finish), ("path", String.intercalate " -> " path),
     ("reverse", String.intercalate " -> " reverse)]
  | assetDependency asset dependency => [("asset", asset), ("dependency", dependency)]
  | templateMissing name root => [("name", name), ("root", root)]
  | templateUnreadable path => [("path", path)]
  | componentName | nestedComponent | manyStyles | styleLocation | manyScripts | scriptLocation | custom _ _ => []

end Fault

def hintFor (code : String) : String :=
  match code with
  | "parse.tokenizer" => "The template ended inside an unterminated tag or comment."
  | "parse.endingTag" => "Every start tag must be closed by a matching end tag."
  | "component.name" => "A component must declare a name attribute."
  | "component:nested" => "Components cannot be declared inside other components."
  | "component:style:single" => "A component accepts at most one <style> block."
  | "component:style:location" => "<style> must be an immediate child of <component>."
  | "component:script:single" => "A component accepts at most one <script> block."
  | "component:script:location" => "<script> must be an immediate child of <component>."
  | "component.param.type" => "Parameter types are string, number, bool, array, object, function or unknown."
  | "component.param.client.ref.notfound" => "A client parameter reference must name an existing server parameter."
  | "component.param.client.name" => "Client parameter names cannot be reserved or start with '_$'."
  | "component.js.redeclaration" => "Each identifier may be declared once per component."
  | "component:js:ref:name" => "Reference names cannot be reserved or start with '_$'."
  | "component:js:ref:duplicated" => "Reference names must be unique within a component."
  | "component.host.binding" =>
    "The <component> element accepts plain attributes only; bind events and values on its children."
  | "js.parse" => "The JavaScript source could not be parsed."
  | "js:interpolation:sideeffect" => "Interpolations must not write component variables."
  | "js:interpolation:unsupported" => "Server-rendered interpolations support literals, lookups and operators only."
  | "asset.graph.circulardep" => "Dependencies must form an acyclic graph."
  | "graph.circulardep" => "Dependencies must form an acyclic graph."
  | "asset.dependency.notfound" => "Assets may only depend on registered assets."
  | "template.notfound" => "No template with this name exists under the loader root."
  | "template.read" => "The template file could not be read."
  | _ => "Unknown error."

structure Diagnostic where
  fault : Fault
  added : List (String × String) := []
  file : String := ""
  line : Nat := 0
  column : Nat := 0
  deriving Repr, DecidableEq

namespace Diagnostic

def at_ (d : Diagnostic) (file : String) (line column : Nat) : Diagnostic :=
  ⟨d.fault, d.added, file, line, column⟩

def locate (d : Diagnostic) (file : String) (line column : Nat) : Diagnostic :=
  if d.file.isEmpty then d.at_ file line column else d

def detail (d : Diagnostic) (key value : String) : Diagnostic :=
  ⟨d.fault, d.added ++ [(key, value)], d.file, d.line, d.column⟩

def code (d : Diagnostic) : String := d.fault.code

def message (d : Diagnostic) : String := d.fault.message

def hint (d : Diagnostic) : String := hintFor d.code

def details (d : Diagnostic) : List (String × String) := d.fault.details ++ d.added

def get? (d : Diagnostic) (key : String) : Option String :=
  (d.details.find? (fun entry => entry.1 == key)).map (·.2)

def entryText (entry : String × String) : String :=
  entry.1 ++ ": '" ++ Text.escapeWith '\\' (· == '\'') entry.2 ++ "'"

def entries (d : Diagnostic) : List (String × String) :=
  d.details ++
    (if d.file.isEmpty then []
     else [("file", d.file), ("line", Number.natText d.line), ("column", Number.natText d.column)])

def text (d : Diagnostic) : String :=
  "[" ++ d.code ++ "] " ++ d.message ++ (if Text.endsWith d.message '.' then "" else ".") ++
    (if d.entries.isEmpty then "" else " \x7b " ++ String.intercalate ", " (d.entries.map entryText) ++ " \x7d")

end Diagnostic

def Fault.toDiagnostic (f : Fault) : Diagnostic := ⟨f, [], "", 0, 0⟩

instance : Coe Fault Diagnostic := ⟨Fault.toDiagnostic⟩

end ReactiveTemplate
