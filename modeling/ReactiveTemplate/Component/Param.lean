import ReactiveTemplate.Diagnostic
import ReactiveTemplate.Interpolation
import ReactiveTemplate.Markup.Element
import ReactiveTemplate.Reactive.Payload
import ReactiveTemplate.Text.Case
/-!
# Param — the parameters of a component

A component declares parameters by attributes of its element: `param-name="type"` for the server and
`client-param-name="type"` for the page.
-/
namespace ReactiveTemplate.Component

def reservedNames : List String := ["STX", "$", "push", "watch", "tick"]

def isReserved (name : String) : Bool :=
  Text.startsWith name "_$" || reservedNames.contains name || (lifecycleHooks.map (·.1)).contains name

def isNameStart (c : Char) : Bool := c.isAlpha || c == '_' || c == '$'

def isIdentifier (name : String) : Bool :=
  match name.toList with
  | c :: cs => isNameStart c && cs.all (fun c => isNameStart c || c.isDigit)
  | [] => false

def isAllowed (name : String) : Bool := isIdentifier name && !isReserved name

def mapFirst (f : Char → List Char) : List Char → List Char
  | c :: cs => f c ++ cs
  | [] => []

/-- A name with dashes or underscores between its words, written as one word: `user-name` is `userName`. -/
def lowerCamel (name : String) : String :=
  match Text.runs (fun c => c == '-' || c == '_') name.toList with
  | [] => ""
  | first :: rest => String.ofList (mapFirst Text.lowerOf first ++ rest.flatMap (mapFirst Text.upperOf))

inductive ParamType where
  | string
  | number
  | bool
  | array
  | object
  | function
  | unknown
  deriving Repr, DecidableEq

namespace ParamType

def ofName? : String → Option ParamType
  | "string" => some string
  | "number" => some number
  | "bool" | "boolean" => some bool
  | "array" => some array
  | "object" => some object
  | "function" => some function
  | "unknown" | "" => some unknown
  | _ => none

def name : ParamType → String
  | string => "string"
  | number => "number"
  | bool => "bool"
  | array => "array"
  | object => "object"
  | function => "function"
  | unknown => "unknown"

end ParamType

structure Param where
  name : String
  type : ParamType
  isOptional : Bool
  reference : Option String := none
  deriving Repr, DecidableEq

namespace Param

def read (name value : String) (isClient : Bool) : Except Fault Param :=
  let value := Text.trim value
  let (isOptional, value) :=
    match Text.dropStart? value "?" with
    | some rest => (true, Text.trim rest)
    | none => (false, value)
  match (if isClient then Text.dropStart? value "@" else none) with
  | some target => .ok ⟨name, .unknown, isOptional, some (lowerCamel (Text.trim target))⟩
  | none =>
    match ParamType.ofName? value with
    | some type => .ok ⟨name, type, isOptional, none⟩
    | none => .error (.paramType name value)

def resolve (server : List Param) (p : Param) : Except Fault Param :=
  match p.reference with
  | none => .ok p
  | some target =>
    match server.find? (fun s => s.name == target) with
    | some source => .ok { p with type := source.type, isOptional := source.isOptional }
    | none => .error (.clientReference p.name target)

end Param

structure Params where
  server : List Param := []
  client : List Param := []
  deriving Repr, DecidableEq

namespace Params

def add (ps : Params) (a : Markup.Attribute) : Except Fault Params :=
  match Text.dropStart? a.name "client-param-" with
  | some raw =>
    let name := lowerCamel raw
    if isAllowed name then (Param.read name a.value true).map (fun p => { ps with client := ps.client ++ [p] })
    else .error (.clientName name)
  | none =>
    match Text.dropStart? a.name "param-" with
    | some raw => (Param.read (lowerCamel raw) a.value false).map (fun p => { ps with server := ps.server ++ [p] })
    | none => .ok ps

def ofElement (e : Markup.Element) : Except Fault Params := do
  let ps ← e.attributes.foldlM add {}
  let client ← ps.client.mapM (Param.resolve ps.server)
  return { ps with client }

end Params

/-! ## The element of a component -/

def isConsumed (name : String) : Bool :=
  name == "name" || name == "element" || Text.startsWith name "param-" || Text.startsWith name "client-param-"

def isEvent (name : String) : Bool := decide (2 < name.utf8ByteSize) && Text.startsWith name "on"

/-- Refuses an attribute of the component's element that would have to be bound. -/
def checkHost (e : Markup.Element) : Except Fault Unit :=
  let isBound := fun (a : Markup.Attribute) =>
    !isConsumed a.name && (isEvent a.name || Interpolation.hasMarkers a.value)
  match e.attributes.find? isBound with
  | some a => .error (.hostBinding a.name)
  | none => .ok ()

end ReactiveTemplate.Component
