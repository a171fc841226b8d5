import ReactiveTemplate.Text.Blank
import ReactiveTemplate.Markup.Escape
/-!
# Element — tags and their attributes

An attribute keeps the name it was written with, for output, and the name it is looked up by: trimmed, in lower case and
without a leading `data-`, `data:`, `x-` or `x:`.
-/
namespace ReactiveTemplate.Markup

structure Attribute where
  rawName : String
  name : String
  value : String
  space : Option String := none
  deriving Repr, DecidableEq, Inhabited

def nameMarks : List String := ["data-", "data:", "x-", "x:"]

def normalName (raw : String) : String :=
  let lowered := Text.lower (Text.trim raw)
  let proper := nameMarks.findSome? (fun mark =>
    match Text.dropStart? lowered mark with
    | some rest => if rest.isEmpty then none else some rest
    | none => none)
  proper.getD lowered

def nameSpace (raw : String) : Option String :=
  match Text.splitAt? raw ':' with
  | some (space, _) =>
    let space := Text.lower (Text.trim space)
    if space.isEmpty then none else some space
  | none => none

def Attribute.new (rawName value : String) : Attribute :=
  ⟨rawName, normalName rawName, value, nameSpace rawName⟩

def Attribute.withValue (a : Attribute) (value : String) : Attribute :=
  ⟨a.rawName, a.name, value, a.space⟩

def Attribute.render (a : Attribute) : String :=
  " " ++ a.rawName ++ (if a.value.isEmpty then "" else "=\"" ++ escapeValue a.value ++ "\"")

def renderAttributes (attributes : List Attribute) : String :=
  String.join (attributes.map Attribute.render)

structure Element where
  tag : String
  attributes : List Attribute := []
  deriving Repr, DecidableEq, Inhabited

def voidTags : List String :=
  ["area", "base", "br", "col", "embed", "hr", "img", "input", "keygen", "link", "meta", "param", "source",
   "track", "wbr"]

def verbatimTags : List String := ["script", "style"]

def setIn (attributes : List Attribute) (attr : Attribute) : List Attribute :=
  match attributes with
  | [] => [attr]
  | a :: rest => if a.name == attr.name then a.withValue attr.value :: rest else a :: setIn rest attr

def removeFrom (attributes : List Attribute) (name : String) : List Attribute :=
  attributes.eraseP (fun a => a.name == name)

def findIn (attributes : List Attribute) (name : String) : Option Attribute :=
  attributes.find? (fun a => a.name == name)

namespace Element

def new (tag : String) : Element := ⟨Text.lower tag, []⟩

def isVoid (e : Element) : Bool := voidTags.contains e.tag

def attribute? (e : Element) (name : String) : Option Attribute := findIn e.attributes name

def value? (e : Element) (name : String) : Option String := (e.attribute? name).map (·.value)

/-- Sets an attribute: the first one of that name keeps its written name and gets the value. -/
def set (e : Element) (rawName value : String) : Element :=
  ⟨e.tag, setIn e.attributes (Attribute.new rawName value)⟩

def remove (e : Element) (name : String) : Element :=
  ⟨e.tag, removeFrom e.attributes name⟩

def addClass (e : Element) (c : String) : Element :=
  let current := (e.value? "class").getD ""
  if (Text.words current).contains c then e
  else
    let trimmed := Text.trim current
    e.set "class" (if trimmed.isEmpty then c else trimmed ++ " " ++ c)

def opening (e : Element) : String := "<" ++ e.tag ++ renderAttributes e.attributes ++ ">"

def closing (e : Element) : String := "</" ++ e.tag ++ ">"

end Element
end ReactiveTemplate.Markup
