import ReactiveTemplate.Interpolation
import ReactiveTemplate.Template.Compiled
/-!
# Directive — what elements and attributes do

A directive is matched by the tag of an element or by the name of an attribute.
-/
namespace ReactiveTemplate

inductive Transclude where
  | nothing
  | children
  /-- The element itself, with only the directives of lower priority. -/
  | element
  /-- The children by tag, each tag with the name of its slot; what is left over is the default slot. -/
  | slots (entries : List (String × String))
  deriving Repr, DecidableEq

/-- A single thing that a directive of the host application does when its element is compiled. -/
inductive CompileStep where
  | set (name value : String)
  | remove (name : String)
  | addClass (name : String)
  | appendText (text : String)
  | hash (name : String)
  | file (name : String)
  | children
  | nest
  | fail (code message : String)
  | methods (process : List RenderStep) (leave : Option (List RenderStep))
  deriving Repr, DecidableEq

inductive Behaviour where
  | conditionElement
  | conditionAttribute
  | component
  | interpolation
  /-- A directive of the host application, which leaves its label in the log. -/
  | custom (label : String) (steps : List CompileStep)
  deriving Repr, DecidableEq

structure Directive where
  name : String
  onElement : Bool := false
  onAttribute : Bool := false
  priority : Nat := 0
  isTerminal : Bool := false
  transclude : Transclude := .nothing
  behaviour : Option Behaviour := none
  methods : Methods := {}
  deriving Repr

namespace Directive

def maxPriority : Nat := Nat.pow 2 32 - 1

def clampPriority (n : Int) : Nat := min (max n 0).toNat maxPriority

/-- Whether a directive runs no later than another: by priority, terminal ones last. -/
def precedes (a b : Directive) : Bool :=
  decide (a.priority < b.priority) || (a.priority == b.priority && (!a.isTerminal || b.isTerminal))

def restriction (d : Directive) : Nat := (if d.onElement then 1 else 0) + (if d.onAttribute then 2 else 0)

def ifElement : Directive where
  name := "if"
  onElement := true
  priority := 600
  isTerminal := true
  transclude := .children
  behaviour := some .conditionElement

def ifAttribute : Directive where
  name := "if"
  onAttribute := true
  priority := 599
  isTerminal := true
  transclude := .element
  behaviour := some .conditionAttribute

def component : Directive where
  name := "component"
  onElement := true
  priority := 1000
  isTerminal := true
  behaviour := some .component

def interpolate : Directive where
  name := "interpolate"
  onAttribute := true
  behaviour := some .interpolation

end Directive

structure Registry where
  levels : List (List Directive) := []
  deriving Repr

namespace Registry

def empty : Registry := ⟨[[]]⟩

def standard : Registry := ⟨[[Directive.ifElement, Directive.ifAttribute, Directive.component]]⟩

def child (r : Registry) (directives : List Directive) : Registry := ⟨r.levels ++ [directives]⟩

def directives (r : Registry) : List Directive := r.levels.flatten

def forElement (r : Registry) (tag : String) : List Directive :=
  r.directives.filter (fun d => d.onElement && d.name == tag)

def forAttribute (r : Registry) (name : String) : List Directive :=
  r.directives.filter (fun d => d.onAttribute && d.name == name)

end Registry

structure Candidate where
  directive : Directive
  attr : Option Markup.Attribute := none
  deriving Repr

namespace Candidate

def ofAttribute (r : Registry) (a : Markup.Attribute) : List Candidate :=
  (r.forAttribute a.name).map (fun d => ⟨d, some a⟩) ++
    (if Interpolation.hasMarkers a.value then [⟨Directive.interpolate, some a⟩] else [])

def all (r : Registry) (e : Markup.Element) : List Candidate :=
  (r.forElement e.tag).map (fun d => ⟨d, none⟩) ++ e.attributes.flatMap (ofAttribute r)

def isBelow (limit : Option Nat) (priority : Nat) : Bool := (limit.map (fun l => decide (priority < l))).getD true

def cutOff (cs : List Candidate) : Nat :=
  ((cs.filter (·.directive.isTerminal)).map (·.directive.priority)).foldl max 0

/-- The directives that run on an element, in order: those below the limit that no terminal one shuts out. -/
def select (r : Registry) (limit : Option Nat) (e : Markup.Element) : List Candidate :=
  let found := (all r e).filter (fun c => isBelow limit c.directive.priority)
  let sorted := found.mergeSort (fun a b => a.directive.precedes b.directive)
  sorted.filter (fun c => decide (cutOff sorted ≤ c.directive.priority))

end Candidate
end ReactiveTemplate
