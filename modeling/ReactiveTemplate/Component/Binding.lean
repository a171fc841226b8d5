import ReactiveTemplate.Component.Param
import ReactiveTemplate.Markup.Tree
import ReactiveTemplate.Reactive.Handler
/-!
# Binding — what a component's template binds on the page

Nothing of a component's template is evaluated on the server.
-/
namespace ReactiveTemplate.Component

open Markup (Tree Element Attribute)

structure Site where
  file : String
  context : Context
  assetOf : String → Option String

structure Binder where
  sequence : Sequence
  payload : Payload
  dependencies : List String := []

abbrev Binding := StateT Binder (Except Diagnostic)

namespace Binding

def modifyPayload (f : Payload → Payload) : Binding Unit :=
  modify (fun b => { b with payload := f b.payload })

def insertElement (handle : String) : Binding Nat := do
  let b ← get
  let (number, elements) := b.payload.elements.insert handle
  set { b with payload := { b.payload with elements } }
  return number

def orFault {α : Type} : Except Fault α → Binding α
  | .ok a => pure a
  | .error fault => throw fault.toDiagnostic

def reporting {α : Type} (f : Diagnostic → Diagnostic) (step : Binding α) : Binding α :=
  fun b => (step b).mapError f

def located {α : Type} (file : String) (position : Position) (step : Binding α) : Binding α :=
  reporting (fun d => d.locate file position.line position.column) step

/-! ## References -/

def referenceHandle (s : Sequence) (value : String) : String := s.referenceHandle (lowerCamel (Text.trim value))

/-- Enters the reference that an element has, if it has one; `names` are those before it. -/
def reference (file : String) (names : List String) (t : Tree) : Binding (List String) :=
  match t.element?.bind (·.value? "ref") with
  | none => return names
  | some value => located file t.position (do
    let name := lowerCamel (Text.trim value)
    if !isAllowed name then throw (Fault.refName name).toDiagnostic
    if names.contains name then throw (Fault.refDuplicated name).toDiagnostic
    let number ← insertElement (referenceHandle (← get).sequence value)
    modifyPayload (fun p => { p with references := p.references ++ [(name, number)] })
    return names ++ [name])

def references (file : String) (template : List Tree) : Binding (List String) :=
  (Tree.preorderAll template).foldlM (reference file) []

/-! ## Expressions -/

/-- An expression with its number and the variables of the context that it reads. -/
structure Bound where
  number : Nat
  vars : List String

def expression (site : Site) (source : String) (isEscaped : Bool) : Binding Bound := do
  let summary ← orFault (Summary.ofSource source)
  orFault (site.context.refuseEffects summary)
  let wrapped := (if isEscaped then "_$escape(" else "(") ++ summary.source ++ ")"
  let b ← get
  let (number, expressions) := b.payload.expressions.insert ("() => " ++ wrapped)
  set { b with payload := { b.payload with expressions } }
  return ⟨number, site.context.readBy summary⟩

def watch (watcher : Watcher) (vars : List String) : Binding Unit :=
  modifyPayload (fun p =>
    let (number, watchers) := p.watchers.insert watcher
    vars.foldl (fun p name => (p.link name number).2) { p with watchers })

def scanText (s : String) : Binding (List Piece) := do
  let b ← get
  let (scanned, sequence) := scan s b.sequence
  set { b with sequence }
  return scanned.parts

/-! ## Texts -/

def embed (placeholder : String) : Element := ((Element.new "embed").set "hidden" "").set "class" placeholder

def textPiece (site : Site) (position : Position) : Piece → Binding Tree
  | .literal s => return Tree.leaf (.text s) position
  | .expression found => do
    let element ← insertElement found.placeholder
    let bound ← located site.file position (expression site found.expression found.isSafe)
    watch (.text element bound.number) bound.vars
    return Tree.leaf (.element (embed found.placeholder)) position

def text (site : Site) (position : Position) (s : String) : Binding (List Tree) := do
  let pieces ← scanText s
  pieces.mapM (textPiece site position)

/-! ## Attributes -/

/-- An element that is being bound, with its number and its handle class once it has one. -/
structure Target where
  element : Element
  handle : Option (Nat × String) := none

def numbered (t : Target) : Binding (Nat × Target) := do
  match t.handle with
  | some (number, _) => return (number, t)
  | none =>
    let b ← get
    let (handle, sequence) := b.sequence.elementHandle
    set { b with sequence }
    let number ← insertElement handle
    return (number, ⟨t.element.addClass handle, some (number, handle)⟩)

/-- Binds a piece of an attribute value; gives the variables that it reads, too. -/
def templatePiece (site : Site) : Piece → Binding (TemplatePart × List String)
  | .literal s => return (.literal s, [])
  | .expression found => do
    let bound ← expression site found.expression found.isSafe
    return (.expression bound.number, bound.vars)

def wholeValue? : List Piece → Option Interpolation
  | [.expression found] => if found.isFullContent then some found else none
  | _ => none

def attributeValue (site : Site) (isComponent : Bool) (t : Target) (a : Attribute) : Binding Target := do
  let (element, t) ← numbered t
  let b ← get
  let (attr, attributes) := b.payload.attributes.insert a.name
  set { b with payload := { b.payload with attributes } }
  let pieces ← scanText a.value
  match wholeValue? pieces with
  | some found =>
    let bound ← expression site found.expression (found.isSafe && !isComponent)
    watch (.property element attr bound.number) bound.vars
  | none =>
    let parts ← pieces.mapM (templatePiece site)
    watch (.template element attr (parts.map (·.1))) (parts.flatMap (·.2))
  return t

def event (site : Site) (t : Target) (a : Attribute) : Binding Target := do
  let (element, t) ← numbered t
  let b ← get
  let (handler, vars) ← orFault (Handler.ofValue site.context b.payload.vars a.value)
  modifyPayload (fun p =>
    let (event, eventNames) := p.eventNames.insert (String.ofList (a.name.toList.drop 2))
    let (number, handlers) := p.handlers.insert handler
    let (_, events) := p.events.insert ⟨event, element, number⟩
    { p with vars, eventNames, handlers, events })
  return t

def attr (site : Site) (position : Position) (isComponent : Bool) (t : Target) (a : Attribute) : Binding Target :=
  let step :=
    if isEvent a.name then some (event site t a)
    else if Interpolation.hasMarkers a.value then some (attributeValue site isComponent t a)
    else none
  match step with
  | none => return t
  | some bind => do
    let t ← located site.file position (reporting (fun d => d.detail "attribute" a.rawName) bind)
    return { t with element := t.element.remove a.name }

def referenced (e : Element) : Binding Target := do
  match e.value? "ref" with
  | none => return ⟨e, none⟩
  | some value =>
    let handle := referenceHandle (← get).sequence value
    let number ← insertElement handle
    return ⟨(e.remove "ref").addClass handle, some (number, handle)⟩

def element (site : Site) (position : Position) (e : Element) : Binding Element := do
  let t ← referenced e
  let asset := site.assetOf e.tag
  modify (fun b => { b with dependencies := (b.dependencies ++ asset.toList).eraseDups })
  let t ← t.element.attributes.foldlM (attr site position asset.isSome) t
  return match t.handle with
    | some (_, handle) => t.element.addClass handle
    | none => t.element

/-! ## Templates -/

mutual
/-- Binds a node and what is below it; `isVerbatim` says whether it stands in an element that keeps its text as it is.
-/
def node (site : Site) (isVerbatim : Bool) : Tree → Binding (List Tree)
  | .node (.element e) position children => do
    let bound ← element site position e
    let below ← nodes site (Markup.verbatimTags.contains e.tag) children
    return [.node (.element bound) position below]
  | .node (.text s) position children =>
    if !isVerbatim && Interpolation.hasMarkers s then text site position s
    else return [.node (.text s) position children]
  | .node kind position children => return [.node kind position children]

def nodes (site : Site) (isVerbatim : Bool) : List Tree → Binding (List Tree)
  | [] => return []
  | t :: ts => do
    let first ← node site isVerbatim t
    let rest ← nodes site isVerbatim ts
    return first ++ rest
end

end Binding
end ReactiveTemplate.Component
