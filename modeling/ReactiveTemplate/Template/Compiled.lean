import ReactiveTemplate.Digest.Sha256
import ReactiveTemplate.Expression.Summary
import ReactiveTemplate.Markup.Element
/-!
# Compiled — templates ready to render

A compiled template is a list of fixed texts with something dynamic between each two of them: the value of an
expression, another template, or an element that directives decide about.
-/
namespace ReactiveTemplate

def defaultSlot : String := "*"

inductive RenderStep where
  | set (name value : String)
  | remove (name : String)
  | append (name suffix : String)
  | output (text : String)
  | clear
  | slot (name : String)
  | concat (names : List String)
  | evaluate (name source : String)
  | fail (code message : String)
  deriving Repr, DecidableEq

inductive ValuePiece where
  | literal (text : String)
  | value (eval : Eval)
  deriving Repr

inductive Action where
  | condition (test : Eval)
  | interpolate (name : String) (pieces : List ValuePiece)
  | steps (items : List RenderStep)
  deriving Repr

structure Methods where
  process : Option Action := none
  leave : Option Action := none
  deriving Repr

def Methods.isEmpty (m : Methods) : Bool := m.process.isNone && m.leave.isNone

inductive BundleMode where
  | replace
  | attributes
  deriving Repr, DecidableEq

mutual
/-- A compiled template; there is one text more than there are dynamic parts. -/
inductive Compiled where
  | mk (statics : List String) (dynamics : List Dynamic)

inductive Dynamic where
  | expression (source : String) (eval : Eval)
  | verbatim (source : String) (eval : Eval)
  | nested (compiled : Compiled)
  | directives (mode : BundleMode) (attributes : List Markup.Attribute) (methods : List Methods)
      (slots : List (String × Compiled))
end

namespace Compiled

def statics : Compiled → List String
  | mk statics _ => statics

def dynamics : Compiled → List Dynamic
  | mk _ dynamics => dynamics

def text (html : String) : Compiled := mk [html] []

instance : Inhabited Compiled := ⟨text ""⟩

def fingerprint (c : Compiled) : String := Digest.hex (String.join c.statics)

end Compiled

/-! ## Rendered templates -/

mutual
/-- A rendered template: the fixed texts, what was rendered between them, and the digest of the fixed texts. -/
inductive Rendered where
  | mk (statics : List String) (parts : List RenderedPart) (fingerprint : String)

inductive RenderedPart where
  | nothing
  | text (s : String)
  | nested (r : Rendered)
end

def interleave : List String → List String → String
  | [], _ => ""
  | s :: ss, [] => s ++ interleave ss []
  | s :: ss, d :: ds => s ++ d ++ interleave ss ds

mutual
def Rendered.html : Rendered → String
  | .mk statics parts _ => interleave statics (RenderedPart.htmls parts)

def RenderedPart.html : RenderedPart → String
  | .nothing => ""
  | .text s => s
  | .nested r => r.html

def RenderedPart.htmls : List RenderedPart → List String
  | [] => []
  | p :: ps => p.html :: RenderedPart.htmls ps
end

/-! ## Directives at render time -/

abbrev Slot := String × Except Diagnostic Rendered

/-- The element that directives work on: its attributes and the output that takes its place. -/
structure Frame where
  attributes : List Markup.Attribute
  output : Option RenderedPart := none

namespace Frame

/-- Sets an attribute: the first one of that name keeps its written name and gets the value. -/
def set (f : Frame) (name value : String) : Frame :=
  { f with attributes := Markup.setIn f.attributes (Markup.Attribute.new name value) }

def remove (f : Frame) (name : String) : Frame :=
  { f with attributes := f.attributes.filter (fun a => a.name != name) }

def value (f : Frame) (name : String) : String := ((Markup.findIn f.attributes name).map (·.value)).getD ""

def showSlot (slots : List Slot) (f : Frame) (name : String) : Except Diagnostic Frame :=
  match slots.lookup name with
  | some rendered => rendered.map (fun r => { f with output := some (.nested r) })
  | none => .ok f

def slotTexts (slots : List Slot) (names : List String) : Except Diagnostic String := do
  let texts ← (names.filterMap (fun name => slots.lookup name)).mapM (fun r => r.map Rendered.html)
  return String.join texts

def step (scope : Json) (slots : List Slot) (f : Frame) : RenderStep → Except Diagnostic Frame
  | .set name value => .ok (f.set name value)
  | .remove name => .ok (f.remove name)
  | .append name suffix => .ok (f.set name (f.value name ++ suffix))
  | .output text => .ok { f with output := some (.text text) }
  | .clear => .ok { f with output := none }
  | .slot name => f.showSlot slots name
  | .concat names => (slotTexts slots names).map (fun s => { f with output := some (.text s) })
  | .evaluate name source =>
    match Eval.ofSource source with
    | .ok e => .ok (f.set name (e.evaluate scope).text)
    | .error fault => .error fault
  | .fail code message => .error (Fault.custom code message)

def pieceText (scope : Json) : ValuePiece → String
  | .literal text => text
  | .value e => ((e.evaluate scope).rendered?).getD ""

def run (scope : Json) (slots : List Slot) (f : Frame) : Action → Except Diagnostic Frame
  | .condition test =>
    if (test.evaluate scope).truthy then f.showSlot slots defaultSlot else .ok { f with output := none }
  | .interpolate name pieces => .ok (f.set name (String.join (pieces.map (pieceText scope))))
  | .steps items => items.foldlM (step scope slots) f

/-- The actions of directives: in order on the way in, in reverse on the way out. -/
def actions (methods : List Methods) : List Action :=
  methods.filterMap (·.process) ++ methods.reverse.filterMap (·.leave)

def render (scope : Json) (mode : BundleMode) (attributes : List Markup.Attribute) (methods : List Methods)
    (slots : List Slot) : Except Diagnostic RenderedPart := do
  let f ← (actions methods).foldlM (run scope slots) { attributes := attributes }
  match mode with
  | .replace => return f.output.getD .nothing
  | .attributes => return .text (Text.trimStart (Markup.renderAttributes f.attributes))

end Frame

/-! ## Rendering -/

def renderedValue (change : String → String) (v : Value) : RenderedPart :=
  match v.rendered? with
  | some s => .text (change s)
  | none => .nothing

mutual
def Compiled.exec (scope : Json) : Compiled → Except Diagnostic Rendered
  | .mk statics dynamics =>
    match Dynamic.execAll scope dynamics with
    | .ok parts => .ok (.mk statics parts (Digest.hex (String.join statics)))
    | .error d => .error d

def Dynamic.exec (scope : Json) : Dynamic → Except Diagnostic RenderedPart
  | .expression _ e => .ok (renderedValue Markup.escapeHtml (e.evaluate scope))
  | .verbatim _ e => .ok (renderedValue id (e.evaluate scope))
  | .nested c =>
    match c.exec scope with
    | .ok r => .ok (.nested r)
    | .error d => .error d
  | .directives mode attributes methods slots =>
    Frame.render scope mode attributes methods (Dynamic.execSlots scope slots)

def Dynamic.execAll (scope : Json) : List Dynamic → Except Diagnostic (List RenderedPart)
  | [] => .ok []
  | d :: ds =>
    match d.exec scope with
    | .error e => .error e
    | .ok part =>
      match Dynamic.execAll scope ds with
      | .ok parts => .ok (part :: parts)
      | .error e => .error e

def Dynamic.execSlots (scope : Json) : List (String × Compiled) → List Slot
  | [] => []
  | (name, c) :: rest => (name, c.exec scope) :: Dynamic.execSlots scope rest
end

def Compiled.render (scope : Json) (c : Compiled) : Except Diagnostic String :=
  (c.exec scope).map Rendered.html

end ReactiveTemplate
