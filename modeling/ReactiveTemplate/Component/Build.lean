import ReactiveTemplate.Asset
import ReactiveTemplate.Component.Binding
import ReactiveTemplate.Component.Source
/-!
# Build — components from their elements

`Component.build` takes the element of a component to what it registers with the page, its payload and style sheet, and
to the element that stands in its place.
-/
namespace ReactiveTemplate

structure ComponentOutput where
  name : String
  tag : String
  payload : String
  asset : String
  style : Option String
  params : Component.Params
  deriving Repr, DecidableEq

namespace Component

open Markup (Tree Element)

def filledValue? (e : Element) (name : String) : Option String :=
  ((e.value? name).map Text.trim).filter (fun s => !s.isEmpty)

structure Head where
  name : String
  tag : String
  params : Params
  deriving Repr, DecidableEq

def Head.ofElement (e : Element) : Except Fault Head := do
  match filledValue? e "name" with
  | none => throw .componentName
  | some name =>
    let params ← Params.ofElement e
    checkHost e
    return ⟨name, Text.lower ((filledValue? e "element").getD name), params⟩

def checkCollision (references : List String) (params : Params) : Except Fault Unit :=
  match params.client.find? (fun p => references.contains p.name) with
  | some p => .error (.paramCollision p.name)
  | none => .ok ()

def scriptFault (file : String) (script : Option Tree) (fault : Fault) : Diagnostic :=
  match script with
  | some t => faultAt file t fault
  | none => fault.toDiagnostic

def bindTemplate (file : String) (assetOf : String → Option String) (parts : Parts) (head : Head) :
    Binding (List Tree) := do
  let references ← Binding.references file parts.template
  Binding.orFault (checkCollision references head.params)
  let injected := references ++ head.params.client.map (·.name)
  let hooks ← (hooksOf parts.scriptText injected).mapError (scriptFault file parts.script)
  let analysed ← Binding.orFault
    (analyse (contextSource references head.params.client parts.scriptText) injected)
  Binding.modifyPayload (fun p =>
    { p with
      vars := analysed.vars
      body := analysed.script.body
      imports := analysed.script.imports
      exports := analysed.script.exports
      hooks := hooks })
  Binding.nodes ⟨file, analysed.context, assetOf⟩ false parts.template

structure Built where
  head : Head
  payload : Payload
  script : Asset
  style : Option Asset
  template : List Tree

namespace Built

def output (b : Built) : ComponentOutput where
  name := b.head.name
  tag := b.head.tag
  payload := b.script.content
  asset := b.script.name
  style := b.style.map (·.name)
  params := b.head.params

def assets (b : Built) : List Asset := b.style.toList ++ [b.script]

def host (b : Built) (e : Element) : Element :=
  ⟨b.head.tag, e.attributes.filter (fun a => !isConsumed a.name)⟩

end Built

def build (file : String) (sequence : Sequence) (assetOf : String → Option String) (e : Element) (position : Position)
    (children : List Tree) : Except Diagnostic Built := do
  let parts ← Parts.ofChildren file children
  let head ← (Head.ofElement e).mapError Fault.toDiagnostic
  let start : Binder :=
    { sequence := sequence.salted head.name
      payload := { tag := head.tag, file := file, line := position.line } }
  let (template, binder) ← (bindTemplate file assetOf parts head).run start
  let script := binder.dependencies.foldl Asset.dependsOn (Asset.new .javascript binder.payload.render)
  let style := if parts.styleText.isEmpty then none else some (Asset.new .stylesheet parts.styleText)
  return ⟨head, binder.payload, script, style, template⟩

end Component
end ReactiveTemplate
