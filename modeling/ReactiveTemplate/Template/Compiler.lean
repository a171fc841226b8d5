import ReactiveTemplate.Component.Build
import ReactiveTemplate.Library
import ReactiveTemplate.Markup.Parse
import ReactiveTemplate.Template.Directive
import ReactiveTemplate.Template.Token
import ReactiveTemplate.Timing
/-!
# Compiler — templates from source

The tree of a template is compiled from the top: directives run on an element, then its children are compiled.
-/
namespace ReactiveTemplate

open Markup (Tree Element)

structure CompileOptions where
  file : String := ""
  salt : Option String := none
  timing : Bool := false
  deriving Repr, DecidableEq

/-- An entry of the log: the label of a directive, the tag of its element and the value of its attribute. -/
structure LogEntry where
  label : String
  tag : Option String
  value : Option String
  deriving Repr, DecidableEq

structure Compiler where
  registry : Registry
  options : CompileOptions
  sequence : Sequence
  dynamics : List Dynamic := []
  components : List ComponentOutput := []
  assets : List Asset := []
  log : List LogEntry := []

namespace Compiler

def new (registry : Registry) (options : CompileOptions) : Compiler where
  registry
  options
  sequence := Sequence.new (options.salt.getD options.file)

def assetOf (c : Compiler) (tag : String) : Option String :=
  (c.components.find? (fun o => o.tag == tag)).map (·.asset)

def place (output : ComponentOutput) : List ComponentOutput → List ComponentOutput
  | [] => [output]
  | o :: os => if o.tag == output.tag then output :: os else o :: place output os

def register (c : Compiler) (output : ComponentOutput) (assets : List Asset) : Compiler :=
  { c with components := place output c.components, assets := c.assets ++ assets }

end Compiler

/-- Steps of compiling; what a compiler holds stays when one fails. -/
abbrev Compile := ExceptT Diagnostic (StateM Compiler)

namespace Compile

def orFault {α : Type} : Except Fault α → Compile α
  | .ok a => pure a
  | .error fault => throw fault.toDiagnostic

def located {α : Type} (position : Position) (step : Compile α) : Compile α :=
  fun c => (step c).map (Except.mapError (fun d => d.locate c.options.file position.line position.column)) id

def pushDynamic (d : Dynamic) : Compile String := do
  let c ← get
  set { c with dynamics := c.dynamics ++ [d] }
  return dynamicToken c.dynamics.length

def scanText (s : String) : Compile (List Piece) := do
  let c ← get
  let (scanned, sequence) := scan s c.sequence
  set { c with sequence }
  return scanned.parts

/-! ## Texts -/

def textPiece : Piece → Compile String
  | .literal s => return Markup.escapeText s
  | .expression found => do
    let e ← orFault (Eval.ofSource found.expression)
    let source := Text.trim found.expression
    pushDynamic (if found.isSafe then .expression source e else .verbatim source e)

def text (position : Position) (s : String) : Compile Tree := do
  let pieces ← scanText s
  let texts ← located position (pieces.mapM textPiece)
  return Tree.leaf (.raw (String.join texts)) position

/-! ## Directives -/

/-- How a node is compiled: under a limit for the priorities of its directives, and knowing whether it stands in an
element that keeps its text as it is. -/
abbrev NodeCompiler := Option Nat → Bool → Tree → Compile Tree

def children (compileNode : NodeCompiler) (t : Tree) : Compile Tree := do
  let below ← t.children.mapM (compileNode none t.kind.isVerbatim)
  return t.withChildren below

/-- Compiles nodes into a template of their own; the dynamic parts put aside before stay as they are. -/
def document (compileNode : NodeCompiler) (limit : Option Nat) (nodes : List Tree) : Compile Compiled :=
  fun c =>
    let (result, after) := (nodes.mapM (compileNode limit false)).run { c with dynamics := [] }
    (result.map (fun compiled => Compiled.ofHtml (Tree.document compiled).render after.dynamics),
      { after with dynamics := c.dynamics })

/-- Compiles the children into a template of their own, which takes their place. -/
def nest (compileNode : NodeCompiler) (t : Tree) : Compile Tree := do
  let compiled ← document compileNode none t.children
  let token ← pushDynamic (.nested compiled)
  return t.withChildren [Tree.leaf (.raw token) t.position]

/-- What running a directive on an element gives: the element, and methods in place of the directive's own. -/
structure Outcome where
  tree : Tree
  methods : Option Methods := none

def condition (source : String) : Compile Methods := do
  let e ← orFault (Eval.ofSource source)
  return { process := some (.condition e) }

def valuePiece : Piece → Compile ValuePiece
  | .literal s => return .literal s
  | .expression found => do
    let e ← orFault (Eval.ofSource found.expression)
    return .value e

def setAttribute (t : Tree) (name value : String) : Tree := t.mapElement (fun e => e.set name value)

def steps (compileNode : NodeCompiler) (t : Tree) : List CompileStep → Compile Outcome
  | [] => return ⟨t, none⟩
  | .set name value :: rest => steps compileNode (setAttribute t name value) rest
  | .remove name :: rest => steps compileNode (t.mapElement (fun e => e.remove name)) rest
  | .addClass name :: rest => steps compileNode (t.mapElement (fun e => e.addClass name)) rest
  | .appendText s :: rest => steps compileNode (t.withChildren (Tree.appendText s t.position t.children)) rest
  | .hash name :: rest => do
    let c ← get
    let (hash, sequence) := c.sequence.nextHash
    set { c with sequence }
    steps compileNode (setAttribute t name hash) rest
  | .file name :: rest => do
    let c ← get
    steps compileNode (setAttribute t name c.options.file) rest
  | .children :: rest => do
    let t ← children compileNode t
    steps compileNode t rest
  | .nest :: rest => do
    let t ← nest compileNode t
    steps compileNode t rest
  | .fail code message :: _ => throw (Fault.custom code message).toDiagnostic
  | .methods process leave :: _ => return ⟨t, some ⟨some (.steps process), leave.map .steps⟩⟩

def component (compileNode : NodeCompiler) (t : Tree) : Compile Outcome := do
  match t.kind with
  | .element e =>
    let c ← get
    let built ← Component.build c.options.file c.sequence c.assetOf e t.position t.children
    set (c.register built.output built.assets)
    let t ← nest compileNode (.node (.element (built.host e)) t.position built.template)
    return ⟨t, none⟩
  | _ => return ⟨t, none⟩

def behave (compileNode : NodeCompiler) (a : Option Markup.Attribute) (t : Tree) : Behaviour → Compile Outcome
  | .conditionElement => do
    let m ← condition ((t.element?.bind (·.value? "cond")).getD "false")
    return ⟨t, some m⟩
  | .conditionAttribute => do
    let m ← condition ((a.map (·.value)).getD "")
    return ⟨t.mapElement (fun e => e.remove "if"), some m⟩
  | .component => component compileNode t
  | .interpolation =>
    match a with
    | none => return ⟨t, none⟩
    | some a => do
      let pieces ← scanText a.value
      let values ← pieces.mapM valuePiece
      return ⟨t, some { process := some (.interpolate a.rawName values) }⟩
  | .custom label items => do
    modify (fun c => { c with log := c.log ++ [⟨label, t.tag?, a.map (·.value)⟩] })
    steps compileNode t items

/-! ## Elements -/

structure Work where
  tree : Tree
  methods : List Methods := []
  slots : List (String × Compiled) := []
  isTranscluded : Bool := false
  isTerminal : Bool := false

def placeSlot (name : String) (c : Compiled) : List (String × Compiled) → List (String × Compiled)
  | [] => [(name, c)]
  | entry :: rest => if entry.1 == name then (name, c) :: rest else entry :: placeSlot name c rest

def distinctSlots (entries : List (String × String)) : List (String × String) :=
  entries.foldl (fun kept entry =>
    if kept.any (fun k => k.1 == entry.1) then kept.map (fun k => if k.1 == entry.1 then entry else k)
    else kept ++ [entry]) []

def takeSlot (compileNode : NodeCompiler) (w : Work) (entry : String × String) : Compile Work := do
  let (taken, left) := w.tree.children.partition (fun t => t.tag? == some entry.1)
  let compiled ← document compileNode none taken
  return { w with tree := w.tree.withChildren left, slots := placeSlot entry.2 compiled w.slots }

def transclude (compileNode : NodeCompiler) (d : Directive) (w : Work) : Compile Work := do
  match d.transclude with
  | .nothing => return w
  | .children =>
    let compiled ← document compileNode none w.tree.children
    return { w with
      tree := w.tree.withChildren [], slots := placeSlot defaultSlot compiled w.slots, isTranscluded := true }
  | .element =>
    let compiled ← document compileNode (some d.priority) [w.tree]
    return { w with slots := placeSlot defaultSlot compiled w.slots, isTranscluded := true }
  | .slots entries =>
    let w ← (distinctSlots entries).foldlM (takeSlot compileNode) w
    let compiled ← document compileNode none w.tree.children
    let slots := if w.slots.any (fun s => s.1 == defaultSlot) then w.slots else w.slots ++ [(defaultSlot, compiled)]
    return { w with tree := w.tree.withChildren [], slots, isTranscluded := true }

def apply (compileNode : NodeCompiler) (w : Work) (c : Candidate) : Compile Work := do
  let outcome ← located w.tree.position (match c.directive.behaviour with
    | some b => behave compileNode c.attr w.tree b
    | none => return ⟨w.tree, none⟩)
  let m := outcome.methods.getD c.directive.methods
  let methods := if m.isEmpty then w.methods else w.methods ++ [m]
  let w ← transclude compileNode c.directive { w with tree := outcome.tree, methods }
  return { w with isTerminal := w.isTerminal || c.directive.isTerminal }

/-- Leaves a mark for what directives decide about an element: in its place, or in place of its attributes. -/
def settle (w : Work) : Compile Tree := do
  let attributes := (w.tree.element?.map (·.attributes)).getD []
  if w.isTranscluded then
    let token ← pushDynamic (.directives .replace attributes w.methods w.slots)
    return Tree.leaf (.raw token) w.tree.position
  else if w.methods.isEmpty then return w.tree
  else
    let token ← pushDynamic (.directives .attributes attributes w.methods w.slots)
    return w.tree.mapElement (fun e => ⟨e.tag, [Markup.Attribute.new token ""]⟩)

def element (compileNode : NodeCompiler) (limit : Option Nat) (t : Tree) (e : Element) : Compile Tree := do
  let candidates := Candidate.select (← get).registry limit e
  let w ← candidates.foldlM (apply compileNode) { tree := t }
  let settled ← settle w
  if w.isTranscluded || w.isTerminal then return settled else children compileNode settled

def nodeWith (compileNode : NodeCompiler) : NodeCompiler :=
  fun limit isVerbatim t =>
    match t.kind with
    | .element e => element compileNode limit t e
    | .text s => if !isVerbatim && Interpolation.hasMarkers s then text t.position s else return t
    | .document => children compileNode t
    | _ => return t

/-- Compiles a node down to a number of steps; a step goes one level down in the tree or to directives of lower priority
on the same element. -/
def node : Nat → NodeCompiler
  | 0 => fun _ _ t => return t
  | fuel + 1 => nodeWith (node fuel)

/-- How many steps the trees of a document take at most: on every level as many as there are directives. -/
def depthOf (r : Registry) (nodes : List Tree) : Nat := (Tree.heightAll nodes + 1) * (r.directives.length + 2)

def template (limit : Option Nat) (nodes : List Tree) : Compile Compiled := do
  document (node (depthOf (← get).registry nodes)) limit nodes

end Compile

structure CompileOutput where
  compiled : Compiled
  components : List ComponentOutput
  assets : List Asset
  phases : List (String × String)

namespace Compiler

def phases : List (String × String) :=
  [("parse", "Parse template"), ("compile", "Compile template"), ("assets", "Resolve assets")]

def compilePage (source : String) : Compile CompileOutput := do
  let c ← get
  let d ← Markup.Document.parse source c.options.file
  let compiled ← Compile.template none (d.toTree Markup.Document.root).children
  let c ← get
  set { c with assets := [] }
  let assets ← Compile.orFault (Asset.resolve c.assets)
  modify (fun c => { c with components := [] })
  return ⟨compiled, c.components, assets, if c.options.timing then phases else []⟩

def compile (c : Compiler) (source : String) : Except Diagnostic CompileOutput × Compiler :=
  (compilePage source).run c

end Compiler

def compile (source : String) (options : CompileOptions) : Except Diagnostic CompileOutput :=
  ((Compiler.new Registry.standard options).compile source).1

def compileAll (sources : List TemplateSource) (options : CompileOptions) : List (Except Diagnostic CompileOutput) :=
  sources.map (fun s => compile s.content { options with file := s.file })

end ReactiveTemplate
