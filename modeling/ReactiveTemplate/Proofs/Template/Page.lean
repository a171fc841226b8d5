import ReactiveTemplate.Proofs.Interpolation.Placeholders
import ReactiveTemplate.Proofs.Markup.Plain
import ReactiveTemplate.Template.Compiler
/-!
# Page — the tree that a template shows

The page of a template is its tree under a scope, without marks and parts: an element whose condition fails is gone, and
interpolations have given way to their values.
-/
set_option linter.all false

namespace ReactiveTemplate.Page
open List

open Markup (Tree Element Attribute)
open Interpolation (joined)

/-- What something shows under a scope, from a sequence to the next. -/
abbrev View (α : Type) := Sequence → (Json → α) × Sequence

/-! ## Values -/

def resultOf (scope : Json) : Except Fault Eval → Value
  | .ok e => e.evaluate scope
  | .error _ => .undefined

def valueOf (scope : Json) (source : String) : Value := resultOf scope (Eval.ofSource source)

lemma valueOf_of_ok {source : String} {e : Eval} (h : Eval.ofSource source = .ok e) (scope : Json) :
    valueOf scope source = e.evaluate scope := by
  rw [valueOf, h, resultOf]

def holds (scope : Json) (source : String) : Bool := (valueOf scope source).truthy

def valueText (scope : Json) (source : String) : String := ((valueOf scope source).rendered?).getD ""

def inserted (scope : Json) (isSafe : Bool) (source : String) : List Char :=
  (if isSafe then Markup.escapeHtml (valueText scope source) else valueText scope source).toList

def textHtml (scope : Json) (pieces : List Piece) : List Char :=
  joined (·.flatMap Markup.escapeTextChar) (inserted scope) pieces

lemma textHtml_cons (scope : Json) (piece : Piece) (pieces : List Piece) :
    textHtml scope (piece :: pieces) = textHtml scope [piece] ++ textHtml scope pieces := by
  simp only [textHtml, joined, flatMap_cons, flatMap_nil, append_nil]

lemma textHtml_literal (scope : Json) (literal : String) :
    textHtml scope [.literal literal] = (Markup.escapeText literal).toList := by
  simp [textHtml, joined, Markup.escapeText, Text.flatMap]

lemma textHtml_expression (scope : Json) (found : Interpolation) :
    textHtml scope [.expression found] = inserted scope found.isSafe found.expression := by
  simp [textHtml, joined]

def attributeText (scope : Json) (pieces : List Piece) : List Char :=
  joined id (fun _ source => (valueText scope source).toList) pieces

lemma attributeText_cons (scope : Json) (piece : Piece) (pieces : List Piece) :
    attributeText scope (piece :: pieces) = attributeText scope [piece] ++ attributeText scope pieces := by
  simp only [attributeText, joined, flatMap_cons, flatMap_nil, append_nil]

lemma attributeText_literal (scope : Json) (literal : String) :
    attributeText scope [.literal literal] = literal.toList := by
  simp [attributeText, joined]

lemma attributeText_expression (scope : Json) (found : Interpolation) :
    attributeText scope [.expression found] = (valueText scope found.expression).toList := by
  simp [attributeText, joined]

/-! ## Nodes -/

def fill : List Attribute → (Json → Element) → View Element
  | [], e, s => (e, s)
  | a :: as, e, s =>
    fill as (fun scope =>
      (e scope).set a.rawName (String.ofList (attributeText scope (scan a.value s).1.parts))) (scan a.value s).2

lemma tag_fill : ∀ (as : List Attribute) (e : Json → Element) (s : Sequence) (scope : Json),
    ((fill as e s).1 scope).tag = (e scope).tag
  | [], _, _, _ => rfl
  | a :: as, e, s, scope => by
    rw [fill, tag_fill as]
    rfl

lemma rawName_of_mem_fill {scope : Json} {b : Attribute} : ∀ {as : List Attribute} {e : Json → Element} {s : Sequence},
    b ∈ ((fill as e s).1 scope).attributes → ∃ a ∈ (e scope).attributes ++ as, b.rawName = a.rawName
  | [], e, s, h => ⟨b, mem_append_left _ h, rfl⟩
  | a :: as, e, s, h => by
    rw [fill] at h
    obtain ⟨a', ha', heq⟩ := rawName_of_mem_fill h
    rcases mem_append.1 ha' with ha' | ha'
    · rcases Markup.rawName_of_mem_setIn ha' with ⟨a'', ha'', heq'⟩ | heq'
      · exact ⟨a'', mem_append_left _ ha'', heq.trans heq'⟩
      · rw [Markup.Attribute.rawName_new] at heq'
        exact ⟨a, mem_append_right _ mem_cons_self, heq.trans heq'⟩
    · exact ⟨a', mem_append_right _ (.tail _ ha'), heq⟩

lemma fill_ne_nil {scope : Json} : ∀ {as : List Attribute} {e : Json → Element} {s : Sequence},
    (e scope).attributes ≠ [] → ((fill as e s).1 scope).attributes ≠ []
  | [], _, _, h => h
  | a :: as, e, s, _ => by
    rw [fill]
    exact fill_ne_nil (Markup.setIn_ne_nil _ _)

def filled (e : Element) : View Element :=
  fill (e.attributes.filter (fun a => Interpolation.hasMarkers a.value)) (fun _ => e)

def element (below : View (List Tree)) (position : Position) (e : Element) : View Tree := fun s =>
  let shown := filled e s
  let content := below shown.2
  (fun scope => .node (.element (shown.1 scope)) position (content.1 scope), content.2)

def optional (source : String) (position : Position) (content : View (List Tree)) : View Tree := fun s =>
  (fun scope => .node .document position (if holds scope source then (content s).1 scope else []), (content s).2)

/-- An element under conditions, each of which takes an attribute off it. -/
def guarded (below : View (List Tree)) (position : Position) : List Attribute → Element → View Tree
  | [], e => element below position e
  | [a], e => optional a.value position (fun s =>
    let shown := element below position (e.remove "if") s
    (fun scope => [shown.1 scope], shown.2))
  | _ :: b :: more, e => fun s =>
    guarded below position (b :: more) (e.remove "if") (element below position (e.remove "if") s).2

def conditionOf (e : Element) : String := (e.value? "cond").getD "false"

def guards (e : Element) : List Attribute := e.attributes.filter (fun a => a.name == "if")

mutual
def node (isVerbatim : Bool) : Tree → View Tree
  | .node (.element e) position children =>
    if e.tag = "if" then optional (conditionOf e) position (nodes false children)
    else guarded (nodes (Markup.verbatimTags.contains e.tag) children) position (guards e) e
  | .node .document position children => fun s =>
    (fun scope => .node .document position ((nodes false children s).1 scope), (nodes false children s).2)
  | .node (.text text) position children => fun s =>
    if !isVerbatim && Interpolation.hasMarkers text then
      (fun scope => .leaf (.raw (String.ofList (textHtml scope (scan text s).1.parts))) position, (scan text s).2)
    else (fun _ => .node (.text text) position children, s)
  | .node kind position children => fun s => (fun _ => .node kind position children, s)

def nodes (isVerbatim : Bool) : List Tree → View (List Tree)
  | [] => fun s => (fun _ => [], s)
  | t :: ts => fun s =>
    let first := node isVerbatim t s
    let rest := nodes isVerbatim ts first.2
    (fun scope => first.1 scope :: rest.1 scope, rest.2)
end

end ReactiveTemplate.Page
