import ReactiveTemplate.Text.Position
import ReactiveTemplate.Markup.Element
/-!
# Tree — a template as a tree

A node is what it is (`Kind`), where its source stands, and its children.  A document node stands for a list of nodes;
only it and elements have children.
-/
namespace ReactiveTemplate.Markup

inductive Kind where
  | document
  | element (e : Element)
  | text (s : String)
  | comment (s : String)
  | doctype (name : String)
  | raw (html : String)
  deriving Repr, DecidableEq, Inhabited

namespace Kind

def element? : Kind → Option Element
  | element e => some e
  | _ => none

def tag? (k : Kind) : Option String := k.element?.map (·.tag)

def text? : Kind → Option String
  | text s => some s
  | _ => none

def isVerbatim (k : Kind) : Bool :=
  match k with
  | element e => verbatimTags.contains e.tag
  | _ => false

end Kind

inductive Tree where
  | node (kind : Kind) (position : Position) (children : List Tree)
  deriving Repr, Inhabited

namespace Tree

def kind : Tree → Kind
  | node kind _ _ => kind

def position : Tree → Position
  | node _ position _ => position

def children : Tree → List Tree
  | node _ _ children => children

def leaf (kind : Kind) (position : Position) : Tree := node kind position []

def document (children : List Tree) : Tree := node .document {} children

def element? (t : Tree) : Option Element := t.kind.element?

def tag? (t : Tree) : Option String := t.kind.tag?

def withChildren (t : Tree) (children : List Tree) : Tree := node t.kind t.position children

def mapElement (f : Element → Element) : Tree → Tree
  | node (.element e) position children => node (.element (f e)) position children
  | t => t

mutual
def size : Tree → Nat
  | node _ _ children => sizeAll children + 1

def sizeAll : List Tree → Nat
  | [] => 0
  | t :: ts => size t + sizeAll ts
end

mutual
/-- The HTML of a node; `verbatim` says whether text stands in an element that keeps it as it is. -/
def renderIn (verbatim : Bool) : Tree → String
  | node .document _ children => renderAllIn false children
  | node (.element e) _ children =>
    if e.isVoid then e.opening
    else e.opening ++ renderAllIn (verbatimTags.contains e.tag) children ++ e.closing
  | node (.text s) _ _ => if verbatim then s else escapeText s
  | node (.comment s) _ _ => "<!--" ++ s ++ "-->"
  | node (.doctype name) _ _ => "<!DOCTYPE " ++ name ++ ">"
  | node (.raw html) _ _ => html

def renderAllIn (verbatim : Bool) : List Tree → String
  | [] => ""
  | t :: ts => renderIn verbatim t ++ renderAllIn verbatim ts
end

def render (t : Tree) : String := renderIn false t

mutual
def preorder : Tree → List Tree
  | node kind position children => node kind position children :: preorderAll children

def preorderAll : List Tree → List Tree
  | [] => []
  | t :: ts => preorder t ++ preorderAll ts
end

mutual
def height : Tree → Nat
  | node (.element _) _ children => max 1 (heightAll children) + 1
  | node _ _ children => heightAll children + 1

def heightAll : List Tree → Nat
  | [] => 0
  | t :: ts => max (height t) (heightAll ts)
end

def textContent (t : Tree) : String := String.join (t.children.filterMap (fun c => c.kind.text?))

def appendText (s : String) (position : Position) : List Tree → List Tree
  | [] => [leaf (.text s) position]
  | [node (.text existing) at_ below] => [node (.text (existing ++ s)) at_ below]
  | t :: ts => t :: appendText s position ts

inductive Mark where
  | element (tag : String)
  | text (s : String)
  deriving Repr, DecidableEq

mutual
/-- The elements and texts in document order; nothing below an element whose tag is in `pruned`. -/
def outline (pruned : List String) : Tree → List Mark
  | node .document _ children => outlineAll pruned children
  | node (.element e) _ children =>
    .element e.tag :: (if pruned.contains e.tag then [] else outlineAll pruned children)
  | node (.text s) _ _ => [.text s]
  | node _ _ _ => []

def outlineAll (pruned : List String) : List Tree → List Mark
  | [] => []
  | t :: ts => outline pruned t ++ outlineAll pruned ts
end

end Tree
end ReactiveTemplate.Markup
