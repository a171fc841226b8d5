import ReactiveTemplate.Markup.Tree
/-!
# Document — nodes linked by number

A document holds its nodes in a table and links them by number: parent, first and last child, siblings.
-/
namespace ReactiveTemplate.Markup

structure Links where
  parent : Option Nat := none
  first : Option Nat := none
  last : Option Nat := none
  previous : Option Nat := none
  next : Option Nat := none
  deriving Repr, DecidableEq, Inhabited

structure Cell where
  kind : Kind
  position : Position
  links : Links := {}
  deriving Repr, DecidableEq, Inhabited

structure Document where
  file : String
  cells : List Cell
  deriving Repr, DecidableEq

namespace Document

def root : Nat := 0

def new (file : String) : Document := ⟨file, [⟨.document, {}, {}⟩]⟩

/-- The node with a number; a number without a node reads as an unlinked document node. -/
def cell (d : Document) (id : Nat) : Cell := (d.cells[id]?).getD ⟨.document, {}, {}⟩

def kind (d : Document) (id : Nat) : Kind := (d.cell id).kind

def position (d : Document) (id : Nat) : Position := (d.cell id).position

def links (d : Document) (id : Nat) : Links := (d.cell id).links

def parent (d : Document) (id : Nat) : Option Nat := (d.links id).parent

def tag? (d : Document) (id : Nat) : Option String := (d.kind id).tag?

def size (d : Document) : Nat := d.cells.length

def modify (d : Document) (id : Nat) (f : Cell → Cell) : Document := ⟨d.file, d.cells.modify id f⟩

def setKind (d : Document) (id : Nat) (kind : Kind) : Document :=
  d.modify id (fun c => ⟨kind, c.position, c.links⟩)

def relink (d : Document) (id : Nat) (f : Links → Links) : Document :=
  d.modify id (fun c => ⟨c.kind, c.position, f c.links⟩)

def mapElement (d : Document) (id : Nat) (f : Element → Element) : Document :=
  match d.kind id with
  | .element e => d.setKind id (.element (f e))
  | _ => d

def create (d : Document) (kind : Kind) (position : Position) : Nat × Document :=
  (d.size, ⟨d.file, d.cells ++ [⟨kind, position, {}⟩]⟩)

/-- The nodes from a given one on along the sibling links, at most `fuel` of them. -/
def siblings (d : Document) : Nat → Option Nat → List Nat
  | 0, _ => []
  | _, none => []
  | fuel + 1, some id => id :: siblings d fuel (d.links id).next

def children (d : Document) (id : Nat) : List Nat := d.siblings d.size (d.links id).first

def below (d : Document) : Nat → Nat → List Nat
  | 0, _ => []
  | depth + 1, id => (d.children id).flatMap (fun child => child :: below d depth child)

def descendants (d : Document) (id : Nat) : List Nat := d.below d.size id

def treeTo (d : Document) : Nat → Nat → Tree
  | 0, id => .node (d.kind id) (d.position id) []
  | depth + 1, id => .node (d.kind id) (d.position id) ((d.children id).map (treeTo d depth))

def toTree (d : Document) (id : Nat) : Tree := d.treeTo d.size id

def render (d : Document) (id : Nat) : String :=
  let verbatim := (d.parent id).any (fun p => (d.kind p).isVerbatim)
  Tree.renderIn verbatim (d.toTree id)

/-! ## Linking -/

def detach (d : Document) (id : Nat) : Document :=
  let l := d.links id
  match l.parent with
  | none => d
  | some parent =>
    let d := match l.previous with
      | some p => d.relink p (fun k => { k with next := l.next })
      | none => d.relink parent (fun k => { k with first := l.next })
    let d := match l.next with
      | some n => d.relink n (fun k => { k with previous := l.previous })
      | none => d.relink parent (fun k => { k with last := l.previous })
    d.relink id (fun k => { k with parent := none, previous := none, next := none })

def append (d : Document) (parent child : Nat) : Document :=
  let d := d.detach child
  let last := (d.links parent).last
  let d := d.relink child (fun k => { k with parent := some parent, previous := last })
  let d := match last with
    | some l => d.relink l (fun k => { k with next := some child })
    | none => d.relink parent (fun k => { k with first := some child })
  d.relink parent (fun k => { k with last := some child })

/-- Links a node just before a reference node, taking it out of where it was; nothing happens if the reference stands
nowhere. -/
def insertBefore (d : Document) (reference child : Nat) : Document :=
  match d.parent reference with
  | none => d
  | some parent =>
    let d := d.detach child
    let previous := (d.links reference).previous
    let d := d.relink child
      (fun k => { k with parent := some parent, previous := previous, next := some reference })
    let d := d.relink reference (fun k => { k with previous := some child })
    match previous with
    | some p => d.relink p (fun k => { k with next := some child })
    | none => d.relink parent (fun k => { k with first := some child })

def replace (d : Document) (id replacement : Nat) : Document :=
  (d.insertBefore id replacement).detach id

def replaceWithRaw (d : Document) (id : Nat) (html : String) : Nat × Document :=
  let (replacement, d') := d.create (.raw html) (d.position id)
  (replacement, d'.replace id replacement)

def neutralize (d : Document) (id : Nat) : Document :=
  ((d.children id).foldl detach d).setKind id (.raw "")

def appendText (d : Document) (parent : Nat) (s : String) (position : Position) : Document :=
  match (d.links parent).last.map (fun l => (l, d.kind l)) with
  | some (last, .text existing) => d.setKind last (.text (existing ++ s))
  | _ =>
    let (id, d') := d.create (.text s) position
    d'.append parent id

/-! ## Moving subtrees into a document of their own -/

mutual
def plant (d : Document) (parent : Nat) : Tree → Document
  | .node kind position children =>
    let (id, d') := d.create kind position
    plantAll (d'.append parent id) id children

def plantAll (d : Document) (parent : Nat) : List Tree → Document
  | [] => d
  | t :: ts => plantAll (plant d parent t) parent ts
end

def extract (d : Document) (id : Nat) : Document × Document :=
  ((new d.file).plant root (d.toTree id), d.detach id)

def extractChildrenWhere (d : Document) (id : Nat) (keep : Document → Nat → Bool) : Document × Document :=
  (d.children id).foldl
    (fun (out, d) child => if keep d child then (out.plant root (d.toTree child), d.detach child) else (out, d))
    (new d.file, d)

def extractChildren (d : Document) (id : Nat) : Document × Document :=
  d.extractChildrenWhere id (fun _ _ => true)

end Document
end ReactiveTemplate.Markup
