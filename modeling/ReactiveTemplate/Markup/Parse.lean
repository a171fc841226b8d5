import ReactiveTemplate.Diagnostic
import ReactiveTemplate.Markup.Document
import ReactiveTemplate.Markup.Token
/-!
# Parse — a template as a document

Tokens become nodes as they come: every end tag must close the element opened last, and nothing may stay open at the
end. Only void elements and tags that close themselves stay without an end tag.
-/
namespace ReactiveTemplate.Markup

structure Cursor where
  offset : Nat
  rest : List Char
  deriving Repr, DecidableEq

namespace Cursor
open Text (bytes)

/-- Goes to the next occurrence of `needle` and past the `>` behind it; gives the offset where it starts. -/
def seek (c : Cursor) (needle : List Char) : Nat × Cursor :=
  match Text.cut? needle c.rest with
  | none => (c.offset, c)
  | some (before, after) =>
    let start := c.offset + bytes before
    let behind := start + bytes needle
    match Text.cut? ['>'] after with
    | some (inside, rest) => (start, ⟨behind + bytes inside + 1, rest⟩)
    | none => (start, ⟨behind, after⟩)

end Cursor

/-- A document in the making: the elements that are open, the innermost first. -/
structure Builder where
  lines : LineIndex
  document : Document
  opened : List Nat := []
  cursor : Cursor
  deriving Repr

namespace Builder

def new (source file : String) : Builder where
  lines := .ofSource source.toList
  document := Document.new file
  cursor := ⟨0, (Text.lower source).toList⟩

def current (b : Builder) : Nat := (b.opened.head?).getD Document.root

def here (b : Builder) : Position := b.lines.locate b.cursor.offset

/-- Moves the cursor behind the next tag or comment that starts with `needle`; gives where that starts. -/
def seek (b : Builder) (needle : String) : Position × Builder :=
  let (offset, cursor) := b.cursor.seek needle.toList
  (b.lines.locate offset, { b with cursor := cursor })

def add (b : Builder) (kind : Kind) (position : Position) : Nat × Builder :=
  let (id, d) := b.document.create kind position
  (id, { b with document := d.append b.current id })

def elementOf (name : String) (attributes : List (String × String)) : Element :=
  ⟨Text.lower name, attributes.map (fun a => Attribute.new a.1 a.2)⟩

def refuse (b : Builder) (fault : Fault) (position : Position) : Diagnostic :=
  fault.toDiagnostic.at_ b.document.file position.line position.column

def take (b : Builder) : Token → Except Diagnostic Builder
  | .startTag name attributes selfClosing =>
    let (position, b) := b.seek ("<" ++ name)
    let element := elementOf name attributes
    let (id, b) := b.add (.element element) position
    .ok (if element.isVoid || selfClosing then b else { b with opened := id :: b.opened })
  | .endTag name =>
    let (position, b) := b.seek ("</" ++ name)
    let innermost := b.opened.head?.bind b.document.tag?
    if innermost = some name then .ok { b with opened := b.opened.tail }
    else .error (b.refuse (.endTag (innermost.getD "none") name) position)
  | .text s => .ok { b with document := b.document.appendText b.current s b.here }
  | .comment s =>
    let (position, b) := b.seek "<!--"
    .ok (b.add (.comment s) position).2
  | .doctype name =>
    let (position, b) := b.seek "<!"
    .ok (b.add (.doctype (name.getD "html")) position).2
  | .ignored => .ok b
  | .truncated reason => .error (b.refuse (.truncated reason) b.here)

def takeAll (b : Builder) : List Token → Except Diagnostic Builder
  | [] => .ok b
  | t :: ts => do
    let b ← b.take t
    takeAll b ts

def close (b : Builder) : Except Diagnostic Document :=
  match b.opened with
  | [] => .ok b.document
  | id :: _ => .error (b.refuse (.unclosed ((b.document.tag? id).getD "")) (b.document.position id))

end Builder

def Document.parse (source file : String) : Except Diagnostic Document := do
  let b ← (Builder.new source file).takeAll (tokens source)
  b.close

end ReactiveTemplate.Markup
