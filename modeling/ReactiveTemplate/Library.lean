import ReactiveTemplate.Diagnostic
/-!
# Library — templates in a directory

A library serves every `*.html` file under a root.  A template is named by its path under the root without the
extension; names are listed in order.
-/
namespace ReactiveTemplate

structure TemplateSource where
  name : String
  file : String
  content : String
  deriving Repr, DecidableEq

inductive Entry where
  | directory
  | file (bytes : List UInt8)
  deriving Repr, DecidableEq

structure Library where
  root : String
  entries : List (String × Entry)
  deriving Repr, DecidableEq

namespace Library

def splitPath (path : List Char) : List Char × List Char :=
  let last := (path.reverse.takeWhile (· != '/')).reverse
  (path.take (path.length - last.length), last)

/-- The name of the template at a relative path: the path without `.html`, for a file whose name has something before
the extension. -/
def templateName? (path : String) : Option String :=
  let (folder, last) := splitPath path.toList
  let extension := ".html".toList
  let stem := last.take (last.length - extension.length)
  if !stem.isEmpty && stem ++ extension == last then some (String.ofList (folder ++ stem)) else none

def latest : List (String × Entry) → List (String × Entry)
  | [] => []
  | e :: es => if es.any (fun other => other.1 == e.1) then latest es else e :: latest es

def index (l : Library) : List (String × String × List UInt8) :=
  let found := (latest l.entries).filterMap (fun (path, entry) =>
    match entry, templateName? path with
    | .file bytes, some name => some (name, path, bytes)
    | _, _ => none)
  found.mergeSort (fun a b => decide (a.1 ≤ b.1))

def names (l : Library) : List String := l.index.map (·.1)

def load (l : Library) (name : String) : Except Fault TemplateSource :=
  match l.index.find? (fun entry => entry.1 == name) with
  | none => .error (.templateMissing name l.root)
  | some (_, path, bytes) =>
    let file := l.root ++ "/" ++ path
    match String.fromUTF8? ⟨bytes.toArray⟩ with
    | some content => .ok ⟨name, file, content⟩
    | none => .error (.templateUnreadable file)

def loadAll (l : Library) : Except Fault (List TemplateSource) :=
  l.names.mapM l.load

end Library
end ReactiveTemplate
