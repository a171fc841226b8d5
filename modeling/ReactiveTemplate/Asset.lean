import ReactiveTemplate.Graph
import ReactiveTemplate.Digest.Xxh3
/-!
# Asset — scripts and style sheets, and the order they load in

An asset is named by the hash of its content.  `Asset.resolve` merges assets of one name and orders them so that
dependencies load first, style sheets ahead of scripts.
-/
namespace ReactiveTemplate

inductive AssetKind where
  | javascript
  | stylesheet
  deriving Repr, DecidableEq

namespace AssetKind

def priority : AssetKind → Int
  | javascript => 0
  | stylesheet => 1

end AssetKind

structure Asset where
  content : String
  name : String
  size : Nat
  etag : String
  kind : AssetKind
  dependencies : List String := []
  priority : Int
  integrity : Option String := none
  crossOrigin : Option String := none
  referrerPolicy : Option String := none
  filepath : Option String := none
  url : Option String := none
  deriving Repr, DecidableEq

namespace Asset

def new (kind : AssetKind) (content : String) : Asset :=
  let name := Digest.short content
  { content, name, size := content.utf8ByteSize, etag := name, kind, priority := kind.priority }

/-- Adds a dependency; one on itself or one that is there already changes nothing. -/
def dependsOn (a : Asset) (name : String) : Asset :=
  if name == a.name || a.dependencies.contains name then a
  else { a with dependencies := a.dependencies ++ [name] }

/-- Adds an asset to a list with distinct names; of an asset that is there already only the dependencies count. -/
def merge (unique : List Asset) (asset : Asset) : List Asset :=
  if unique.any (fun a => a.name == asset.name) then
    unique.map (fun a => if a.name == asset.name then asset.dependencies.foldl dependsOn a else a)
  else unique ++ [asset]

def mergeAll (assets : List Asset) : List Asset :=
  assets.foldl merge []

def missing? (unique : List Asset) : Option (Asset × String) :=
  unique.findSome? (fun a =>
    (a.dependencies.find? (fun dependency => !unique.any (fun b => b.name == dependency))).map (fun d => (a, d)))

def node (a : Asset) : GraphNode := ⟨a.name, a.dependencies, a.priority⟩

def ofCycle : Fault → Fault
  | .cycle start finish path reverse => .assetCycle start finish path reverse
  | fault => fault

def resolve (assets : List Asset) : Except Fault (List Asset) := do
  let unique := mergeAll assets
  match missing? unique with
  | some (a, dependency) => throw (.assetDependency a.name dependency)
  | none =>
    let names ← (Graph.sort (unique.map node)).mapError ofCycle
    return names.filterMap (fun name => unique.find? (fun a => a.name == name))

end Asset
end ReactiveTemplate
