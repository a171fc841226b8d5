import ReactiveTemplate.Diagnostic
/-!
# Graph — dependency order

`Graph.sort` lists the names of a dependency graph so that every dependency stands before what depends on it; among
names that the edges leave free, a higher priority comes first and then the smaller name.
-/
namespace ReactiveTemplate

structure GraphNode where
  name : String
  dependencies : List String
  priority : Int := 0
  deriving Repr, DecidableEq

structure Vertex where
  name : String
  priority : Int
  dependencies : List String
  deriving Repr, DecidableEq

structure Graph where
  vertices : List Vertex
  deriving Repr, DecidableEq

namespace Graph

def union (xs ys : List String) : List String :=
  ys.foldl (fun acc y => if acc.contains y then acc else acc ++ [y]) xs

def declare (vertices : List Vertex) (node : GraphNode) : List Vertex :=
  if vertices.any (fun v => v.name == node.name) then
    vertices.map (fun v =>
      if v.name == node.name then
        ⟨v.name, max v.priority node.priority, union v.dependencies node.dependencies⟩
      else v)
  else vertices ++ [⟨node.name, node.priority, union [] node.dependencies⟩]

def mention (vertices : List Vertex) (name : String) : List Vertex :=
  if vertices.any (fun v => v.name == name) then vertices else vertices ++ [⟨name, 0, []⟩]

def build (input : List GraphNode) : Graph :=
  let declared := input.foldl declare []
  ⟨(declared.flatMap (·.dependencies)).foldl mention declared⟩

def find? (g : Graph) (name : String) : Option Vertex :=
  g.vertices.find? (fun v => v.name == name)

def names (g : Graph) : List String := g.vertices.map (·.name)

def dependencies (g : Graph) (name : String) : List String :=
  ((g.find? name).map (·.dependencies)).getD []

def dependents (g : Graph) (name : String) : List String :=
  (g.vertices.filter (fun v => v.dependencies.contains name)).map (·.name)

def priority (g : Graph) (name : String) : Int :=
  ((g.find? name).map (·.priority)).getD 0

def precedes (g : Graph) (a b : String) : Bool :=
  decide (g.priority b < g.priority a) || (g.priority a == g.priority b && decide (a ≤ b))

def ordered (g : Graph) (names : List String) : List String :=
  names.mergeSort g.precedes

/-! ## Cycles -/

abbrev Paths := List ((String × String) × List String)

namespace Paths

def find? (known : Paths) (start finish : String) : Option (List String) :=
  (List.find? (fun entry => entry.1 == (start, finish)) known).map (·.2)

def note (known : Paths) (start finish : String) (path : List String) : Paths :=
  match find? known start finish with
  | some existing =>
    if existing.length ≤ path.length then known
    else List.map (fun entry => if entry.1 == (start, finish) then (entry.1, path) else entry) known
  | none => known ++ [((start, finish), path)]

def record (known : Paths) : List String → String → Paths
  | [], _ => known
  | start :: way, finish => record (note known start finish ((start :: way) ++ [finish])) way finish

end Paths

structure Search where
  known : Paths
  seen : List String

def walk (g : Graph) : Nat → List String → String → Search → Except Fault Search
  | 0, _, _, s => .ok s
  | fuel + 1, way, current, s =>
    (g.dependents current).foldlM (fun (s : Search) next =>
      if next == current then .error (.cycle current current [current] [current])
      else
        match s.known.find? next current with
        | some back =>
          .error (.cycle next current back ((s.known.find? current next).getD [current, next]))
        | none =>
          let s : Search := ⟨s.known.record (way ++ [current]) next, s.seen⟩
          if s.seen.contains next then .ok s
          else walk g fuel (way ++ [current]) next ⟨s.known, s.seen ++ [next]⟩) s

def checkAcyclic (g : Graph) : Except Fault Paths :=
  g.names.foldlM (fun known name =>
    (walk g (g.vertices.length + 1) [] name ⟨known, [name]⟩).map (·.known)) []

/-! ## Order -/

def visit (g : Graph) : Nat → List String → String → List String
  | 0, done, _ => done
  | fuel + 1, done, name =>
    if done.contains name then done
    else (g.ordered (g.dependencies name)).foldl (visit g fuel) done ++ [name]

def order (g : Graph) : List String :=
  (g.ordered (g.names.filter (fun name => (g.dependents name).isEmpty))).foldl (visit g (g.vertices.length + 1)) []

def sort (input : List GraphNode) : Except Fault (List String) := do
  let g := build input
  let _ ← g.checkAcyclic
  return g.order

end Graph
end ReactiveTemplate
