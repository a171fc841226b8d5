import Mathlib.Data.List.Cycle
import ReactiveTemplate.Proofs.Graph.Cycles
/-!
# Reports — what is said of a cycle

A list of entries is refused with two paths, one there and one back.
-/
set_option linter.all false

namespace ReactiveTemplate.Graph

variable {input : List GraphNode} {start finish : String} {path back : List String}

/-- A path of two names or more in which each next name depends on the one before it. -/
def Trail (input : List GraphNode) (start finish : String) (path : List String) : Prop :=
  ∃ way, path = start :: (way ++ [finish]) ∧ path.IsChain (fun a b => Depends input b a)

lemma trail_of_route (h : (build input).Route start finish path) : Trail input start finish path := by
  obtain ⟨way, hpath, hchain⟩ := h
  exact ⟨way, hpath, hchain.imp fun a b hab => depends_of_leads hab⟩

lemma Trail.circular (hpath : Trail input start finish path) (hback : Trail input finish start back) :
    Cycle.Chain (fun a b => Depends input b a) ↑(path ++ back.tail.dropLast) := by
  obtain ⟨way, rfl, hthere⟩ := hpath
  obtain ⟨way', rfl, hreturn⟩ := hback
  have hround : (start :: way ++ finish :: (way' ++ [start])).IsChain (fun a b => Depends input b a) :=
    List.isChain_split.2 ⟨hthere, hreturn⟩
  simpa using hround

lemma sort_eq_error {fault : Fault} : sort input = .error fault ↔ (build input).checkAcyclic = .error fault := by
  rw [sort]
  cases (build input).checkAcyclic with
  | error e => simp [bind, Except.bind]
  | ok known => simp [bind, Except.bind, pure, Except.pure]

/-- **What is reported of a cycle is one.**  A list of entries that is not sorted is refused as circular.  The report names
a name that depends on itself, or a path from one name to another and one back, on which each next name depends on the one
before it; together they go round a cycle. -/
theorem sort_error_circular {fault : Fault} (h : sort input = .error fault) :
    ∃ start finish path back,
      fault.toDiagnostic.code = "graph.circulardep" ∧
      fault.toDiagnostic.details = [("from", start), ("to", finish), ("path", String.intercalate " -> " path),
        ("reverse", String.intercalate " -> " back)] ∧
      (start = finish ∧ Depends input start start ∧ path = [start] ∧ back = [start] ∨
        start ≠ finish ∧ Trail input start finish path ∧ Trail input finish start back) ∧
      Cycle.Chain (fun a b => Depends input b a) ↑(path ++ back.tail.dropLast) := by
  have hgenuine := genuine_of_checkAcyclic (sort_eq_error.1 h)
  cases fault with
  | cycle start finish path back =>
    refine ⟨start, finish, path, back, rfl, List.append_nil _, ?_⟩
    rcases hgenuine with ⟨rfl, hself, rfl, rfl⟩ | ⟨hne, hpath, hback⟩
    · have hdepends := depends_of_leads hself
      exact ⟨.inl ⟨rfl, hdepends, rfl, rfl⟩, by simpa using hdepends⟩
    · have hthere := trail_of_route hpath
      have hreturn := trail_of_route hback
      exact ⟨.inr ⟨hne, hthere, hreturn⟩, hthere.circular hreturn⟩
  | _ => cases hgenuine

/-- Two names are joined by several ways there and one back, which an entry of a name declared before adds. -/
def looped : List GraphNode :=
  [⟨"A", [], 0⟩, ⟨"B", [], 0⟩, ⟨"C", ["A"], 0⟩, ⟨"D", ["B"], 0⟩, ⟨"E", ["C", "D"], 0⟩, ⟨"F", ["A", "B"], 0⟩,
    ⟨"G", ["E", "F"], 0⟩, ⟨"H", ["G"], 0⟩, ⟨"A", ["H"], 0⟩]

theorem sort_error_looped : ∃ fault, sort looped = .error fault ∧ ∃ start finish path back,
    fault.toDiagnostic.code = "graph.circulardep" ∧
    fault.toDiagnostic.details = [("from", start), ("to", finish), ("path", String.intercalate " -> " path),
      ("reverse", String.intercalate " -> " back)] ∧
    (start = finish ∧ Depends looped start start ∧ path = [start] ∧ back = [start] ∨
      start ≠ finish ∧ Trail looped start finish path ∧ Trail looped finish start back) ∧
    Cycle.Chain (fun a b => Depends looped b a) ↑(path ++ back.tail.dropLast) := by
  have hsort : sort looped = .error (.cycle "A" "H" ["A", "C", "E", "G", "H"] ["H", "A"]) := by cbv
  exact ⟨_, hsort, sort_error_circular hsort⟩

end ReactiveTemplate.Graph
