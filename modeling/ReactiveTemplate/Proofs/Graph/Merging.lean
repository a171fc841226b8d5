import ReactiveTemplate.Graph
import Mathlib.Data.List.Basic
import Mathlib.Data.List.Nodup
import Mathlib.Order.MinMax
/-!
# Merging — the graph of a list of entries

The graph of a list of entries has one vertex for each name that an entry declares or depends on (`mem_names_build`),
and a name depends on what any of its entries lists (`needs_build`).
-/
set_option linter.all false

namespace ReactiveTemplate.Graph
open List

variable {xs ys : List String}

def Depends (input : List GraphNode) (a b : String) : Prop := ∃ n ∈ input, n.name = a ∧ b ∈ n.dependencies

def Mentions (input : List GraphNode) (x : String) : Prop := ∃ n ∈ input, n.name = x ∨ x ∈ n.dependencies

/-- The greatest priority among the entries of a name, or `none` if no entry declares it. -/
def greatest (input : List GraphNode) (x : String) : Option Int :=
  ((input.filter (fun n => n.name == x)).map (·.priority)).max?

def Needs (g : Graph) (a b : String) : Prop := b ∈ g.dependencies a

/-- A graph with one vertex for each name, all dependencies among them. -/
structure WellFormed (g : Graph) : Prop where
  nodup : g.names.Nodup
  closed : ∀ v ∈ g.vertices, ∀ d ∈ v.dependencies, d ∈ g.names

/-! ## Both directions of the edges -/

variable {g : Graph} {a b x : String} {input : List GraphNode}

lemma find?_eq_some (h : g.names.Nodup) {v : Vertex} : g.find? x = some v ↔ v ∈ g.vertices ∧ v.name = x := by
  constructor
  · intro hfind
    exact ⟨mem_of_find?_eq_some hfind, by simpa using find?_some hfind⟩
  · rintro ⟨hmem, rfl⟩
    unfold find? names at *
    generalize g.vertices = vs at h hmem
    induction vs with
    | nil => cases hmem
    | cons w vs ih =>
      rw [map_cons, nodup_cons] at h
      rcases mem_cons.1 hmem with rfl | hmem
      · simp
      · have hne : w.name ≠ v.name := fun heq => h.1 (heq ▸ mem_map_of_mem hmem)
        rw [find?_cons_of_neg (by simpa using hne)]
        exact ih h.2 hmem

lemma needs_iff (h : g.names.Nodup) : g.Needs a b ↔ ∃ v ∈ g.vertices, v.name = a ∧ b ∈ v.dependencies := by
  unfold Needs dependencies
  constructor
  · intro hb
    cases hfind : g.find? a with
    | none => simp [hfind] at hb
    | some v =>
      obtain ⟨hmem, hname⟩ := (find?_eq_some h).1 hfind
      exact ⟨v, hmem, hname, by simpa [hfind] using hb⟩
  · rintro ⟨v, hmem, hname, hb⟩
    rw [(find?_eq_some h).2 ⟨hmem, hname⟩]
    exact hb

lemma mem_dependents (h : g.names.Nodup) : a ∈ g.dependents b ↔ g.Needs a b := by
  rw [needs_iff h, dependents, mem_map]
  constructor
  · rintro ⟨v, hv, rfl⟩
    obtain ⟨hmem, hb⟩ := mem_filter.1 hv
    exact ⟨v, hmem, rfl, by simpa using hb⟩
  · rintro ⟨v, hmem, rfl, hb⟩
    exact ⟨v, mem_filter.2 ⟨hmem, by simpa using hb⟩, rfl⟩

lemma WellFormed.mem_names (h : g.WellFormed) (hab : g.Needs a b) : a ∈ g.names ∧ b ∈ g.names := by
  obtain ⟨v, hmem, rfl, hb⟩ := (needs_iff h.nodup).1 hab
  exact ⟨mem_map_of_mem hmem, h.closed v hmem b hb⟩

/-! ## Declaring entries -/

lemma mem_union : x ∈ union xs ys ↔ x ∈ xs ∨ x ∈ ys := by
  unfold union
  induction ys generalizing xs with
  | nil => simp
  | cons y ys ih =>
    rw [foldl_cons, ih]
    split
    · rename_i hy
      have hy : y ∈ xs := by simpa using hy
      rw [mem_cons]
      refine ⟨fun h => h.imp_right .inr, ?_⟩
      rintro (h | rfl | h)
      · exact .inl h
      · exact .inl hy
      · exact .inr h
    · simp [or_assoc]

lemma nodup_union (h : xs.Nodup) : (union xs ys).Nodup := by
  unfold union
  induction ys generalizing xs with
  | nil => exact h
  | cons y ys ih =>
    rw [foldl_cons]
    split
    · exact ih h
    · rename_i hy
      exact ih (by simpa using List.Nodup.concat (by simpa using hy) h)

lemma greatest_snoc_of_ne {n : GraphNode} (h : n.name ≠ x) : greatest (input ++ [n]) x = greatest input x := by
  simp [greatest, h]

lemma greatest_snoc_of_some {n : GraphNode} {p : Int} (h : greatest input n.name = some p) :
    greatest (input ++ [n]) n.name = some (max p n.priority) := by
  unfold greatest at *
  rw [filter_append, map_append]
  generalize (input.filter (fun m => m.name == n.name)).map (·.priority) = priorities at h
  cases priorities with
  | nil => cases h
  | cons q priorities =>
    rw [max?_cons', Option.some.injEq] at h
    simp only [filter_cons, beq_self_eq_true, ↓reduceIte, filter_nil, map_cons, map_nil,
      cons_append, max?_cons', foldl_append, foldl_cons, foldl_nil, h]

lemma greatest_eq_none : greatest input x = none ↔ ∀ n ∈ input, n.name ≠ x := by
  simp [greatest]

/-- Vertices that stand for the entries of a list: one for each name that is declared. -/
structure Declares (vertices : List Vertex) (input : List GraphNode) : Prop where
  nodup : (vertices.map (·.name)).Nodup
  distinct : ∀ v ∈ vertices, v.dependencies.Nodup
  names : ∀ x, x ∈ vertices.map (·.name) ↔ ∃ n ∈ input, n.name = x
  edges : ∀ a b, (∃ v ∈ vertices, v.name = a ∧ b ∈ v.dependencies) ↔ Depends input a b
  priorities : ∀ v ∈ vertices, greatest input v.name = some v.priority

lemma depends_snoc {n : GraphNode} :
    Depends (input ++ [n]) a b ↔ Depends input a b ∨ n.name = a ∧ b ∈ n.dependencies := by
  simp [Depends]

lemma any_name_eq_true {vertices : List Vertex} :
    vertices.any (fun v => v.name == x) = true ↔ x ∈ vertices.map (·.name) := by
  simp [any_eq_true]

section

variable {vertices : List Vertex} {input : List GraphNode} {n : GraphNode}

lemma Declares.merge (h : Declares vertices input) (hmem : n.name ∈ vertices.map (·.name)) :
    Declares (declare vertices n) (input ++ [n]) := by
  rw [declare, if_pos (any_name_eq_true.2 hmem)]
  have hnames : ∀ vs : List Vertex, (vs.map (fun v =>
      if v.name == n.name then (⟨v.name, max v.priority n.priority, union v.dependencies n.dependencies⟩ : Vertex)
      else v)).map (·.name) = vs.map (·.name) := by
    intro vs
    rw [map_map]
    refine map_congr_left fun v _ => ?_
    simp only [Function.comp_apply]
    split <;> rfl
  refine ⟨by rw [hnames]; exact h.nodup, fun w hw => ?_, fun x => ?_, fun a b => ?_, fun w hw => ?_⟩
  · obtain ⟨v, hv, rfl⟩ := mem_map.1 hw
    split
    · exact nodup_union (h.distinct v hv)
    · exact h.distinct v hv
  · rw [hnames, h.names]
    obtain ⟨m, hm, hname⟩ := (h.names _).1 hmem
    constructor
    · rintro ⟨k, hk, rfl⟩
      exact ⟨k, mem_append_left _ hk, rfl⟩
    · rintro ⟨k, hk, rfl⟩
      rcases mem_append.1 hk with hk | hk
      · exact ⟨k, hk, rfl⟩
      · rw [mem_singleton.1 hk]
        exact ⟨m, hm, hname⟩
  · rw [depends_snoc, ← h.edges]
    constructor
    · rintro ⟨w, hw, rfl, hb⟩
      obtain ⟨v, hv, rfl⟩ := mem_map.1 hw
      split at hb
      · rename_i hname
        rw [if_pos hname]
        rcases mem_union.1 hb with hb | hb
        · exact .inl ⟨v, hv, rfl, hb⟩
        · exact .inr ⟨(beq_iff_eq.1 hname).symm, hb⟩
      · rename_i hname
        rw [if_neg hname]
        exact .inl ⟨v, hv, rfl, hb⟩
    · rintro (⟨v, hv, rfl, hb⟩ | ⟨rfl, hb⟩)
      · refine ⟨_, mem_map_of_mem hv, ?_, ?_⟩
        · split <;> rfl
        · split
          · exact mem_union.2 (.inl hb)
          · exact hb
      · obtain ⟨v, hv, hname⟩ := mem_map.1 hmem
        refine ⟨_, mem_map_of_mem hv, ?_, ?_⟩
        · split <;> exact hname
        · rw [if_pos (beq_iff_eq.2 hname)]
          exact mem_union.2 (.inr hb)
  · obtain ⟨v, hv, rfl⟩ := mem_map.1 hw
    have hold := h.priorities v hv
    split
    · rename_i hsame
      have hname : v.name = n.name := beq_iff_eq.1 hsame
      exact hname ▸ greatest_snoc_of_some (hname ▸ hold)
    · rename_i hother
      have hname : n.name ≠ v.name := fun heq => hother (beq_iff_eq.2 heq.symm)
      rw [greatest_snoc_of_ne hname, hold]

lemma Declares.add (h : Declares vertices input) (hnew : n.name ∉ vertices.map (·.name)) :
    Declares (declare vertices n) (input ++ [n]) := by
  rw [declare, if_neg (fun hany => hnew (any_name_eq_true.1 hany))]
  refine ⟨?_, fun w hw => ?_, fun x => ?_, fun a b => ?_, fun w hw => ?_⟩
  · simpa using List.Nodup.concat hnew h.nodup
  · rcases mem_append.1 hw with hold | hadded
    · exact h.distinct w hold
    · rw [mem_singleton.1 hadded]
      exact nodup_union nodup_nil
  · rw [map_append, map_singleton, mem_append, h.names]
    simp [or_and_right, exists_or, eq_comm]
  · rw [depends_snoc, ← h.edges]
    simp [or_and_right, exists_or, mem_union]
  · rcases mem_append.1 hw with hold | hadded
    · have hname : n.name ≠ w.name := fun heq => hnew (heq ▸ mem_map_of_mem hold)
      rw [greatest_snoc_of_ne hname, h.priorities w hold]
    · rw [mem_singleton.1 hadded]
      have hnone : input.filter (fun m => m.name == n.name) = [] :=
        filter_eq_nil_iff.2 fun m hm heq => hnew ((h.names _).2 ⟨m, hm, beq_iff_eq.1 heq⟩)
      simp [greatest, filter_append, hnone]

lemma Declares.foldl {more : List GraphNode} (h : Declares vertices input) :
    Declares (more.foldl declare vertices) (input ++ more) := by
  induction more generalizing vertices input with
  | nil => simpa using h
  | cons n more ih =>
    have hstep : Declares (declare vertices n) (input ++ [n]) := by
      by_cases hmem : n.name ∈ vertices.map (·.name)
      · exact h.merge hmem
      · exact h.add hmem
    rw [append_cons]
    exact ih hstep

lemma declares_declared (input : List GraphNode) : Declares (input.foldl declare []) input := by
  have hnil : Declares [] [] := ⟨nodup_nil, by simp, by simp, by simp [Depends], by simp⟩
  exact hnil.foldl

end

/-! ## Adding the dependencies that no entry declares -/

/-- Vertices with more vertices behind them, of priority zero and without dependencies. -/
structure Extends (before after : List Vertex) (xs : List String) : Prop where
  kept : before ⊆ after
  nodup : (after.map (·.name)).Nodup
  names : ∀ x, x ∈ after.map (·.name) ↔ x ∈ before.map (·.name) ∨ x ∈ xs
  added : ∀ v ∈ after, v ∈ before ∨ v.priority = 0 ∧ v.dependencies = []

lemma Extends.mention {before after : List Vertex} (h : Extends before after xs) (x : String) :
    Extends before (mention after x) (xs ++ [x]) := by
  unfold Graph.mention
  split
  · rename_i hany
    have hx := (h.names x).1 (any_name_eq_true.1 hany)
    refine ⟨h.kept, h.nodup, fun y => ?_, h.added⟩
    rw [h.names, mem_append, mem_singleton]
    constructor
    · exact fun hy => hy.imp_right .inl
    · rintro (hy | hy | rfl)
      · exact .inl hy
      · exact .inr hy
      · exact hx
  · rename_i hany
    refine ⟨fun v hv => mem_append_left _ (h.kept hv), ?_, fun y => ?_, fun v hv => ?_⟩
    · simpa using List.Nodup.concat (fun hx => hany (any_name_eq_true.2 hx)) h.nodup
    · rw [map_append, map_singleton, mem_append, h.names, mem_append, or_assoc]
    · rcases mem_append.1 hv with hold | hnew
      · exact h.added v hold
      · rw [mem_singleton.1 hnew]
        exact .inr ⟨rfl, rfl⟩

lemma Extends.foldl {before after : List Vertex} (h : Extends before after xs) :
    Extends before (ys.foldl Graph.mention after) (xs ++ ys) := by
  induction ys generalizing after xs with
  | nil => simpa using h
  | cons y ys ih =>
    rw [foldl_cons, append_cons]
    exact ih (h.mention y)

/-! ## The graph -/

lemma extends_build (input : List GraphNode) :
    Extends (input.foldl declare []) (build input).vertices ((input.foldl declare []).flatMap (·.dependencies)) := by
  have hself : Extends (input.foldl declare []) (input.foldl declare []) [] :=
    ⟨fun _ hv => hv, (declares_declared input).nodup, by simp, fun _ hv => .inl hv⟩
  exact hself.foldl

lemma nodup_names_build (input : List GraphNode) : (build input).names.Nodup := (extends_build input).nodup

lemma needs_build : (build input).Needs a b ↔ Depends input a b := by
  rw [needs_iff (nodup_names_build input), ← (declares_declared input).edges]
  constructor
  · rintro ⟨v, hv, rfl, hb⟩
    rcases (extends_build input).added v hv with hold | ⟨-, hnone⟩
    · exact ⟨v, hold, rfl, hb⟩
    · rw [hnone] at hb
      cases hb
  · rintro ⟨v, hv, hname, hb⟩
    exact ⟨v, (extends_build input).kept hv, hname, hb⟩

lemma nodup_dependencies_build (input : List GraphNode) (x : String) : ((build input).dependencies x).Nodup := by
  unfold dependencies
  cases hfind : (build input).find? x with
  | none => exact nodup_nil
  | some v =>
    obtain ⟨hmem, -⟩ := (find?_eq_some (nodup_names_build input)).1 hfind
    rcases (extends_build input).added v hmem with hold | ⟨-, hnone⟩
    · exact (declares_declared input).distinct v hold
    · rw [Option.map_some, hnone]
      exact nodup_nil

lemma mem_names_build : x ∈ (build input).names ↔ Mentions input x := by
  have hdeps : x ∈ (input.foldl declare []).flatMap (·.dependencies) ↔ ∃ a, Depends input a x := by
    simp only [← (declares_declared input).edges, mem_flatMap]
    exact ⟨fun ⟨v, hv, hx⟩ => ⟨v.name, v, hv, rfl, hx⟩, fun ⟨_, v, hv, _, hx⟩ => ⟨v, hv, hx⟩⟩
  rw [names, (extends_build input).names, (declares_declared input).names, hdeps]
  constructor
  · rintro (⟨n, hn, rfl⟩ | ⟨a, n, hn, rfl, hx⟩)
    · exact ⟨n, hn, .inl rfl⟩
    · exact ⟨n, hn, .inr hx⟩
  · rintro ⟨n, hn, rfl | hx⟩
    · exact .inl ⟨n, hn, rfl⟩
    · exact .inr ⟨n.name, n, hn, rfl, hx⟩

lemma priority_build_eq (input : List GraphNode) (x : String) :
    (build input).priority x = (greatest input x).getD 0 := by
  have hnodup := nodup_names_build input
  by_cases hdeclared : ∃ n ∈ input, n.name = x
  · obtain ⟨v, hv, rfl⟩ := mem_map.1 (((declares_declared input).names x).2 hdeclared)
    rw [priority, (find?_eq_some hnodup).2 ⟨(extends_build input).kept hv, rfl⟩,
      (declares_declared input).priorities v hv]
    rfl
  · rw [greatest_eq_none.2 fun n hn hname => hdeclared ⟨n, hn, hname⟩, priority]
    cases hfind : (build input).find? x with
    | none => rfl
    | some v =>
      obtain ⟨hv, hname⟩ := (find?_eq_some hnodup).1 hfind
      rcases (extends_build input).added v hv with hold | ⟨hzero, -⟩
      · exact absurd (((declares_declared input).names x).1 (hname ▸ mem_map_of_mem hold)) hdeclared
      · exact hzero

lemma priority_build {n : GraphNode} (hn : n ∈ input) :
    ∃ m ∈ input, m.name = n.name ∧ (build input).priority n.name = m.priority := by
  rw [priority_build_eq]
  cases hgreatest : greatest input n.name with
  | none => exact absurd rfl (greatest_eq_none.1 hgreatest n hn)
  | some p =>
    obtain ⟨m, hm, rfl⟩ := mem_map.1 (max?_mem hgreatest)
    obtain ⟨hmem, hname⟩ := mem_filter.1 hm
    exact ⟨m, hmem, beq_iff_eq.1 hname, rfl⟩

lemma wellFormed_build (input : List GraphNode) : (build input).WellFormed where
  nodup := nodup_names_build input
  closed v hv d hd := by
    obtain ⟨n, hn, -, hmem⟩ := needs_build.1 ((needs_iff (nodup_names_build input)).2 ⟨v, hv, rfl, hd⟩)
    exact mem_names_build.2 ⟨n, hn, .inr hmem⟩

end ReactiveTemplate.Graph
