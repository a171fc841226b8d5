import Mathlib.Data.Fintype.Card
import Mathlib.Data.List.Permutation
import Mathlib.Data.Set.Finite.List
import ReactiveTemplate.Proofs.Graph.Cycles
/-!
# Sorting — dependencies come first

Without cycles a visit of a name puts it behind everything it depends on (`grows_visit`), and the visits of names that
nothing depends on list all names (`mem_order`).
-/
set_option linter.all false

namespace ReactiveTemplate.Graph
open List

variable {a b : String}

variable {g : Graph}

/-- A list of names, each of them new and behind everything it depends on. -/
inductive Placed (g : Graph) : List String → Prop
  | nil : Placed g []
  | snoc {done : List String} {name : String} : Placed g done → name ∉ done → name ∈ g.names →
      (∀ b, g.Needs name b → b ∈ done) → Placed g (done ++ [name])

namespace Placed

variable {done : List String}

lemma nodup (h : g.Placed done) : done.Nodup := by
  induction h with
  | nil => exact nodup_nil
  | snoc _ hnew _ _ ih => simpa using List.Nodup.concat hnew ih

lemma subset (h : g.Placed done) : done ⊆ g.names := by
  induction h with
  | nil => exact nil_subset _
  | snoc _ _ hname _ ih => exact append_subset.2 ⟨ih, cons_subset.2 ⟨hname, nil_subset _⟩⟩

lemma idxOf_lt (h : g.Placed done) (ha : a ∈ done) (hab : g.Needs a b) :
    done.idxOf b < done.idxOf a := by
  induction h with
  | nil => cases ha
  | @snoc done name _ hnew _ hneeds ih =>
    by_cases hold : a ∈ done
    · have hlt := ih hold
      have hb : b ∈ done := idxOf_lt_length_iff.1 (hlt.trans (idxOf_lt_length_iff.2 hold))
      rwa [idxOf_append_of_mem hb, idxOf_append_of_mem hold]
    · have hname : a = name := by simpa [hold] using ha
      have hb : b ∈ done := hneeds b (hname ▸ hab)
      rw [idxOf_append_of_mem hb, idxOf_append_of_notMem hold]
      exact (idxOf_lt_length_iff.2 hb).trans_le (Nat.le_add_right _ _)

lemma mem_of_needs (h : g.Placed done) (ha : a ∈ done) (hab : g.Needs a b) : b ∈ done :=
  idxOf_lt_length_iff.1 ((h.idxOf_lt ha hab).trans (idxOf_lt_length_iff.2 ha))

lemma mem_of_reflTransGen (h : g.Placed done) (ha : a ∈ done)
    (hab : Relation.ReflTransGen g.Needs a b) : b ∈ done := by
  induction hab with
  | refl => exact ha
  | tail _ hedge ih => exact h.mem_of_needs ih hedge

end Placed

/-! ## Visits -/

/-- What visits of some names add: the names themselves and what they need, however far. -/
structure Grows (g : Graph) (names done done' : List String) : Prop where
  keeps : done <+: done'
  placed : g.Placed done'
  mem : ∀ x ∈ names, x ∈ done'
  needed : ∀ y ∈ done', y ∈ done ∨ ∃ x ∈ names, Relation.ReflTransGen g.Needs x y

variable {done names : List String} {x : String}

lemma grows_foldl {f : List String → String → List String}
    (hstep : ∀ x ∈ names, ∀ done, g.Placed done → Grows g [x] done (f done x)) (hdone : g.Placed done) :
    Grows g names done (names.foldl f done) := by
  induction names generalizing done with
  | nil => exact ⟨prefix_rfl, hdone, fun x hx => (by cases hx), fun y hy => .inl hy⟩
  | cons x names ih =>
    have hx := hstep x (.head _) done hdone
    have hrest := ih (fun y hy => hstep y (.tail _ hy)) hx.placed
    refine ⟨hx.keeps.trans hrest.keeps, hrest.placed, fun y hy => ?_, fun y hy => ?_⟩
    · rcases mem_cons.1 hy with rfl | hy
      · exact hrest.keeps.subset (hx.mem _ (.head _))
      · exact hrest.mem y hy
    · rcases hrest.needed y hy with hmid | ⟨z, hz, hzy⟩
      · rcases hx.needed y hmid with hold | ⟨z, hz, hzy⟩
        · exact .inl hold
        · exact .inr ⟨x, mem_cons_self, mem_singleton.1 hz ▸ hzy⟩
      · exact .inr ⟨z, mem_cons_of_mem _ hz, hzy⟩

lemma mem_ordered : x ∈ g.ordered names ↔ x ∈ names := mem_mergeSort

lemma grows_visit (hg : g.WellFormed) (hacyclic : g.Acyclic) {fuel : Nat} {above : List String} {name : String}
    (hnodup : above.Nodup) (hsubset : above ⊆ g.names) (habove : ∀ x ∈ above, Relation.TransGen g.Needs x name)
    (hbound : g.vertices.length < fuel + above.length) (hname : name ∈ g.names) (hdone : g.Placed done) :
    Grows g [name] done (visit g fuel done name) := by
  induction fuel generalizing above done name with
  | zero =>
    have hle := (subperm_of_subset hnodup hsubset).length_le
    rw [names, length_map] at hle
    omega
  | succ fuel ih =>
    rw [visit]
    split
    · rename_i hmem
      have hmem' : name ∈ done := by simpa using hmem
      exact ⟨prefix_rfl, hdone, forall_mem_singleton.2 hmem', fun y hy => .inl hy⟩
    · rename_i hmem
      have hnew : name ∉ done := by simpa using hmem
      have hfresh : name ∉ above := fun h => hacyclic name (habove name h)
      have hstep : ∀ x ∈ g.ordered (g.dependencies name), ∀ done, g.Placed done → Grows g [x] done (visit g fuel done x) := by
        intro x hx done hdone
        have hneeds : g.Needs name x := mem_ordered.1 hx
        refine ih (nodup_cons.2 ⟨hfresh, hnodup⟩) (cons_subset.2 ⟨hname, hsubset⟩)
          (forall_mem_cons.2 ⟨.single hneeds, fun y hy => (habove y hy).tail hneeds⟩) ?_ (hg.mem_names hneeds).2 hdone
        rw [length_cons]
        omega
      have hdeps := grows_foldl hstep hdone
      have hneeded : ∀ y, y ∈ (g.ordered (g.dependencies name)).foldl (visit g fuel) done →
          y ∈ done ∨ Relation.TransGen g.Needs name y := fun y hy => by
        rcases hdeps.needed y hy with hold | ⟨x, hx, hxy⟩
        · exact .inl hold
        · exact .inr (.head' (mem_ordered.1 hx) hxy)
      refine ⟨hdeps.keeps.trans (prefix_append _ _), hdeps.placed.snoc ?_ hname ?_,
        forall_mem_singleton.2 (mem_append_right _ (.head _)), fun y hy => ?_⟩
      · exact fun h => (hneeded name h).elim hnew (hacyclic name)
      · exact fun b hb => hdeps.mem b (mem_ordered.2 hb)
      · rcases mem_append.1 hy with hy | hy
        · exact (hneeded y hy).imp_right fun h => ⟨name, mem_cons_self, h.to_reflTransGen⟩
        · exact .inr ⟨name, mem_cons_self, mem_singleton.1 hy ▸ .refl⟩

/-! ## The order of a graph -/

def roots (g : Graph) : List String := g.ordered (g.names.filter (fun name => (g.dependents name).isEmpty))

lemma mem_roots : x ∈ g.roots ↔ x ∈ g.names ∧ g.dependents x = [] := by
  rw [roots, mem_ordered, mem_filter, List.isEmpty_iff]

lemma grows_roots (hg : g.WellFormed) (hacyclic : g.Acyclic) (hnames : names ⊆ g.names)
    (hdone : g.Placed done) : Grows g names done (names.foldl (visit g (g.vertices.length + 1)) done) :=
  grows_foldl (fun x hx done hdone => grows_visit hg hacyclic nodup_nil (nil_subset _)
    (fun y hy => by cases hy) (by simp) (hnames hx) hdone) hdone

lemma grows_order (hg : g.WellFormed) (hacyclic : g.Acyclic) : Grows g g.roots [] g.order :=
  grows_roots hg hacyclic (fun _ hx => (mem_roots.1 hx).1) .nil

lemma exists_root (hg : g.WellFormed) (hacyclic : g.Acyclic) (hx : x ∈ g.names) :
    ∃ r ∈ g.roots, Relation.ReflTransGen g.Needs r x := by
  let above (a b : { x // x ∈ g.names }) : Prop := Relation.TransGen g.Needs a b
  have : IsTrans { x // x ∈ g.names } above := ⟨fun _ _ _ hab hbc => Relation.TransGen.trans hab hbc⟩
  have : Std.Irrefl above := ⟨fun a h => hacyclic a h⟩
  have : Finite { x // x ∈ g.names } := finite_toSet g.names
  have hwf : WellFounded above := Finite.wellFounded_of_trans_of_irrefl above
  suffices ∀ a : { x // x ∈ g.names }, ∃ r ∈ g.roots, Relation.ReflTransGen g.Needs r a from this ⟨x, hx⟩
  intro a
  induction a using hwf.induction with
  | _ a ih =>
    cases hdependents : g.dependents a with
    | nil => exact ⟨a, mem_roots.2 ⟨a.2, hdependents⟩, .refl⟩
    | cons y rest =>
      have hya : g.Needs y a := (mem_dependents hg.nodup).1 (hdependents ▸ (.head _))
      obtain ⟨r, hr, hreach⟩ := ih ⟨y, (hg.mem_names hya).1⟩ (.single hya)
      exact ⟨r, hr, hreach.tail hya⟩

lemma mem_order (hg : g.WellFormed) (hacyclic : g.Acyclic) : x ∈ g.order ↔ x ∈ g.names := by
  have horder := grows_order hg hacyclic
  constructor
  · exact fun hx => horder.placed.subset hx
  · intro hx
    obtain ⟨r, hr, hreach⟩ := exists_root hg hacyclic hx
    exact horder.placed.mem_of_reflTransGen (horder.mem r hr) hreach

/-! ## Priorities -/

lemma precedes_iff :
    g.precedes a b = true ↔ g.priority b < g.priority a ∨ g.priority a = g.priority b ∧ a ≤ b := by
  simp [precedes]

lemma precedes_trans (a b c : String) (hab : g.precedes a b = true) (hbc : g.precedes b c = true) :
    g.precedes a c = true := by
  rw [precedes_iff] at *
  rcases hab with hab | ⟨hab, hle⟩ <;> rcases hbc with hbc | ⟨hbc, hle'⟩
  · exact .inl (hbc.trans hab)
  · exact .inl (hbc ▸ hab)
  · exact .inl (hab ▸ hbc)
  · exact .inr ⟨hab.trans hbc, String.le_trans hle hle'⟩

lemma precedes_total (a b : String) : (g.precedes a b || g.precedes b a) = true := by
  rw [Bool.or_eq_true, precedes_iff, precedes_iff]
  rcases String.le_total a b with hle | hle
  · by_cases heq : g.priority a = g.priority b
    · exact .inl (.inr ⟨heq, hle⟩)
    · omega
  · by_cases heq : g.priority a = g.priority b
    · exact .inr (.inr ⟨heq.symm, hle⟩)
    · omega

lemma pairwise_ordered (names : List String) : (g.ordered names).Pairwise (fun a b => g.precedes a b = true) := by
  exact pairwise_mergeSort (precedes_trans) (precedes_total) names

lemma idxOf_order_lt_of_roots (hg : g.WellFormed) (hacyclic : g.Acyclic) {first behind : List String} {y : String}
    (hsplit : g.roots = first ++ behind) (hx : x ∈ first) (hy : ∀ z ∈ first, ¬ Relation.ReflTransGen g.Needs z y) :
    g.order.idxOf x < g.order.idxOf y := by
  have hnames : ∀ z ∈ first ++ behind, z ∈ g.names := fun z hz => (mem_roots.1 (hsplit ▸ hz)).1
  have hfirst := grows_roots hg hacyclic (fun z hz => hnames z (mem_append_left _ hz)) (Placed.nil)
  have hrest := grows_roots hg hacyclic (fun z hz => hnames z (mem_append_right _ hz)) hfirst.placed
  have horder : g.order = behind.foldl (visit g (g.vertices.length + 1))
      (first.foldl (visit g (g.vertices.length + 1)) []) := by
    rw [← foldl_append, ← hsplit]
    rfl
  obtain ⟨more, hmore⟩ := hrest.keeps
  have hxmem := hfirst.mem x hx
  have hymem : y ∉ first.foldl (visit g (g.vertices.length + 1)) [] := fun h => by
    rcases hfirst.needed y h with hnil | ⟨z, hz, hreach⟩
    · cases hnil
    · exact hy z hz hreach
  rw [horder, ← hmore, idxOf_append_of_mem hxmem, idxOf_append_of_notMem hymem]
  exact (idxOf_lt_length_iff.2 hxmem).trans_le (Nat.le_add_right _ _)

lemma idxOf_order_lt (hg : g.WellFormed) (hacyclic : g.Acyclic) {P : String → Prop}
    (hfree : ∀ x ∈ g.names, P x → g.dependents x = [] ∧ g.dependencies x = [])
    (hpriority : ∀ x ∈ g.names, ∀ y ∈ g.names, P x → ¬ P y → g.priority y < g.priority x)
    {y : String} (hx : x ∈ g.names) (hPx : P x) (hPy : ¬ P y) :
    g.order.idxOf x < g.order.idxOf y := by
  obtain ⟨before, behind, hsplit⟩ := append_of_mem (mem_roots.2 ⟨hx, (hfree x hx hPx).1⟩)
  have hnames : ∀ z ∈ before ++ [x], z ∈ g.names := fun z hz =>
    (mem_roots.1 (hsplit ▸ append_cons _ _ _ ▸ mem_append_left _ hz)).1
  have hP : ∀ z ∈ before ++ [x], P z := by
    intro z hz
    rcases mem_append.1 hz with hz' | hz'
    · by_contra hnot
      have hlt := hpriority x hx z (hnames z hz) hPx hnot
      have hsorted : g.roots.Pairwise (fun a b => g.precedes a b = true) := pairwise_ordered _
      rw [hsplit] at hsorted
      rcases precedes_iff.1 ((pairwise_append.1 hsorted).2.2 z hz' x (.head _)) with hgt | ⟨heq, -⟩ <;> omega
    · rwa [mem_singleton.1 hz']
  -- Every name up to this one is free, so it leads to no name but itself.
  refine idxOf_order_lt_of_roots hg hacyclic (hsplit.trans (append_cons _ _ _))
    (mem_append_right _ (.head _)) fun z hz hreach => ?_
  rcases Relation.ReflTransGen.cases_head hreach with rfl | ⟨v, hedge, -⟩
  · exact hPy (hP z hz)
  · rw [Needs, (hfree z (hnames z hz) (hP z hz)).2] at hedge
    cases hedge

/-! ## The order of a list of entries -/

lemma sort_eq_ok {input : List GraphNode} {out : List String} :
    sort input = .ok out ↔ (∃ known, (build input).checkAcyclic = .ok known) ∧ out = (build input).order := by
  rw [sort]
  cases (build input).checkAcyclic with
  | error e => simp [Except.bind]
  | ok known => simp [bind, Except.bind, pure, Except.pure, eq_comm]

lemma acyclic_build {input : List GraphNode} :
    (build input).Acyclic ↔ ∀ x, ¬ Relation.TransGen (Depends input) x x := by
  have hneeds : (build input).Needs = Depends input := funext fun a => funext fun b => propext needs_build
  rw [Acyclic, hneeds]

/-- **A list of entries is sorted unless a name depends on itself, however far**; then every name that an entry declares
or depends on is listed once, behind everything that it depends on. -/
theorem sort_topological (input : List GraphNode) :
    ((∃ out, sort input = .ok out) ↔ ∀ x, ¬ Relation.TransGen (Depends input) x x) ∧
      ∀ out, sort input = .ok out → out.Nodup ∧ (∀ x, x ∈ out ↔ Mentions input x) ∧
        ∀ a b, Depends input a b → out.idxOf b < out.idxOf a := by
  have hg := wellFormed_build input
  simp only [sort_eq_ok, ← acyclic_build, ← checkAcyclic_eq_ok_iff hg, exists_and_left, exists_eq, and_true, true_and]
  rintro out ⟨hknown, rfl⟩
  have hacyclic := (checkAcyclic_eq_ok_iff hg).1 hknown
  have horder := grows_order hg hacyclic
  refine ⟨horder.placed.nodup, fun x => ?_, fun a b hab => ?_⟩
  · rw [mem_order hg hacyclic, mem_names_build]
  · have hneeds := needs_build.2 hab
    exact horder.placed.idxOf_lt ((mem_order hg hacyclic).2 (hg.mem_names hneeds).1) hneeds

/-- Entries with a repeated name, a repeated dependency and dependencies that no entry declares. -/
theorem sort_topological_diamond :
    let input : List GraphNode :=
      [⟨"app", ["left", "right", "left"], 0⟩, ⟨"left", ["base"], 1⟩, ⟨"app", ["theme"], 2⟩, ⟨"right", ["base"], 0⟩]
    let out := ["base", "left", "right", "theme", "app"]
    sort input = .ok out ∧ out.Nodup ∧ (∀ x, x ∈ out ↔ Mentions input x) ∧
      ∀ a b, Depends input a b → out.idxOf b < out.idxOf a := by
  intro input out
  have hsort : sort input = .ok out := by cbv
  exact ⟨hsort, (sort_topological input).2 out hsort⟩

end ReactiveTemplate.Graph
