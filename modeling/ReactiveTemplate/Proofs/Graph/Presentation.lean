import ReactiveTemplate.Proofs.Graph.Sorting
/-!
# Presentation — the order of a graph, however it is written down

Lists of entries that say the same of each name build graphs with the same vertices in other orders (`Like`).
-/
set_option linter.all false

namespace ReactiveTemplate.Graph
open List

variable {a b : String}

/-! ## Like graphs -/

structure Like (g h : Graph) : Prop where
  names : g.names.Perm h.names
  priority : ∀ x, g.priority x = h.priority x
  dependencies : ∀ x, (g.dependencies x).Perm (h.dependencies x)

section

variable {g h : Graph}

lemma precedes_antisymm (hab : g.precedes a b = true) (hba : g.precedes b a = true) : a = b := by
  rcases precedes_iff.1 hab with hlt | ⟨heq, hle⟩ <;> rcases precedes_iff.1 hba with hlt' | ⟨heq', hle'⟩
  · omega
  · omega
  · omega
  · exact String.le_antisymm hle hle'

namespace Like

lemma ordered_eq (hlike : g.Like h) {xs ys : List String} (hperm : xs.Perm ys) : g.ordered xs = h.ordered ys := by
  have hprecedes : h.precedes = g.precedes := by
    funext a b
    simp [precedes, hlike.priority]
  have hsorted : (g.ordered ys).Pairwise (fun a b => g.precedes a b = true) := pairwise_ordered ys
  rw [ordered.eq_1 h, hprecedes]
  refine List.Perm.eq_of_pairwise (fun a b _ _ => precedes_antisymm) (pairwise_ordered xs) hsorted ?_
  exact ((mergeSort_perm xs _).trans hperm).trans (mergeSort_perm ys _).symm

lemma needs_iff (hlike : g.Like h) : g.Needs a b ↔ h.Needs a b := (hlike.dependencies a).mem_iff

lemma length_eq (hlike : g.Like h) : g.vertices.length = h.vertices.length := by
  simpa [Graph.names] using hlike.names.length_eq

lemma visit_eq (hlike : g.Like h) (fuel : Nat) : visit g fuel = visit h fuel := by
  induction fuel with
  | zero => rfl
  | succ fuel ih =>
    funext done name
    rw [visit, visit, ih, hlike.ordered_eq (hlike.dependencies name)]

lemma dependents_isEmpty (hlike : g.Like h) (hg : g.WellFormed) (hh : h.WellFormed) (x : String) :
    (g.dependents x).isEmpty = (h.dependents x).isEmpty := by
  rw [Bool.eq_iff_iff, List.isEmpty_iff, List.isEmpty_iff, eq_nil_iff_forall_not_mem,
    eq_nil_iff_forall_not_mem]
  simp only [mem_dependents hg.nodup, mem_dependents hh.nodup, hlike.needs_iff]

lemma order_eq (hlike : g.Like h) (hg : g.WellFormed) (hh : h.WellFormed) : g.order = h.order := by
  have hroots : (g.names.filter (fun name => (g.dependents name).isEmpty)).Perm
      (h.names.filter (fun name => (h.dependents name).isEmpty)) := by
    simp only [hlike.dependents_isEmpty hg hh]
    exact hlike.names.filter _
  rw [order, order, hlike.ordered_eq hroots, hlike.length_eq, hlike.visit_eq]

end Like

end

/-! ## Lists that say the same -/

/-- Lists that declare the same names, with the same greatest priority and the same dependencies for each: their entries
and what these list may be permuted, repeated, and split or put together by name. -/
structure SayTheSame (input input' : List GraphNode) : Prop where
  priorities : ∀ x, greatest input x = greatest input' x
  depends : ∀ a b, Depends input a b ↔ Depends input' a b

variable {input input' : List GraphNode}

lemma mentions_iff {x : String} : Mentions input x ↔ greatest input x ≠ none ∨ ∃ a, Depends input a x := by
  simp only [Ne, greatest_eq_none, not_forall, not_not]
  constructor
  · rintro ⟨n, hn, hname | hx⟩
    · exact .inl ⟨n, hn, hname⟩
    · exact .inr ⟨n.name, n, hn, rfl, hx⟩
  · rintro (⟨n, hn, hname⟩ | ⟨_, n, hn, -, hx⟩)
    · exact ⟨n, hn, .inl hname⟩
    · exact ⟨n, hn, .inr hx⟩

lemma SayTheSame.like (hsame : SayTheSame input input') : (build input).Like (build input') where
  names := (perm_ext_iff_of_nodup (nodup_names_build input) (nodup_names_build input')).2 fun x => by
    simp [mem_names_build, mentions_iff, hsame.priorities, hsame.depends]
  priority x := by rw [priority_build_eq, priority_build_eq, hsame.priorities]
  dependencies x := (perm_ext_iff_of_nodup (nodup_dependencies_build input x)
    (nodup_dependencies_build input' x)).2 fun b => needs_build.trans ((hsame.depends x b).trans needs_build.symm)

/-! ## Names that nothing depends on -/

def Ahead (input : List GraphNode) (a b : String) : Prop :=
  (greatest input b).getD 0 < (greatest input a).getD 0 ∨
    (greatest input a).getD 0 = (greatest input b).getD 0 ∧ a < b

lemma idxOf_roots_lt {g : Graph} (hg : g.WellFormed) (hacyclic : g.Acyclic) (ha : a ∈ g.roots)
    (hb : b ∈ g.roots) (hab : g.precedes b a = false) : g.order.idxOf a < g.order.idxOf b := by
  obtain ⟨before, behind, hsplit⟩ := append_of_mem ha
  refine idxOf_order_lt_of_roots hg hacyclic (hsplit.trans (append_cons _ _ _))
    (mem_append_right _ (.head _)) fun z hz hreach => ?_
  rcases Relation.ReflTransGen.cases_tail hreach with rfl | ⟨w, -, hedge⟩
  · have hsorted : (before ++ a :: behind).Pairwise (fun a b => g.precedes a b = true) := hsplit ▸ pairwise_ordered _
    have hprecedes : g.precedes b a = true := by
      rcases mem_append.1 hz with hz | hz
      · exact (pairwise_append.1 hsorted).2.2 b hz a (.head _)
      · rw [mem_singleton.1 hz]
        exact precedes_iff.2 (.inr ⟨rfl, String.le_refl a⟩)
    rw [hab] at hprecedes
    cases hprecedes
  · have hdependents := (mem_dependents hg.nodup).2 hedge
    rw [(mem_roots.1 hb).2] at hdependents
    cases hdependents

lemma precedes_build : (build input).precedes b a = false ↔ Ahead input a b := by
  rw [← Bool.not_eq_true, precedes_iff, priority_build_eq, priority_build_eq]
  constructor
  · intro h
    rcases lt_trichotomy ((greatest input b).getD 0) ((greatest input a).getD 0) with hlt | heq | hgt
    · exact .inl hlt
    · exact .inr ⟨heq.symm, String.not_le.1 fun hle => h (.inr ⟨heq, hle⟩)⟩
    · exact absurd (.inl hgt) h
  · rintro (hlt | ⟨heq, hlt⟩) (hgt | ⟨heq', hle⟩)
    · omega
    · omega
    · omega
    · exact String.not_le.2 hlt hle

lemma mem_roots_build {x : String} (hx : x ∈ (build input).names) (hfree : ∀ y, ¬ Depends input y x) :
    x ∈ (build input).roots := by
  refine mem_roots.2 ⟨hx, eq_nil_iff_forall_not_mem.2 fun y hy => hfree y ?_⟩
  exact needs_build.1 ((mem_dependents (nodup_names_build input)).1 hy)

/-- **The order depends on what a list says, not on how it is written down**, and among the names that nothing depends on
a higher priority comes first and then the smaller name. -/
theorem sort_presentation (input : List GraphNode) :
    (∀ input', SayTheSame input input' → (∃ out, sort input = .ok out ∧ sort input' = .ok out) ∨
      (∃ fault, sort input = .error fault) ∧ ∃ fault, sort input' = .error fault) ∧
    ∀ out, sort input = .ok out → ∀ a ∈ out, ∀ b ∈ out, (∀ x, ¬ Depends input x a) → (∀ x, ¬ Depends input x b) →
      (out.idxOf a < out.idxOf b ↔ Ahead input a b) := by
  have hg := wellFormed_build input
  constructor
  · intro input' hsame
    have hlike := hsame.like
    have hg' := wellFormed_build input'
    have hacyclic : (build input).Acyclic ↔ (build input').Acyclic := by
      simp only [acyclic_build, funext₂ fun a b => propext (hsame.depends a b)]
    cases hsort : sort input with
    | ok out =>
      obtain ⟨hknown, rfl⟩ := sort_eq_ok.1 hsort
      refine .inl ⟨_, rfl, sort_eq_ok.2 ⟨?_, hlike.order_eq hg hg'⟩⟩
      exact (checkAcyclic_eq_ok_iff hg').2 (hacyclic.1 ((checkAcyclic_eq_ok_iff hg).1 hknown))
    | error fault =>
      cases hsort' : sort input' with
      | error fault' => exact .inr ⟨⟨_, rfl⟩, _, rfl⟩
      | ok out =>
        obtain ⟨hknown, -⟩ := sort_eq_ok.1 hsort'
        have hknown := (checkAcyclic_eq_ok_iff hg).2 (hacyclic.2 ((checkAcyclic_eq_ok_iff hg').1 hknown))
        rw [sort_eq_ok.2 ⟨hknown, rfl⟩] at hsort
        cases hsort
  · intro out hsort a ha b hb hfreea hfreeb
    obtain ⟨hknown, rfl⟩ := sort_eq_ok.1 hsort
    have hacyclic := (checkAcyclic_eq_ok_iff hg).1 hknown
    have hroota := mem_roots_build ((mem_order hg hacyclic).1 ha) hfreea
    have hrootb := mem_roots_build ((mem_order hg hacyclic).1 hb) hfreeb
    rw [← precedes_build]
    constructor
    · intro hlt
      by_contra hprecedes
      rw [Bool.not_eq_false] at hprecedes
      cases hback : (build input).precedes a b with
      | false => exact absurd hlt (idxOf_roots_lt hg hacyclic hrootb hroota hback).not_gt
      | true =>
        rw [precedes_antisymm hback hprecedes] at hlt
        exact Nat.lt_irrefl _ hlt
    · exact idxOf_roots_lt hg hacyclic hroota hrootb

def scattered : List GraphNode :=
  [⟨"app", ["left", "right", "left"], 0⟩, ⟨"left", ["base"], 1⟩, ⟨"app", ["theme"], 2⟩, ⟨"page", ["base"], 2⟩]

def gathered : List GraphNode :=
  [⟨"page", ["base", "base"], 2⟩, ⟨"left", [], -1⟩, ⟨"app", ["theme", "right", "left"], 2⟩, ⟨"left", ["base"], 1⟩]

lemma scattered_gathered : SayTheSame scattered gathered where
  priorities x := by
    by_cases happ : x = "app"
    · subst happ
      rfl
    by_cases hleft : x = "left"
    · subst hleft
      rfl
    by_cases hpage : x = "page"
    · subst hpage
      rfl
    simp [greatest, scattered, gathered, Ne.symm happ, Ne.symm hleft, Ne.symm hpage]
  depends a b := by
    simp [Depends, scattered, gathered]
    tauto

theorem sort_presentation_scattered :
    SayTheSame scattered gathered ∧ ((∃ out, sort scattered = .ok out ∧ sort gathered = .ok out) ∨
      (∃ fault, sort scattered = .error fault) ∧ ∃ fault, sort gathered = .error fault) ∧
    ∃ out, sort scattered = .ok out ∧ "app" ∈ out ∧ "page" ∈ out ∧ (∀ x, ¬ Depends scattered x "app") ∧
      (∀ x, ¬ Depends scattered x "page") ∧ (out.idxOf "app" < out.idxOf "page" ↔ Ahead scattered "app" "page") := by
  obtain ⟨hsame, hordered⟩ := sort_presentation scattered
  have hsort : sort scattered = .ok ["base", "left", "right", "theme", "app", "page"] := by cbv
  have hfree : ∀ y ∈ ["app", "page"], ∀ x, ¬ Depends scattered x y := by simp [Depends, scattered]
  have happ := hfree "app" (.head _)
  have hpage := hfree "page" (.tail _ (.head _))
  exact ⟨scattered_gathered, hsame gathered scattered_gathered, _, hsort, by decide, by decide, happ, hpage,
    hordered _ hsort "app" (by decide) "page" (by decide) happ hpage⟩

end ReactiveTemplate.Graph
