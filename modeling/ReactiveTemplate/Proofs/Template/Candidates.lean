import Mathlib.Tactic.Lemma
import ReactiveTemplate.Template.Directive
/-!
# Candidates — the directives that run on an element

Sorting by priority keeps directives of one priority in order, so a cut-off of the sorted list can be read off the list
as found (`select_eq`): the conditions of an element, or the interpolations of its attributes.
-/
set_option linter.all false

namespace ReactiveTemplate
open List
open Registry
open Directive

namespace Directive

lemma precedes_trans (a b c : Directive) (hab : a.precedes b = true) (hbc : b.precedes c = true) :
    a.precedes c = true := by
  simp only [precedes, Bool.or_eq_true, Bool.and_eq_true, decide_eq_true_eq, beq_iff_eq, Bool.not_eq_true'] at *
  rcases hab with h1 | ⟨h1, h2⟩ <;> rcases hbc with h3 | ⟨h3, h4⟩
  · left; omega
  · left; omega
  · left; omega
  · right
    refine ⟨h1.trans h3, ?_⟩
    rcases h2 with h2 | h2
    · left; exact h2
    · rcases h4 with h4 | h4
      · rw [h2] at h4; cases h4
      · right; exact h4

lemma precedes_total (a b : Directive) : (a.precedes b || b.precedes a) = true := by
  simp only [precedes, Bool.or_eq_true, Bool.and_eq_true, decide_eq_true_eq, beq_iff_eq]
  rcases Nat.lt_trichotomy a.priority b.priority with h | h | h
  · left; left; exact h
  · cases ha : a.isTerminal
    · left; right; exact ⟨h, Or.inl rfl⟩
    · right; right; exact ⟨h.symm, Or.inr rfl⟩
  · right; left; exact h

end Directive

namespace Candidate

variable {cs : List Candidate} {limit : Option Nat} {e : Markup.Element}

lemma cutOff_perm {cs' : List Candidate} (h : cs.Perm cs') : cutOff cs = cutOff cs' := by
  refine List.Perm.foldl_eq' ((h.filter _).map _) (fun x _ y _ z => ?_) 0
  omega

/-- Sorting keeps a part of a list that is in order as it is. -/
lemma filter_mergeSort {α : Type} {f : α → Directive} {l : List α} {p : α → Bool}
    (h : (l.filter p).Pairwise (fun a b => (f a).precedes (f b) = true)) :
    (l.mergeSort (fun a b => (f a).precedes (f b))).filter p = l.filter p := by
  have hsub := sublist_mergeSort (fun a b c => precedes_trans (f a) (f b) (f c))
    (fun a b => precedes_total (f a) (f b)) h filter_sublist
  have hfilter := hsub.filter p
  rw [filter_filter, funext (fun a => Bool.and_self (p a))] at hfilter
  exact (hfilter.eq_of_length ((mergeSort_perm l _).filter p).length_eq.symm).symm

lemma select_eq {r : Registry} {found kept : List Candidate}
    (hfound : (all r e).filter (fun c => isBelow limit c.directive.priority) = found)
    (hkept : found.filter (fun c => decide (cutOff found ≤ c.directive.priority)) = kept)
    (hsorted : kept.Pairwise (fun a b => a.directive.precedes b.directive = true)) :
    select r limit e = kept := by
  unfold select
  simp only [hfound, cutOff_perm (mergeSort_perm found _)]
  rw [filter_mergeSort (hkept ▸ hsorted), hkept]

lemma directive_of_mem_select {r : Registry} {k : Candidate}
    (h : k ∈ select r limit e) : k.directive ∈ r.directives ∨ k.directive = interpolate := by
  have hall : k ∈ all r e := by
    exact (mem_filter.1 (mem_mergeSort.1 (mem_filter.1 h).1)).1
  rcases mem_append.1 hall with hall | hall
  · obtain ⟨d, hd, rfl⟩ := mem_map.1 hall
    exact Or.inl (mem_filter.1 hd).1
  · obtain ⟨a, -, hall⟩ := mem_flatMap.1 hall
    rcases mem_append.1 hall with hall | hall
    · obtain ⟨d, hd, rfl⟩ := mem_map.1 hall
      exact Or.inl (mem_filter.1 hd).1
    · split at hall
      · rw [mem_singleton] at hall
        exact Or.inr (by rw [hall])
      · cases hall

/-! ## The built-in directives -/

def interpolations (e : Markup.Element) : List Candidate :=
  (e.attributes.filter (fun a => Interpolation.hasMarkers a.value)).map (fun a => ⟨interpolate, some a⟩)

def conditions (e : Markup.Element) : List Candidate :=
  (e.attributes.filter (fun a => a.name == "if")).map (fun a => ⟨ifAttribute, some a⟩)

lemma flatMap_ite {α β : Type} (p : α → Bool) (f : α → β) :
    ∀ l : List α, l.flatMap (fun a => if p a then [f a] else []) = (l.filter p).map f
  | [] => rfl
  | a :: l => by
    rw [flatMap_cons, flatMap_ite p f l]
    cases h : p a <;> simp [h]

lemma forElement_standard (tag : String) :
    standard.forElement tag =
      if tag = "if" then [ifElement] else if tag = "component" then [component] else [] := by
  simp only [forElement, directives, standard, flatten_cons, flatten_nil,
    append_nil, filter_cons, ifElement, ifAttribute, component,
    Bool.true_and, Bool.false_and, beq_iff_eq]
  by_cases h1 : tag = "if"
  · subst h1
    simp
  · by_cases h2 : tag = "component"
    · subst h2
      simp
    · simp [h1, h2, Ne.symm h1, Ne.symm h2]

lemma ofAttribute_standard (a : Markup.Attribute) :
    ofAttribute standard a =
      (if a.name == "if" then [⟨ifAttribute, some a⟩] else []) ++
        (if Interpolation.hasMarkers a.value then [⟨interpolate, some a⟩] else []) := by
  simp only [ofAttribute, forAttribute, directives, standard,
    flatten_nil, append_nil, filter_cons, filter_nil, ifElement, ifAttribute,
    component, Bool.false_eq_true, beq_iff_eq]
  by_cases h : a.name = "if"
  · simp [h]
  · simp [h, Ne.symm h]

lemma filter_eq_interpolations (p : Directive → Bool) (hc : p ifAttribute = false)
    (hi : p interpolate = true) (e : Markup.Element) :
    (e.attributes.flatMap (ofAttribute standard)).filter (fun c => p c.directive) = interpolations e := by
  rw [filter_flatMap, interpolations, ← flatMap_ite]
  congr 1
  funext a
  rw [ofAttribute_standard]
  split <;> split <;> simp [hc, hi]

lemma filter_eq_conditions (p : Directive → Bool) (hc : p ifAttribute = true)
    (hi : p interpolate = false) (e : Markup.Element) :
    (e.attributes.flatMap (ofAttribute standard)).filter (fun c => p c.directive) = conditions e := by
  rw [filter_flatMap, conditions, ← flatMap_ite]
  congr 1
  funext a
  rw [ofAttribute_standard]
  split <;> split <;> simp [hc, hi]

lemma flatMap_eq_interpolations (h : conditions e = []) :
    e.attributes.flatMap (ofAttribute standard) = interpolations e := by
  rw [interpolations, ← flatMap_ite, flatMap_def]
  congr 1
  refine map_congr_left (fun a ha => ?_)
  have hname : (a.name == "if") = false := by
    rw [conditions, map_eq_nil_iff, filter_eq_nil_iff] at h
    simpa using h a ha
  rw [ofAttribute_standard, hname]
  rfl

lemma foldl_max_le {m : Nat} : ∀ (ns : List Nat) (n : Nat), (∀ k ∈ ns, k ≤ m) → n ≤ m → ns.foldl max n ≤ m
  | [], _, _, hn => hn
  | k :: ns, n, h, hn =>
    foldl_max_le ns (max n k) (fun k' hk' => h k' (.tail _ hk'))
      (Nat.max_le.2 ⟨hn, h k (.head _)⟩)

lemma le_foldl_max : ∀ (ns : List Nat) (n k : Nat), k ≤ n ∨ k ∈ ns → k ≤ ns.foldl max n
  | [], n, k, h => by simpa using h
  | k' :: ns, n, k, h => by
    refine le_foldl_max ns (max n k') k ?_
    rcases h with h | h
    · exact Or.inl (Nat.le_trans h (Nat.le_max_left n k'))
    · rcases mem_cons.1 h with rfl | h
      · exact Or.inl (Nat.le_max_right n k)
      · exact Or.inr h

lemma cutOff_eq {c : Candidate} (hc : c ∈ cs) (hterminal : c.directive.isTerminal = true)
    (hle : ∀ c' ∈ cs, c'.directive.isTerminal = true → c'.directive.priority ≤ c.directive.priority) :
    cutOff cs = c.directive.priority := by
  refine Nat.le_antisymm (foldl_max_le _ _ (fun n hn => ?_) (Nat.zero_le _)) (le_foldl_max _ _ _ (Or.inr ?_))
  · obtain ⟨c', hc', rfl⟩ := mem_map.1 hn
    exact hle c' (mem_filter.1 hc').1 (mem_filter.1 hc').2
  · exact mem_map.2 ⟨c, mem_filter.2 ⟨hc, hterminal⟩, rfl⟩

lemma cutOff_eq_zero (h : ∀ c ∈ cs, c.directive.isTerminal = false) : cutOff cs = 0 := by
  have : cs.filter (·.directive.isTerminal) = [] :=
    filter_eq_nil_iff.2 (fun c hc => by simp [h c hc])
  simp [cutOff, this]

lemma directive_of_mem_interpolations {c : Candidate} (h : c ∈ interpolations e) :
    c.directive = interpolate := by
  obtain ⟨a, -, rfl⟩ := mem_map.1 h
  rfl

lemma pairwise_of_same {d : Directive} (h : ∀ c ∈ cs, c.directive = d) :
    cs.Pairwise (fun a b => a.directive.precedes b.directive = true) := by
  refine List.Pairwise.imp_of_mem (fun {a b} ha hb _ => ?_) (pairwise_of_forall (fun _ _ => trivial))
  rw [h a ha, h b hb]
  simpa using precedes_total d d

lemma select_of_interpolations
    (h : (all standard e).filter (fun c => isBelow limit c.directive.priority) = interpolations e) :
    select standard limit e = interpolations e := by
  refine select_eq h ?_ (pairwise_of_same (fun c hc => directive_of_mem_interpolations hc))
  rw [cutOff_eq_zero (fun c hc => by rw [directive_of_mem_interpolations hc]; rfl)]
  simp

lemma select_below (e : Markup.Element) :
    select standard (some 599) e = interpolations e := by
  refine select_of_interpolations ?_
  rw [all, filter_append, filter_eq_interpolations (fun d => isBelow (some 599) d.priority) rfl rfl,
    forElement_standard]
  split
  · rfl
  · split <;> rfl

lemma select_plain (hif : e.tag ≠ "if") (hcomponent : e.tag ≠ "component")
    (h : conditions e = []) : select standard none e = interpolations e := by
  refine select_of_interpolations ?_
  rw [all, flatMap_eq_interpolations h, forElement_standard, if_neg hif, if_neg hcomponent]
  exact filter_eq_self.2 (fun _ _ => rfl)

lemma select_conditions (hif : e.tag ≠ "if") (hcomponent : e.tag ≠ "component")
    (h : conditions e ≠ []) : select standard none e = conditions e := by
  have hall : all standard e = e.attributes.flatMap (ofAttribute standard) := by
    rw [all, forElement_standard, if_neg hif, if_neg hcomponent]
    rfl
  obtain ⟨c, hc⟩ := exists_mem_of_ne_nil _ h
  have hmem : c ∈ all standard e := by
    rw [hall]
    rw [← filter_eq_conditions (fun d => d.isTerminal) rfl rfl] at hc
    exact (mem_filter.1 hc).1
  have hdirective : c.directive = ifAttribute := by
    obtain ⟨a, -, rfl⟩ := mem_map.1 hc
    rfl
  have hcut : cutOff (all standard e) = 599 := by
    rw [cutOff_eq hmem (by rw [hdirective]; rfl) (fun c' hc' hterminal => ?_), hdirective]
    · rfl
    · have : c' ∈ conditions e := by
        rw [← filter_eq_conditions (fun d => d.isTerminal) rfl rfl, ← hall]
        exact mem_filter.2 ⟨hc', hterminal⟩
      obtain ⟨a, -, rfl⟩ := mem_map.1 this
      exact Nat.le_of_eq (by rw [hdirective])
  refine select_eq (filter_eq_self.2 (fun _ _ => rfl)) ?_
    (pairwise_of_same (d := ifAttribute) (fun c hc => ?_))
  · rw [hcut, hall]
    exact filter_eq_conditions (fun d => decide (599 ≤ d.priority)) rfl rfl e
  · obtain ⟨a, -, rfl⟩ := mem_map.1 hc
    rfl

lemma select_element {d : Directive} (hfor : standard.forElement e.tag = [d])
    (hterminal : d.isTerminal = true) (hpriority : 599 < d.priority) :
    select standard none e = [⟨d, none⟩] := by
  have hall : all standard e = ⟨d, none⟩ :: e.attributes.flatMap (ofAttribute standard) := by
    rw [all, hfor]
    rfl
  have hrest : (e.attributes.flatMap (ofAttribute standard)).filter
      (fun c => decide (d.priority ≤ c.directive.priority)) = [] := by
    have hc : ¬ d.priority ≤ ifAttribute.priority := Nat.not_le.2 hpriority
    have hi : ¬ d.priority ≤ interpolate.priority := Nat.not_le.2 (Nat.lt_of_le_of_lt (Nat.zero_le _) hpriority)
    rw [filter_flatMap, flatMap_eq_nil_iff]
    intro a _
    rw [ofAttribute_standard]
    split <;> split <;> simp [hc, hi]
  have hcut : cutOff (all standard e) = d.priority := by
    refine cutOff_eq (c := ⟨d, none⟩) (by rw [hall]; exact (.head _)) hterminal (fun c' hc' _ => ?_)
    rw [hall] at hc'
    rcases mem_cons.1 hc' with rfl | hc'
    · exact Nat.le_refl _
    · refine Nat.le_of_not_le (fun hle => ?_)
      exact filter_eq_nil_iff.1 hrest c' hc' (decide_eq_true hle)
  refine select_eq (filter_eq_self.2 (fun _ _ => rfl)) ?_ (pairwise_singleton _ _)
  rw [hcut, hall, filter_cons_of_pos (by simp), hrest]

lemma select_if (hif : e.tag = "if") :
    select standard none e = [⟨ifElement, none⟩] :=
  select_element (by rw [forElement_standard, if_pos hif]) rfl (by decide)

lemma select_component (hcomponent : e.tag = "component") :
    select standard none e = [⟨component, none⟩] :=
  select_element (by rw [hcomponent]; rfl) rfl (by decide)

end Candidate
end ReactiveTemplate
