import ReactiveTemplate.Proofs.Markup.Relinking
import Mathlib.Logic.Relation
/-!
# Forest — linked nodes as a forest of lists of children

`Refines d kids` says that the links of a document are those of lists of children in which no node stands below itself.
-/
set_option linter.all false

namespace ReactiveTemplate.Markup.Document
open List

open Relation (TransGen ReflTransGen)

variable {a c p child parent : Nat}

variable {d : Document} {kids : Nat → List Nat}

/-! ## Ancestors -/

def Ancestor (d : Document) (a c : Nat) : Prop := TransGen (fun x y => d.parent x = some y) c a

lemma transGen_of_edge {R R' : Nat → Nat → Prop} (hR : ∀ a b, R' a b → R a b ∨ a = c ∧ b = p)
    {b : Nat} (h : TransGen R' a b) : TransGen R a b ∨ ReflTransGen R a c ∧ ReflTransGen R p b := by
  induction h with
  | single hab =>
    rcases hR _ _ hab with hab | ⟨rfl, rfl⟩
    · exact Or.inl (.single hab)
    · exact Or.inr ⟨.refl, .refl⟩
  | tail _ hbe ih =>
    rcases hR _ _ hbe with hbe | ⟨rfl, rfl⟩
    · rcases ih with ih | ⟨hac, hpb⟩
      · exact Or.inl (ih.tail hbe)
      · exact Or.inr ⟨hac, hpb.tail hbe⟩
    · rcases ih with ih | ⟨hac, -⟩
      · exact Or.inr ⟨ih.to_reflTransGen, .refl⟩
      · exact Or.inr ⟨hac, .refl⟩

lemma acyclic_of_edge {R R' : Nat → Nat → Prop} (hR : ∀ a b, R' a b → R a b ∨ a = c ∧ b = p)
    (hacyclic : ∀ a, ¬ TransGen R a a) (hback : ¬ ReflTransGen R p c) (a : Nat) : ¬ TransGen R' a a := by
  intro h
  rcases transGen_of_edge hR h with h | ⟨hac, hpa⟩
  · exact hacyclic a h
  · exact hback (hpa.trans hac)

/-! ## Forests -/

/-- The links of a document are those of lists of children in which no node stands below itself. -/
structure Refines (d : Document) (kids : Nat → List Nat) : Prop where
  linked : d.Linked kids
  acyclic : ∀ id, ¬ d.Ancestor id id

namespace Refines

lemma parent_iff (h : Refines d kids) : d.parent c = some p ↔ c ∈ kids p := h.linked.parent p c

lemma children_eq (h : Refines d kids) : d.children = kids := funext h.linked.children_eq

lemma not_mem_self (h : Refines d kids) (p : Nat) : p ∉ kids p := fun hp =>
  h.acyclic p (.single (h.parent_iff.2 hp))

lemma of_rising (h : d.Linked kids) (hrising : ∀ p, ∀ c ∈ kids p, p < c) : Refines d kids := by
  refine ⟨h, fun id hid => ?_⟩
  have hlt : ∀ {c a : Nat}, TransGen (fun x y => d.parent x = some y) c a → a < c := by
    intro c a hca
    induction hca with
    | single hstep => exact hrising _ _ ((h.parent _ _).1 hstep)
    | tail _ hstep ih => exact Nat.lt_trans (hrising _ _ ((h.parent _ _).1 hstep)) ih
  exact Nat.lt_irrefl id (hlt hid)

lemma of_subset {d' : Document} {kids' : Nat → List Nat} (h : Refines d kids) (h' : d'.Linked kids')
    (hsub : ∀ p, ∀ c ∈ kids' p, c ∈ kids p) : Refines d' kids' := by
  refine ⟨h', fun id hid => h.acyclic id (TransGen.mono (fun c p hcp => ?_) _ _ hid)⟩
  exact h.parent_iff.2 (hsub p c ((h'.parent p c).1 hcp))

lemma of_link {d' : Document} {kids' : Nat → List Nat} (h : Refines d kids) (h' : d'.Linked kids')
    (hnew : ∀ p, ∀ c ∈ kids' p, c ∈ kids p ∨ p = parent ∧ c = child) (hne : child ≠ parent)
    (hfree : ¬ d.Ancestor child parent) : Refines d' kids' := by
  refine ⟨h', acyclic_of_edge (c := child) (p := parent) ?_ h.acyclic ?_⟩
  · intro c p hcp
    rcases hnew p c ((h'.parent p c).1 hcp) with hc | ⟨rfl, rfl⟩
    · exact Or.inl (h.parent_iff.2 hc)
    · exact Or.inr ⟨rfl, rfl⟩
  · intro hback
    rcases Relation.reflTransGen_iff_eq_or_transGen.1 hback with heq | hback
    · exact hne heq
    · exact hfree hback

lemma create (h : Refines d kids) (kind : Kind) (position : Position) :
    Refines (d.create kind position).2 kids :=
  h.of_subset (h.linked.create kind position) (fun _ _ hc => hc)

lemma setKind (h : Refines d kids) (id : Nat) (kind : Kind) : Refines (d.setKind id kind) kids :=
  h.of_subset (h.linked.setKind id kind) (fun _ _ hc => hc)

lemma detach (h : Refines d kids) (id : Nat) : Refines (d.detach id) (takeKid kids id) :=
  h.of_subset (h.linked.detach id) (fun _ _ hc => mem_of_mem_erase hc)

lemma parent_detach (h : Refines d kids) (id c : Nat) :
    (d.detach id).parent c = if c = id then none else d.parent c := by
  have hmem : ∀ p, (d.detach id).parent c = some p ↔ c ≠ id ∧ d.parent c = some p := by
    intro p
    rw [(h.detach id).parent_iff, h.parent_iff, takeKid, (h.linked.nodup p).mem_erase_iff]
  refine Option.ext (fun p => ?_)
  rw [hmem]
  by_cases hc : c = id <;> simp [hc]

lemma ancestor_of_detach {id : Nat} (h : Refines d kids) (hac : (d.detach id).Ancestor a c) : d.Ancestor a c := by
  refine TransGen.mono (fun x y hxy => ?_) _ _ hac
  rw [h.parent_detach] at hxy
  by_cases hx : x = id
  · simp [hx] at hxy
  · simpa [hx] using hxy

lemma append (h : Refines d kids) (hparent : parent < d.size) (hchild : child < d.size)
    (hne : child ≠ parent) (hfree : ¬ d.Ancestor child parent) :
    Refines (d.append parent child) (pushKid (takeKid kids child) parent child) := by
  have h' := h.detach child
  have horphan : ((d.detach child).links child).parent = none := by
    have := h.parent_detach child child
    rwa [if_pos rfl] at this
  have heq : d.append parent child = (d.detach child).append parent child := by
    rw [Document.append, Document.append, detach_of_orphan horphan]
  rw [heq]
  refine h'.of_link (h'.linked.append (by simpa using hparent) (by simpa using hchild) horphan) (fun p c hc => ?_) hne
    (fun hac => hfree (h.ancestor_of_detach hac))
  unfold pushKid at hc
  by_cases hp : p = parent
  · simpa [hp] using hc
  · simpa [hp] using hc

lemma insertBefore (h : Refines d kids) {reference : Nat} (hreference : d.parent reference = some parent)
    (hchild : child < d.size) (hne : child ≠ reference) (hfree : ¬ d.Ancestor child reference) :
    Refines (d.insertBefore reference child) (placeKid (takeKid kids child) reference child) := by
  have h' := h.detach child
  have horphan : ((d.detach child).links child).parent = none := by
    have := h.parent_detach child child
    rwa [if_pos rfl] at this
  have hreference' : (d.detach child).parent reference = some parent := by
    rw [h.parent_detach, if_neg (Ne.symm hne), hreference]
  have heq : d.insertBefore reference child = (d.detach child).insertBefore reference child := by
    simp only [Document.insertBefore, hreference, hreference', detach_of_orphan horphan]
  obtain ⟨before, after, hsplit⟩ := append_of_mem (h'.parent_iff.1 hreference')
  rw [heq]
  have hnew : ∀ p, ∀ c ∈ placeKid (takeKid kids child) reference child p,
      c ∈ takeKid kids child p ∨ p = parent ∧ c = child := by
    intro p c hc
    by_cases hp : p = parent
    · subst hp
      rw [h'.linked.placeKid_parent hsplit] at hc
      rw [hsplit]
      simp at hc ⊢
      tauto
    · rw [h'.linked.placeKid_of_ne hsplit hp] at hc
      exact Or.inl hc
  refine h'.of_link (h'.linked.insertBefore hsplit (by simpa using hchild) horphan) hnew ?_ ?_
  · rintro rfl
    exact hfree (.single hreference)
  · exact fun hac => hfree (.head hreference (h.ancestor_of_detach hac))

end Refines

/-! ## Descendants -/

inductive Preorder (kids : Nat → List Nat) : List Nat → List Nat → Prop
  | nil : Preorder kids [] []
  | cons {c : Nat} {cs below rest : List Nat} : Preorder kids (kids c) below → Preorder kids cs rest →
    Preorder kids (c :: cs) (c :: (below ++ rest))

namespace Refines

lemma preorder_below (h : Refines d kids) : ∀ (n id : Nat) (path : List Nat), path.Nodup →
    (∀ x ∈ path, x < d.size ∧ (x = id ∨ d.Ancestor x id)) → d.size < n + path.length →
    Preorder kids (kids id) (d.below n id)
  | 0, id, path, hnodup, hpath, hn => by
    have hsub : path ⊆ range d.size := fun x hx => mem_range.2 (hpath x hx).1
    have := (subperm_of_subset hnodup hsub).length_le
    rw [length_range] at this
    omega
  | n + 1, id, path, hnodup, hpath, hn => by
    have hchild : ∀ c ∈ kids id, Preorder kids (kids c) (d.below n c) := by
      intro c hc
      have hstep : d.parent c = some id := h.parent_iff.2 hc
      refine preorder_below h n c (c :: path) (nodup_cons.2 ⟨fun hmem => ?_, hnodup⟩) (fun x hx => ?_) ?_
      · rcases (hpath c hmem).2 with rfl | hac
        · exact h.not_mem_self c hc
        · exact h.acyclic c (.head hstep hac)
      · rcases mem_cons.1 hx with rfl | hx
        · exact ⟨h.linked.inside id x hc, Or.inl rfl⟩
        · refine ⟨(hpath x hx).1, Or.inr ?_⟩
          rcases (hpath x hx).2 with rfl | hac
          · exact .single hstep
          · exact .head hstep hac
      · rw [length_cons]
        omega
    rw [Document.below, h.children_eq]
    have hall : ∀ cs : List Nat, (∀ c ∈ cs, c ∈ kids id) →
        Preorder kids cs (cs.flatMap (fun c => c :: d.below n c)) := by
      intro cs
      induction cs with
      | nil => exact fun _ => .nil
      | cons c cs ih =>
        intro hcs
        exact .cons (hchild c (hcs c (.head _))) (ih (fun x hx => hcs x (.tail _ hx)))
    exact hall (kids id) (fun _ hc => hc)

lemma preorder (h : Refines d kids) (id : Nat) : Preorder kids (kids id) (d.descendants id) := by
  by_cases hid : id < d.size
  · exact h.preorder_below d.size id [id] (nodup_singleton id) (by simp [hid]) (by simp)
  · have hkids : kids id = [] := h.linked.kids_of_le (by omega)
    have hbelow : ∀ n, d.below n id = [] := by
      intro n
      cases n with
      | zero => rfl
      | succ n => rw [Document.below, h.children_eq, hkids, flatMap_nil]
    rw [descendants, hbelow, hkids]
    exact .nil

lemma mem_preorder (h : Refines d kids) {cs out : List Nat} (hout : Preorder kids cs out) {x : Nat} (hx : x ∈ out) :
    ∃ c ∈ cs, ReflTransGen (fun x y => d.parent x = some y) x c := by
  induction hout with
  | nil => cases hx
  | @cons c cs below rest _ _ ihBelow ihRest =>
    rcases mem_cons.1 hx with rfl | hx
    · exact ⟨x, mem_cons_self, .refl⟩
    · rcases mem_append.1 hx with hx | hx
      · obtain ⟨e, he, hxe⟩ := ihBelow hx
        exact ⟨c, mem_cons_self, hxe.tail (h.parent_iff.2 he)⟩
      · obtain ⟨e, he, hxe⟩ := ihRest hx
        exact ⟨e, mem_cons_of_mem _ he, hxe⟩

lemma eq_of_climbs (h : Refines d kids) {b : Nat} (ha : a ∈ kids p) (hb : b ∈ kids p)
    (hab : ReflTransGen (fun x y => d.parent x = some y) a b) : a = b := by
  rcases ReflTransGen.cases_head hab with heq | ⟨q, hq, hqb⟩
  · exact heq
  · rw [h.parent_iff.2 ha] at hq
    cases hq
    exact absurd (TransGen.tail' hqb (h.parent_iff.2 hb)) (h.acyclic p)

lemma nodup_preorder (h : Refines d kids) {cs out : List Nat} (hout : Preorder kids cs out) :
    ∀ p, cs.Sublist (kids p) → out.Nodup := by
  induction hout with
  | nil => exact fun _ _ => nodup_nil
  | @cons c cs below rest hbelow hrest ihBelow ihRest =>
    intro p hsub
    have hc : c ∈ kids p := hsub.subset (.head _)
    have hnodup := (h.linked.nodup p).sublist hsub
    -- what stands at or below `c` does not stand at or below a later sibling
    have hapart : ∀ x, ReflTransGen (fun x y => d.parent x = some y) x c → x ∉ rest := by
      intro x hxc hx
      obtain ⟨e, he, hxe⟩ := h.mem_preorder hrest hx
      have hep : e ∈ kids p := hsub.subset (.tail _ he)
      have hunique : Relator.RightUnique (fun x y => d.parent x = some y) := fun x y z hy hz => by
        exact Option.some.inj ((Eq.symm hy).trans hz)
      have hce : c = e := by
        rcases ReflTransGen.total_of_right_unique hunique hxc hxe with hce | hec
        · exact h.eq_of_climbs hc hep hce
        · exact (h.eq_of_climbs hep hc hec).symm
      exact (nodup_cons.1 hnodup).1 (hce ▸ he)
    have hunder : ∀ x ∈ below, TransGen (fun x y => d.parent x = some y) x c := by
      intro x hx
      obtain ⟨e, he, hxe⟩ := h.mem_preorder hbelow hx
      exact TransGen.tail' hxe (h.parent_iff.2 he)
    refine nodup_cons.2 ⟨fun hmem => ?_, nodup_append.2 ⟨ihBelow c (List.Sublist.refl _),
      ihRest p ((sublist_cons_self c cs).trans hsub), fun x hx y hy hxy => ?_⟩⟩
    · rcases mem_append.1 hmem with hmem | hmem
      · exact h.acyclic c (hunder c hmem)
      · exact hapart c .refl hmem
    · exact hapart x (hunder x hx).to_reflTransGen (hxy ▸ hy)

lemma nodup_descendants (h : Refines d kids) (id : Nat) : (d.descendants id).Nodup :=
  h.nodup_preorder (h.preorder id) id (List.Sublist.refl _)

end Refines
end ReactiveTemplate.Markup.Document
