import ReactiveTemplate.Markup.Tree
import Mathlib.Data.List.Forall2
/-!
# Pairing — trees of one shape

Two trees of one shape pair their nodes off.
-/
set_option linter.all false

namespace ReactiveTemplate.Markup.Tree
open List

mutual
def Paired (N : Tree → Tree → Prop) : Tree → Tree → Prop
  | node kind position ts, node kind' position' us =>
    N (node kind position ts) (node kind' position' us) ∧ PairedAll N ts us

def PairedAll (N : Tree → Tree → Prop) : List Tree → List Tree → Prop
  | [], [] => True
  | t :: ts, u :: us => Paired N t u ∧ PairedAll N ts us
  | _, _ => False
end

variable {N M : Tree → Tree → Prop} {t u : Tree} {ts us : List Tree}

lemma paired_iff : Paired N t u ↔ N t u ∧ PairedAll N t.children u.children := by
  cases t
  cases u
  rw [Paired, children, children]

lemma Paired.here (h : Paired N t u) : N t u := (paired_iff.1 h).1

lemma Paired.below (h : Paired N t u) : PairedAll N t.children u.children := (paired_iff.1 h).2

lemma pairedAll_iff_forall₂ : ∀ {ts us : List Tree}, PairedAll N ts us ↔ List.Forall₂ (Paired N) ts us
  | [], [] => by simp [PairedAll]
  | [], _ :: _ => by simp [PairedAll]
  | _ :: _, [] => by simp [PairedAll]
  | t :: ts, u :: us => by rw [PairedAll, forall₂_cons, pairedAll_iff_forall₂]

lemma PairedAll.append {ts' us' : List Tree} (h : PairedAll N ts us) (h' : PairedAll N ts' us') :
    PairedAll N (ts ++ ts') (us ++ us') :=
  pairedAll_iff_forall₂.2 (rel_append (pairedAll_iff_forall₂.1 h) (pairedAll_iff_forall₂.1 h'))

lemma PairedAll.map {f : Tree → Tree} (h : PairedAll N ts us)
    (hf : ∀ t u, Paired N t u → Paired N (f t) (f u)) : PairedAll N (ts.map f) (us.map f) := by
  rw [pairedAll_iff_forall₂] at h ⊢
  rw [forall₂_map_left_iff, forall₂_map_right_iff]
  exact h.imp hf

lemma paired_leaf {kind kind' : Kind} {position position' : Position}
    (h : N (leaf kind position) (leaf kind' position')) : Paired N (leaf kind position) (leaf kind' position') :=
  paired_iff.2 ⟨h, trivial⟩

mutual
theorem Paired.mono : ∀ {t u : Tree}, Paired N t u → (∀ v ∈ t.preorder, ∀ w, N v w → M v w) → Paired M t u
  | node kind position ts, node kind' position' us, h, hM => by
    rw [preorder, forall_mem_cons] at hM
    exact paired_iff.2 ⟨hM.1 _ h.here, PairedAll.mono h.below hM.2⟩

theorem PairedAll.mono : ∀ {ts us : List Tree}, PairedAll N ts us → (∀ v ∈ preorderAll ts, ∀ w, N v w → M v w) →
    PairedAll M ts us
  | [], [], _, _ => trivial
  | [], _ :: _, h, _ => h.elim
  | _ :: _, [], h, _ => h.elim
  | t :: ts, u :: us, h, hM => by
    rw [preorderAll, forall_mem_append] at hM
    exact ⟨Paired.mono h.1 hM.1, PairedAll.mono h.2 hM.2⟩
end

mutual
theorem paired_self : ∀ {t : Tree}, (∀ v ∈ t.preorder, N v v) → Paired N t t
  | node kind position ts, h => by
    rw [preorder, forall_mem_cons] at h
    exact paired_iff.2 ⟨h.1, pairedAll_self h.2⟩

theorem pairedAll_self : ∀ {ts : List Tree}, (∀ v ∈ preorderAll ts, N v v) → PairedAll N ts ts
  | [], _ => trivial
  | t :: ts, h => by
    rw [preorderAll, forall_mem_append] at h
    exact ⟨paired_self h.1, pairedAll_self h.2⟩
end

mutual
theorem Paired.forall₂_preorder : ∀ {t u : Tree}, Paired N t u → List.Forall₂ (Paired N) t.preorder u.preorder
  | node kind position ts, node kind' position' us, h => by
    exact .cons h (PairedAll.forall₂_preorder h.below)

theorem PairedAll.forall₂_preorder : ∀ {ts us : List Tree}, PairedAll N ts us →
    List.Forall₂ (Paired N) (preorderAll ts) (preorderAll us)
  | [], [], _ => .nil
  | [], _ :: _, h => h.elim
  | _ :: _, [], h => h.elim
  | t :: ts, u :: us, h => by
    exact rel_append (Paired.forall₂_preorder h.1) (PairedAll.forall₂_preorder h.2)
end

end ReactiveTemplate.Markup.Tree
