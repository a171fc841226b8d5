import ReactiveTemplate.Markup.Parse
import Mathlib.Data.List.Basic
/-!
# Layers — the tree that tokens make

A tree in the making is a nest of layers, from the element opened last out to the document node.
-/
set_option linter.all false

namespace ReactiveTemplate.Markup
open List

/-- A node that is still open, with the trees that are complete in it. -/
structure Layer where
  kind : Kind
  position : Position
  done : List Tree := []

namespace Layer

def toTree (l : Layer) : Tree := .node l.kind l.position l.done

def add (l : Layer) (t : Tree) : Layer := { l with done := l.done ++ [t] }

def take (position : Position) : Token → List Layer → Option (List Layer)
  | .startTag name attributes selfClosing, inner :: outer =>
    let e := Builder.elementOf name attributes
    some (if e.isVoid || selfClosing then inner.add (.leaf (.element e) position) :: outer
      else ⟨.element e, position, []⟩ :: inner :: outer)
  | .endTag name, inner :: around :: outer =>
    if inner.kind.tag? = some name then some (around.add inner.toTree :: outer) else none
  | .text s, inner :: outer => some ({ inner with done := Tree.appendText s position inner.done } :: outer)
  | .comment s, inner :: outer => some (inner.add (.leaf (.comment s) position) :: outer)
  | .doctype name, inner :: outer => some (inner.add (.leaf (.doctype (name.getD "html")) position) :: outer)
  | .ignored, nest => some nest
  | _, _ => none

/-- What tokens do to a nest of layers, each at some position. -/
inductive Takes : List Token → List Layer → List Layer → Prop
  | nil (nest : List Layer) : Takes [] nest nest
  | cons {t : Token} {ts : List Token} {nest nest₁ nest' : List Layer} (position : Position)
    (h : take position t nest = some nest₁) : Takes ts nest₁ nest' → Takes (t :: ts) nest nest'

def outermost (nest : List Layer) : Option (Kind × Position) := nest.getLast?.map (fun l => (l.kind, l.position))

lemma outermost_cons (l : Layer) {nest : List Layer} (h : nest ≠ []) : outermost (l :: nest) = outermost nest := by
  obtain ⟨m, nest, rfl⟩ := exists_cons_of_ne_nil h
  rw [outermost, outermost, getLast?_cons_cons]

lemma outermost_done (l : Layer) (done : List Tree) (nest : List Layer) :
    outermost ({ l with done := done } :: nest) = outermost (l :: nest) := by
  cases nest with
  | nil => rfl
  | cons m nest => rw [outermost_cons _ (cons_ne_nil _ _), outermost_cons l (cons_ne_nil _ _)]

lemma outermost_take {position : Position} {t : Token} {nest nest' : List Layer}
    (h : take position t nest = some nest') : outermost nest' = outermost nest := by
  unfold take at h
  split at h
  · rename_i inner outer
    simp only [Option.some.injEq] at h
    subst h
    split
    · exact outermost_done _ _ outer
    · exact outermost_cons _ (cons_ne_nil _ _)
  · rename_i inner around outer
    split at h
    · simp only [Option.some.injEq] at h
      subst h
      exact outermost_done _ _ outer
    · cases h
  · simp only [Option.some.injEq] at h
    subst h
    exact outermost_done _ _ _
  · simp only [Option.some.injEq] at h
    subst h
    exact outermost_done _ _ _
  · simp only [Option.some.injEq] at h
    subst h
    exact outermost_done _ _ _
  · cases h
    rfl
  · cases h

lemma Takes.outermost_eq {ts : List Token} {nest nest' : List Layer} (h : Takes ts nest nest') :
    outermost nest' = outermost nest := by
  induction h with
  | nil nest => rfl
  | cons position h _ ih => exact ih.trans (outermost_take h)

end Layer

/-! ## Text at the end of a list of trees -/

namespace Tree

lemma appendText_cons (s : String) (position : Position) (t u : Tree) (us : List Tree) :
    appendText s position (t :: u :: us) = t :: appendText s position (u :: us) := by
  rw [appendText]
  simp

lemma appendText_text (s existing : String) (position at_ : Position) (below : List Tree) : ∀ ts : List Tree,
    appendText s position (ts ++ [node (.text existing) at_ below]) = ts ++ [node (.text (existing ++ s)) at_ below]
  | [] => rfl
  | [t] => appendText_cons s position t _ []
  | t :: u :: ts => by
    rw [cons_append, cons_append, appendText_cons]
    exact congrArg (t :: ·) (appendText_text s existing position at_ below (u :: ts))

lemma appendText_other (s : String) (position : Position) {t : Tree} (ht : t.kind.text? = none) : ∀ ts : List Tree,
    appendText s position (ts ++ [t]) = ts ++ [t] ++ [leaf (.text s) position]
  | [] => by
    obtain ⟨kind, at_, below⟩ := t
    cases kind with
    | text existing => cases ht
    | _ => rfl
  | [u] => by
    rw [cons_append, nil_append, appendText_cons]
    exact congrArg (u :: ·) (appendText_other s position ht [])
  | u :: v :: ts => by
    rw [cons_append, cons_append, appendText_cons]
    exact congrArg (u :: ·) (appendText_other s position ht (v :: ts))

end Tree

/-! ## What holds of all nodes -/

namespace Tree

def Each (Q : Tree → Prop) (t : Tree) : Prop := ∀ u ∈ t.preorder, Q u

variable {Q : Tree → Prop} {kind : Kind} {position : Position}

lemma each_node {children : List Tree} :
    (node kind position children).Each Q ↔ Q (node kind position children) ∧ ∀ t ∈ children, t.Each Q := by
  have hall : ∀ ts : List Tree, (∀ u ∈ preorderAll ts, Q u) ↔ ∀ t ∈ ts, t.Each Q := by
    intro ts
    induction ts with
    | nil => simp [preorderAll]
    | cons t ts ih =>
      simp only [preorderAll, mem_append, or_imp, forall_and, ih, forall_mem_cons]
      rfl
  unfold Each
  rw [preorder, forall_mem_cons, hall]
  rfl

lemma each_leaf : (leaf kind position).Each Q ↔ Q (leaf kind position) := by
  simp [leaf, each_node]

def Every (Q : Kind → Prop) (t : Tree) : Prop := t.Each (fun u => Q u.kind)

lemma every_node {Q : Kind → Prop} {children : List Tree} :
    (node kind position children).Every Q ↔ Q kind ∧ ∀ t ∈ children, t.Every Q := each_node

lemma each_appendText {s : String} (hleaf : Q (leaf (.text s) position))
    (htext : ∀ existing at_ below, Q (node (.text existing) at_ below) → Q (node (.text (existing ++ s)) at_ below))
    {ts : List Tree} (h : ∀ t ∈ ts, t.Each Q) : ∀ t ∈ appendText s position ts, t.Each Q := by
  rcases eq_nil_or_concat' ts with rfl | ⟨us, u, rfl⟩
  · intro t ht
    rw [appendText, mem_singleton] at ht
    rw [ht]
    exact each_leaf.2 hleaf
  · obtain ⟨kind, at_, below⟩ := u
    have hus : ∀ t ∈ us, t.Each Q := fun t ht => h t (mem_append_left _ ht)
    have hu : (node kind at_ below).Each Q := h _ (mem_append_right _ (.head _))
    cases hkind : kind.text? with
    | none =>
      rw [appendText_other s position (t := .node kind at_ below) hkind]
      intro t ht
      rcases mem_append.1 ht with ht | ht
      · exact h t ht
      · rw [mem_singleton.1 ht]
        exact each_leaf.2 hleaf
    | some existing =>
      have hexisting : kind = .text existing := by
        cases kind <;> cases hkind
        rfl
      subst hexisting
      rw [appendText_text]
      intro t ht
      rcases mem_append.1 ht with ht | ht
      · exact hus t ht
      · rw [mem_singleton.1 ht]
        obtain ⟨hnode, hbelow⟩ := each_node.1 hu
        exact each_node.2 ⟨htext _ _ _ hnode, hbelow⟩

end Tree

def Token.kind? : Token → Option Kind
  | .startTag name attributes _ => some (.element (Builder.elementOf name attributes))
  | .text s => some (.text s)
  | .comment s => some (.comment s)
  | .doctype name => some (.doctype (name.getD "html"))
  | _ => none

namespace Layer

/-- Something holds of the open nodes of a nest, and something of all trees that are complete in them. -/
def Each (L : Kind → Prop) (Q : Tree → Prop) (nest : List Layer) : Prop := ∀ l ∈ nest, L l.kind ∧ ∀ t ∈ l.done, t.Each Q

variable {L : Kind → Prop} {Q : Tree → Prop} {nest nest' : List Layer}

lemma each_cons {l : Layer} :
    Each L Q (l :: nest) ↔ (L l.kind ∧ ∀ t ∈ l.done, t.Each Q) ∧ Each L Q nest := forall_mem_cons

lemma each_add {l : Layer} {t : Tree} (h : Each L Q (l :: nest)) (ht : t.Each Q) : Each L Q (l.add t :: nest) := by
  obtain ⟨⟨hkind, hdone⟩, hnest⟩ := each_cons.1 h
  refine each_cons.2 ⟨⟨hkind, fun u hu => ?_⟩, hnest⟩
  rcases mem_append.1 hu with hu | hu
  · exact hdone u hu
  · rw [mem_singleton.1 hu]
    exact ht

lemma each_take (hclosed : ∀ e, L (.element e) → ∀ position children, Q (.node (.element e) position children))
    {position : Position} {t : Token}
    (htext : ∀ s, t = .text s → ∀ existing at_ below, Q (.node (.text existing) at_ below) →
      Q (.node (.text (existing ++ s)) at_ below))
    (hopen : ∀ name attributes, t = .startTag name attributes false →
      (Builder.elementOf name attributes).isVoid = false → L (.element (Builder.elementOf name attributes)))
    (hleaf : ∀ kind, t.kind? = some kind → Q (.leaf kind position)) (h : take position t nest = some nest')
    (hnest : Each L Q nest) : Each L Q nest' := by
  unfold take at h
  split at h
  · rename_i name attributes selfClosing inner outer
    simp only [Option.some.injEq] at h
    subst h
    split
    · exact each_add hnest (Tree.each_leaf.2 (hleaf _ rfl))
    · rename_i hvoid
      rw [Bool.not_eq_true, Bool.or_eq_false_iff] at hvoid
      obtain ⟨hvoid, rfl⟩ := hvoid
      exact each_cons.2 ⟨⟨hopen name attributes rfl hvoid, fun t ht => by cases ht⟩, hnest⟩
  · rename_i name inner around outer
    split at h
    · rename_i htag
      simp only [Option.some.injEq] at h
      subst h
      obtain ⟨⟨hinner, hdone⟩, houter⟩ := each_cons.1 hnest
      obtain ⟨kind, at_, done⟩ := inner
      cases kind with
      | element e => exact each_add houter (Tree.each_node.2 ⟨hclosed e hinner at_ done, hdone⟩)
      | _ => cases htag
    · cases h
  · simp only [Option.some.injEq] at h
    subst h
    obtain ⟨⟨hkind, hdone⟩, houter⟩ := each_cons.1 hnest
    exact each_cons.2 ⟨⟨hkind, Tree.each_appendText (hleaf _ rfl) (htext _ rfl) hdone⟩, houter⟩
  · simp only [Option.some.injEq] at h
    subst h
    exact each_add hnest (Tree.each_leaf.2 (hleaf _ rfl))
  · simp only [Option.some.injEq] at h
    subst h
    exact each_add hnest (Tree.each_leaf.2 (hleaf _ rfl))
  · cases h
    exact hnest
  · cases h

def Every (Q : Kind → Prop) (nest : List Layer) : Prop := Each Q (fun t => Q t.kind) nest

lemma Takes.every {Q : Kind → Prop} (htext : ∀ s s', Q (.text s) → Q (.text s') → Q (.text (s ++ s'))) {ts : List Token}
    (h : Takes ts nest nest') (hts : ∀ t ∈ ts, ∀ k, t.kind? = some k → Q k) (hnest : Every Q nest) : Every Q nest' := by
  induction h with
  | nil nest => exact hnest
  | cons position h _ ih =>
    have ht := hts _ (.head _)
    exact ih (fun t ht => hts t (.tail _ ht))
      (each_take (fun _ he _ _ => he) (fun s hs existing _ _ hexisting => htext existing s hexisting (ht _ (by rw [hs]; rfl)))
        (fun _ _ hstart _ => ht _ (by rw [hstart]; rfl)) ht h hnest)

lemma takes_append {a b : List Token} :
    Takes (a ++ b) nest nest' ↔ ∃ middle, Takes a nest middle ∧ Takes b middle nest' := by
  induction a generalizing nest with
  | nil =>
    refine ⟨fun h => ⟨nest, .nil _, h⟩, ?_⟩
    rintro ⟨middle, ha, hb⟩
    cases ha
    exact hb
  | cons t a ih =>
    constructor
    · intro h
      cases h with
      | cons position ht h =>
        obtain ⟨middle, ha, hb⟩ := ih.1 h
        exact ⟨middle, .cons position ht ha, hb⟩
    · rintro ⟨middle, ha, hb⟩
      cases ha with
      | cons position ht ha => exact .cons position ht (ih.2 ⟨middle, ha, hb⟩)

end Layer

end ReactiveTemplate.Markup
