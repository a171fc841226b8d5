import ReactiveTemplate.Proofs.Markup.Pairing
/-!
# Likeness — trees that differ in verbatim HTML only

HTML that is written as it is takes no part in what becomes of the nodes around it.  `Tree.bare` leaves it out; what is
done to a tree is done to its bare tree alike.
-/
set_option linter.all false

namespace ReactiveTemplate
open List

variable {ts us : List Markup.Tree}

/-- Two results are alike: the same fault, or values that are related. -/
inductive Except.Alike {ε α : Type} (R : α → α → Prop) : Except ε α → Except ε α → Prop
  | ok {a b : α} (h : R a b) : Alike R (.ok a) (.ok b)
  | error (e : ε) : Alike R (.error e) (.error e)

namespace Except.Alike

variable {ε α β : Type} {R : α → α → Prop} {S : β → β → Prop}

lemma symm {x y : Except ε α} : Alike R x y → Alike (fun a b => R b a) y x
  | ok h => ok h
  | error e => error e

lemma map {f g : α → β} (hfg : ∀ a b, R a b → S (f a) (g b)) {x y : Except ε α} :
    Alike R x y → Alike S (x.map f) (y.map g)
  | ok h => ok (hfg _ _ h)
  | error e => error e

lemma mapError (f : ε → ε) {x y : Except ε α} : Alike R x y → Alike R (x.mapError f) (y.mapError f)
  | ok h => ok h
  | error e => error (f e)

end Except.Alike

namespace Markup

def Kind.bare : Kind → Kind
  | .raw _ => .raw ""
  | kind => kind

namespace Kind

@[simp] lemma element?_bare (k : Kind) : k.bare.element? = k.element? := by cases k <;> rfl

@[simp] lemma tag?_bare (k : Kind) : k.bare.tag? = k.tag? := by cases k <;> rfl

@[simp] lemma text?_bare (k : Kind) : k.bare.text? = k.text? := by cases k <;> rfl

@[simp] lemma isVerbatim_bare (k : Kind) : k.bare.isVerbatim = k.isVerbatim := by cases k <;> rfl

end Kind

namespace Tree

def bare : Tree → Tree
  | node kind position children => node kind.bare position (children.map bare)

@[simp] lemma kind_bare (t : Tree) : t.bare.kind = t.kind.bare := by
  cases t
  rw [bare, kind, kind]

@[simp] lemma position_bare (t : Tree) : t.bare.position = t.position := by
  cases t
  rw [bare, position, position]

@[simp] lemma children_bare (t : Tree) : t.bare.children = t.children.map bare := by
  cases t
  rw [bare, children, children]

@[simp] lemma element?_bare (t : Tree) : t.bare.element? = t.element? := by simp [element?]

@[simp] lemma tag?_bare (t : Tree) : t.bare.tag? = t.tag? := by simp [tag?]

lemma bare_withChildren (t : Tree) (children : List Tree) :
    (t.withChildren children).bare = t.bare.withChildren (children.map bare) := by
  simp [withChildren, bare]

lemma bare_mapElement (f : Element → Element) (t : Tree) : (t.mapElement f).bare = t.bare.mapElement f := by
  obtain ⟨kind, position, children⟩ := t
  cases kind <;> simp [mapElement, bare, Kind.bare]

lemma bare_appendText (s : String) (position : Position) : ∀ ts : List Tree,
    (appendText s position ts).map bare = appendText s position (ts.map bare)
  | [] => by simp [appendText, leaf, bare, Kind.bare]
  | [node kind at_ below] => by cases kind <;> simp [appendText, leaf, bare, Kind.bare]
  | t :: u :: us => by
    have hstep : ∀ t u : Tree, ∀ us : List Tree,
        appendText s position (t :: u :: us) = t :: appendText s position (u :: us) := by
      intro t u us
      rw [appendText]
      simp
    rw [hstep, map_cons, map_cons, map_cons, hstep, bare_appendText s position (u :: us), map_cons]

def Like (t u : Tree) : Prop := t.bare = u.bare

def AllLike (ts us : List Tree) : Prop := ts.map bare = us.map bare

namespace Like

variable {t u : Tree}

lemma kind_eq (h : Like t u) : t.kind.bare = u.kind.bare := by
  rw [← kind_bare, h, kind_bare]

lemma position_eq (h : Like t u) : t.position = u.position := by
  rw [← position_bare, h, position_bare]

lemma children (h : Like t u) : AllLike t.children u.children := by
  rw [AllLike, ← children_bare, h, children_bare]

lemma element?_eq (h : Like t u) : t.element? = u.element? := by
  rw [← element?_bare, h, element?_bare]

lemma isVerbatim_eq (h : Like t u) : t.kind.isVerbatim = u.kind.isVerbatim := by
  rw [← Kind.isVerbatim_bare, h.kind_eq, Kind.isVerbatim_bare]

lemma mapElement (h : Like t u) (f : Element → Element) : Like (t.mapElement f) (u.mapElement f) := by
  rw [Like, bare_mapElement, h, bare_mapElement]

lemma withChildren (h : Like t u) (hchildren : AllLike ts us) :
    Like (t.withChildren ts) (u.withChildren us) := by
  rw [Like, bare_withChildren, h, hchildren, bare_withChildren]

end Like

lemma allLike_iff_forall₂ : AllLike ts us ↔ List.Forall₂ Like ts us := by
  rw [AllLike, ← forall₂_eq_eq_eq, forall₂_map_left_iff, forall₂_map_right_iff]
  rfl

mutual
theorem paired_iff_like : ∀ {t u : Tree},
    Paired (fun t u => t.kind.bare = u.kind.bare ∧ t.position = u.position) t u ↔ Like t u
  | node kind position ts, node kind' position' us => by
    rw [Paired, pairedAll_iff_allLike, Like, bare, bare, node.injEq, ← and_assoc]
    rfl

theorem pairedAll_iff_allLike : ∀ {ts us : List Tree},
    PairedAll (fun t u => t.kind.bare = u.kind.bare ∧ t.position = u.position) ts us ↔ AllLike ts us
  | [], [] => by simp [PairedAll, AllLike]
  | [], _ :: _ => by simp [PairedAll, AllLike]
  | _ :: _, [] => by simp [PairedAll, AllLike]
  | t :: ts, u :: us => by
    rw [PairedAll, paired_iff_like, pairedAll_iff_allLike, AllLike, AllLike, map_cons, map_cons, cons.injEq]
    rfl
end

lemma AllLike.filter {p : Tree → Bool} (hp : ∀ t, p t.bare = p t) (h : AllLike ts us) :
    AllLike (ts.filter p) (us.filter p) := by
  have hmap : ∀ ts : List Tree, (ts.filter p).map bare = (ts.map bare).filter p := by
    intro ts
    rw [filter_map]
    congr 2
    funext t
    exact (hp t).symm
  rw [AllLike, hmap, h, hmap]

end Tree
end Markup

end ReactiveTemplate
