import ReactiveTemplate.Proofs.Component.Faults
import ReactiveTemplate.Proofs.Component.Likeness
/-!
# Parallel — one component in two places

Where a component stands decides where its failures are reported and what its payload says of its place, and nothing
else: two runs of the binder over trees of the same nodes go side by side (`Component.parallel_build`).
-/
set_option linter.all false

namespace ReactiveTemplate
open List

open Markup (Tree Element Attribute)

inductive Except.Rel {ε α β : Type} (E : ε → ε → Prop) (R : α → β → Prop) : Except ε α → Except ε β → Prop
  | ok {a : α} {b : β} (h : R a b) : Rel E R (.ok a) (.ok b)
  | error {d e : ε} (h : E d e) : Rel E R (.error d) (.error e)

namespace Except.Rel

variable {ε α β γ δ : Type} {E F : ε → ε → Prop} {R : α → β → Prop} {S : γ → δ → Prop} {x : Except ε α} {y : Except ε β}

lemma bind {f : α → Except ε γ} {g : β → Except ε δ} (h : Rel E R x y) (hnext : ∀ a b, R a b → Rel E S (f a) (g b)) :
    Rel E S (x >>= f) (y >>= g) := by
  cases h with
  | ok h => exact hnext _ _ h
  | error h => exact .error h

lemma mapError {f g : ε → ε} (h : Rel E R x y) (hfg : ∀ d e, E d e → F (f d) (g e)) :
    Rel F R (x.mapError f) (y.mapError g) := by
  cases h with
  | ok h => exact .ok h
  | error h => exact .error (hfg _ _ h)

lemma map {f : α → γ} {g : β → δ} (h : Rel E R x y) (hfg : ∀ a b, R a b → S (f a) (g b)) :
    Rel E S (x.map f) (y.map g) := by
  cases h with
  | ok h => exact .ok (hfg _ _ h)
  | error h => exact .error h

lemma imp {R' : α → β → Prop} (h : Rel E R x y) (hR : ∀ a b, R a b → R' a b) : Rel E R' x y := by
  cases h with
  | ok h => exact .ok (hR _ _ h)
  | error h => exact .error h

lemma mono (h : Rel E R x y) (hE : ∀ d e, E d e → F d e) : Rel F R x y := by
  cases h with
  | ok h => exact .ok h
  | error h => exact .error (hE _ _ h)

lemma of_ok {a : α} (h : Rel E R (.ok a) y) : ∃ b, y = .ok b ∧ R a b := by
  cases h with
  | ok h => exact ⟨_, rfl, h⟩

lemma of_error {d : ε} (h : Rel E R (.error d) y) : ∃ e, y = .error e ∧ E d e := by
  cases h with
  | error h => exact ⟨_, rfl, h⟩

end Except.Rel

namespace Diagnostic

/-- The same failure in two runs, which has no place yet and which the template is to blame for. -/
structure Unplaced (d d' : Diagnostic) : Prop where
  same : d' = d
  file_eq : d.file = ""
  ofTemplate : d.fault.isOfTemplate = true

def Covers (files : String × String) (E E' : Diagnostic → Diagnostic → Prop) (p p' : Position) : Prop :=
  ∀ d d', E d d' → E' (d.locate files.1 p.line p.column) (d'.locate files.2 p'.line p'.column)

def Placed (files : String × String) (E : Diagnostic → Diagnostic → Prop) (t u : Tree) : Prop :=
  t.kind.bare = u.kind.bare ∧ Covers files Unplaced E t.position u.position

lemma Placed.element?_eq {files : String × String} {E : Diagnostic → Diagnostic → Prop} {t u : Tree}
    (h : Placed files E t u) : t.element? = u.element? := by
  rw [Tree.element?, Tree.element?, ← Markup.Kind.element?_bare, h.1, Markup.Kind.element?_bare]

lemma unplaced_of_inTemplate {α : Type} {x : Except Fault α} (h : Fault.InTemplate x) :
    Except.Rel Unplaced (· = ·) (x.mapError Fault.toDiagnostic) (x.mapError Fault.toDiagnostic) := by
  cases x with
  | ok a => exact .ok rfl
  | error fault => exact .error ⟨rfl, rfl, h fault rfl⟩

end Diagnostic

open Diagnostic (Unplaced Covers Placed)

namespace Component

/-- Two places for one component: the files, the line in the second one, and the components that are known there, which
may be said to be the same. -/
structure Places where
  files : String × String
  line : Nat
  assetOf : String → Option String
  assetOf' : String → Option String
  areSame : Prop

def Places.site (s : Places) (context : Context) : Site := ⟨s.files.1, context, s.assetOf⟩

def Places.site' (s : Places) (context : Context) : Site := ⟨s.files.2, context, s.assetOf'⟩

/-- Binders that differ in the place of the component and, with other components, in its dependencies. -/
def Binder.Twin (s : Places) (b b' : Binder) : Prop :=
  ∃ dependencies, (s.areSame → dependencies = b.dependencies) ∧
    b' = { b with payload := { b.payload with file := s.files.2, line := s.line }, dependencies }

namespace Binding

def Parallel {α β : Type} (s : Places) (E : Diagnostic → Diagnostic → Prop) (R : α → β → Prop) (step : Binding α)
    (step' : Binding β) : Prop :=
  ∀ b b', Binder.Twin s b b' → Except.Rel E (fun x y => R x.1 y.1 ∧ Binder.Twin s x.2 y.2) (step b) (step' b')

variable {s : Places} {E : Diagnostic → Diagnostic → Prop}

namespace Parallel

variable {α β γ δ : Type} {R : α → β → Prop} {S : γ → δ → Prop}

lemma pure {a : α} {b : β} (h : R a b) : Parallel s E R (Pure.pure a) (Pure.pure b) :=
  fun _ _ hb => .ok ⟨h, hb⟩

lemma bind {step : Binding α} {step' : Binding β} {next : α → Binding γ} {next' : β → Binding δ}
    (h : Parallel s E R step step')
    (hnext : ∀ a b, R a b → Parallel s E S (next a) (next' b)) :
    Parallel s E S (step >>= next) (step' >>= next') := fun b b' hb =>
  (h b b' hb).bind (fun x y hxy => hnext x.1 y.1 hxy.1 x.2 y.2 hxy.2)

lemma bind_eq {step step' : Binding α} {next : α → Binding γ} {next' : α → Binding δ}
    (h : Parallel s E (· = ·) step step') (hnext : ∀ a, Parallel s E S (next a) (next' a)) :
    Parallel s E S (step >>= next) (step' >>= next') := h.bind (fun a _ heq => heq ▸ hnext a)

lemma mono {F : Diagnostic → Diagnostic → Prop} {step : Binding α} {step' : Binding β}
    (h : Parallel s E R step step') (hE : ∀ d d', E d d' → F d d') : Parallel s F R step step' :=
  fun b b' hb => (h b b' hb).mono hE

lemma mapM {f : α → Binding γ} {g : β → Binding δ} {as : List α} {bs : List β}
    (h : List.Forall₂ (fun a b => Parallel s E S (f a) (g b)) as bs) :
    Parallel s E (List.Forall₂ S) (as.mapM f) (bs.mapM g) := by
  induction h with
  | nil => exact pure .nil
  | cons h _ ih =>
    rw [mapM_cons, mapM_cons]
    exact h.bind (fun c d hcd => ih.bind (fun cs ds hcds => pure (.cons hcd hcds)))

lemma foldlM {f : γ → α → Binding γ} {g : δ → β → Binding δ} {as : List α} {bs : List β}
    (h : List.Forall₂ (fun a b => ∀ c d, S c d → Parallel s E S (f c a) (g d b)) as bs) :
    ∀ {c : γ} {d : δ}, S c d → Parallel s E S (as.foldlM f c) (bs.foldlM g d) := by
  induction h with
  | nil => exact fun hcd => pure hcd
  | cons h _ ih =>
    intro c d hcd
    rw [foldlM_cons, foldlM_cons]
    exact (h c d hcd).bind (fun c' d' hcd' => ih hcd')

lemma located {p p' : Position} (hcovers : Covers s.files Unplaced E p p') {step : Binding α}
    {step' : Binding β} (h : Parallel s Unplaced R step step') :
    Parallel s E R (located s.files.1 p step) (located s.files.2 p' step') := fun b b' hb =>
  (h b b' hb).mapError hcovers

lemma detail {step : Binding α} {step' : Binding β} (h : Parallel s Unplaced R step step')
    (key value : String) : Parallel s Unplaced R (reporting (fun d => d.detail key value) step)
      (reporting (fun d => d.detail key value) step') := fun b b' hb =>
  (h b b' hb).mapError (fun _ _ hd => ⟨congrArg (Diagnostic.detail · key value) hd.same, hd.file_eq, hd.ofTemplate⟩)

lemma throw {fault : Fault} (h : fault.isOfTemplate = true) :
    Parallel s Unplaced R (MonadExcept.throw fault.toDiagnostic) (MonadExcept.throw fault.toDiagnostic) :=
  fun _ _ _ => .error ⟨rfl, rfl, h⟩

lemma orFault {x : Except Fault α} (h : Fault.InTemplate x) :
    Parallel s Unplaced (· = ·) (orFault x) (orFault x) := by
  cases x with
  | ok a => exact pure rfl
  | error fault => exact throw (h fault rfl)

lemma get_bind {next : Binder → Binding γ} {next' : Binder → Binding δ}
    (h : ∀ b c, Binder.Twin s b c → Parallel s E S (next b) (next' c)) :
    Parallel s E S (get >>= next) (get >>= next') := fun b b' hb => h b b' hb b b' hb

end Parallel

/-! ## Steps -/

lemma parallel_modifyPayload {f : Payload → Payload}
    (hf : ∀ p : Payload, f { p with file := s.files.2, line := s.line } = { f p with file := s.files.2, line := s.line }) :
    Parallel s E (· = ·) (modifyPayload f) (modifyPayload f) := by
  rintro b _ ⟨ds, hds, rfl⟩
  exact .ok ⟨rfl, ds, hds, congrArg (fun payload => Binder.mk b.sequence payload ds) (hf b.payload)⟩

lemma parallel_insertElement (handle : String) :
    Parallel s E (· = ·) (insertElement handle) (insertElement handle) := by
  rintro b _ ⟨ds, hds, rfl⟩
  exact .ok ⟨rfl, ds, hds, rfl⟩

lemma parallel_expression {site site' : Site} (hcontext : site'.context = site.context) (source : String)
    (isEscaped : Bool) :
    Parallel s Unplaced (· = ·) (expression site source isEscaped) (expression site' source isEscaped) := by
  rw [expression, expression, hcontext]
  refine (Parallel.orFault (inTemplate_summary source)).bind_eq (fun summary => ?_)
  refine (Parallel.orFault (inTemplate_refuseEffects _ _)).bind (fun _ _ _ => ?_)
  rintro b _ ⟨ds, hds, rfl⟩
  exact .ok ⟨rfl, ds, hds, rfl⟩

lemma parallel_watch (watcher : Watcher) (vars : List String) :
    Parallel s E (· = ·) (watch watcher vars) (watch watcher vars) := by
  refine parallel_modifyPayload (fun p => ?_)
  have hlink : ∀ (names : List String) (n : Nat) (p : Payload),
      names.foldl (fun p name => (p.link name n).2) { p with file := s.files.2, line := s.line } =
        { names.foldl (fun p name => (p.link name n).2) p with file := s.files.2, line := s.line } := by
    intro names n
    induction names with
    | nil => exact fun _ => rfl
    | cons name names ih => exact fun p => ih (p.link name n).2
  exact hlink vars _ { p with watchers := _ }

lemma parallel_scanText (value : String) : Parallel s E (· = ·) (scanText value) (scanText value) := by
  rintro b _ ⟨ds, hds, rfl⟩
  exact .ok ⟨rfl, ds, hds, rfl⟩

lemma parallel_numbered (t : Target) : Parallel s E (· = ·) (numbered t) (numbered t) := by
  unfold numbered
  cases t.handle with
  | some handle => exact .pure rfl
  | none =>
    rintro b _ ⟨ds, hds, rfl⟩
    exact .ok ⟨rfl, ds, hds, rfl⟩

lemma parallel_referenced (e : Element) : Parallel s E (· = ·) (referenced e) (referenced e) := by
  unfold referenced
  cases e.value? "ref" with
  | none => exact .pure rfl
  | some value =>
    rintro b _ ⟨ds, hds, rfl⟩
    exact .ok ⟨rfl, ds, hds, rfl⟩

lemma parallel_reference (names : List String) {t u : Tree} (h : Placed s.files E t u) :
    Parallel s E (· = ·) (reference s.files.1 names t) (reference s.files.2 names u) := by
  rw [reference, reference, h.element?_eq]
  cases u.element?.bind (·.value? "ref") with
  | none => exact .pure rfl
  | some value =>
    refine Parallel.located h.2 ?_
    rintro b _ ⟨ds, hds, rfl⟩
    by_cases hname : (!isAllowed (lowerCamel (Text.trim value))) = true
    · simp only [if_pos hname]
      exact .error ⟨rfl, rfl, rfl⟩
    · by_cases hnew : names.contains (lowerCamel (Text.trim value)) = true
      · simp only [if_neg hname, if_pos hnew]
        exact .error ⟨rfl, rfl, rfl⟩
      · simp only [if_neg hname, if_neg hnew]
        exact .ok ⟨rfl, ds, hds, rfl⟩

section

variable {context : Context} {p p' : Position}
  (hcovers : Covers s.files Unplaced E p p')

include hcovers

lemma parallel_textPiece (piece : Piece) : Parallel s E (Tree.Paired (Placed s.files E))
    (textPiece (s.site context) p piece) (textPiece (s.site' context) p' piece) := by
  cases piece with
  | literal s => exact .pure (Tree.paired_leaf ⟨rfl, hcovers⟩)
  | expression found =>
    refine (parallel_insertElement _).bind_eq (fun number => ?_)
    refine (Parallel.located hcovers (parallel_expression rfl _ _)).bind_eq (fun bound => ?_)
    exact (parallel_watch _ _).bind (fun _ _ _ => .pure (Tree.paired_leaf ⟨rfl, hcovers⟩))

lemma parallel_text (value : String) : Parallel s E (Tree.PairedAll (Placed s.files E))
    (text (s.site context) p value) (text (s.site' context) p' value) := by
  refine (parallel_scanText value).bind_eq (fun pieces => ?_)
  have hpieces : List.Forall₂ (fun piece piece' => Parallel s E (Tree.Paired (Placed s.files E))
      (textPiece (s.site context) p piece) (textPiece (s.site' context) p' piece')) pieces pieces :=
    forall₂_same.2 (fun piece _ => parallel_textPiece hcovers piece)
  exact fun b b' hb => (Parallel.mapM hpieces b b' hb).imp (fun x y hxy => ⟨Tree.pairedAll_iff_forall₂.2 hxy.1, hxy.2⟩)

omit hcovers in
lemma parallel_templatePiece (piece : Piece) : Parallel s Unplaced (· = ·)
    (templatePiece (s.site context) piece) (templatePiece (s.site' context) piece) := by
  cases piece with
  | literal s => exact .pure rfl
  | expression found =>
    refine (parallel_expression rfl _ _).bind_eq (fun bound => ?_)
    exact .pure rfl

omit hcovers in
lemma parallel_attributeValue (isComponent : Bool) (t : Target) (a : Attribute) : Parallel s Unplaced (· = ·)
    (attributeValue (s.site context) isComponent t a) (attributeValue (s.site' context) isComponent t a) := by
  refine (parallel_numbered t).bind_eq (fun (element, t) => ?_)
  refine Parallel.get_bind ?_
  rintro b _ ⟨ds, hds, rfl⟩
  have hset : ∀ attributes, Parallel s Unplaced (fun _ _ => True)
      (set ({ b with payload := { b.payload with attributes } } : Binder))
      (set ({ b with
        payload := { b.payload with file := s.files.2, line := s.line, attributes }, dependencies := ds } : Binder)) :=
    fun _ _ _ _ => .ok ⟨trivial, ds, hds, rfl⟩
  refine (hset _).bind (fun _ _ _ => ?_)
  refine (parallel_scanText a.value).bind_eq (fun pieces => ?_)
  cases wholeValue? pieces with
  | some found =>
    refine (parallel_expression rfl _ _).bind_eq (fun bound => ?_)
    exact (parallel_watch _ _).bind (fun _ _ _ => .pure rfl)
  | none =>
    refine (Parallel.mapM (forall₂_same.2 (fun piece _ => parallel_templatePiece piece))).bind (fun parts _ heq => ?_)
    rw [forall₂_eq_eq_eq] at heq
    subst heq
    exact (parallel_watch _ _).bind (fun _ _ _ => .pure rfl)

omit hcovers in
lemma parallel_event (t : Target) (a : Attribute) : Parallel s Unplaced (· = ·)
    (event (s.site context) t a) (event (s.site' context) t a) := by
  refine (parallel_numbered t).bind_eq (fun (element, t) => ?_)
  refine Parallel.get_bind ?_
  rintro b _ ⟨ds, hds, rfl⟩
  refine (Parallel.orFault (Handler.inTemplate_ofValue context b.payload.vars a.value)).bind_eq (fun (handler, vars) => ?_)
  exact (parallel_modifyPayload (fun _ => rfl)).bind (fun _ _ _ => .pure rfl)

lemma parallel_attr (isComponent : Bool) (t : Target) (a : Attribute) : Parallel s E (· = ·)
    (attr (s.site context) p isComponent t a) (attr (s.site' context) p' isComponent t a) := by
  have hbind : ∀ {step step' : Binding Target}, Parallel s Unplaced (· = ·) step step' →
      Parallel s E (· = ·)
        (located s.files.1 p (reporting (fun d => d.detail "attribute" a.rawName) step) >>= fun t =>
          pure { t with element := t.element.remove a.name })
        (located s.files.2 p' (reporting (fun d => d.detail "attribute" a.rawName) step') >>= fun t =>
          pure { t with element := t.element.remove a.name }) := fun h =>
    (Parallel.located hcovers (h.detail _ _)).bind (fun t _ heq => heq ▸ .pure rfl)
  unfold attr
  by_cases hevent : isEvent a.name = true
  · simp only [if_pos hevent]
    exact hbind (parallel_event t a)
  · by_cases hmarkers : Interpolation.hasMarkers a.value = true
    · simp only [if_neg hevent, if_pos hmarkers]
      exact hbind (parallel_attributeValue isComponent t a)
    · simp only [if_neg hevent, if_neg hmarkers]
      exact .pure rfl

def Known (s : Places) (tag : String) : Prop :=
  (s.assetOf tag).isSome = (s.assetOf' tag).isSome ∧ (s.areSame → s.assetOf' tag = s.assetOf tag)

lemma parallel_element {e : Element} (hknown : Known s e.tag) : Parallel s E (· = ·)
    (element (s.site context) p e) (element (s.site' context) p' e) := by
  refine (parallel_referenced e).bind_eq (fun t => ?_)
  have hdepends : Parallel s E (fun _ _ => True)
      (modify (fun b => { b with dependencies := (b.dependencies ++ (s.assetOf e.tag).toList).eraseDups }))
      (modify (fun b => { b with dependencies := (b.dependencies ++ (s.assetOf' e.tag).toList).eraseDups })) := by
    rintro b _ ⟨ds, hds, rfl⟩
    exact .ok ⟨trivial, _, fun hQ => by rw [hds hQ, hknown.2 hQ], rfl⟩
  refine hdepends.bind (fun _ _ _ => ?_)
  show Parallel s E _ (foldlM (attr _ p (s.assetOf e.tag).isSome) t _ >>= _)
    (foldlM (attr _ p' (s.assetOf' e.tag).isSome) t _ >>= _)
  rw [← hknown.1]
  refine (Parallel.foldlM (forall₂_same.2 (fun a _ t _ heq => ?_)) rfl).bind (fun t _ heq => ?_)
  · subst heq
    exact parallel_attr hcovers _ t a
  · subst heq
    exact .pure rfl

end

def Bindable (s : Places) (E : Diagnostic → Diagnostic → Prop) (t u : Tree) : Prop :=
  Placed s.files E t u ∧ ∀ tag ∈ t.tag?, Known s tag

mutual
theorem parallel_node {context : Context} (isVerbatim : Bool) :
    ∀ {t u : Tree}, Tree.Paired (Bindable s E) t u →
      Parallel s E (Tree.PairedAll (Placed s.files E)) (node (s.site context) isVerbatim t)
        (node (s.site' context) isVerbatim u)
  | .node kind p ts, .node kind' p' us, h => by
    obtain ⟨⟨hplaced, hknown⟩, hbelow⟩ := h
    have hkind : kind.bare = kind'.bare := hplaced.1
    have hcovers : Covers s.files Unplaced E p p' := hplaced.2
    have hself : Tree.PairedAll (Placed s.files E) [.node kind p ts] [.node kind' p' us] :=
      ⟨Tree.paired_iff.2 ⟨hplaced, hbelow.mono (fun _ _ _ h => h.1)⟩, trivial⟩
    cases kind with
    | element e =>
      cases kind' <;> cases hkind
      refine (parallel_element hcovers (hknown e.tag rfl)).bind_eq (fun bound => ?_)
      refine (parallel_nodes _ hbelow).bind (fun ts' us' hts => .pure ⟨?_, trivial⟩)
      exact Tree.paired_iff.2 ⟨⟨rfl, hcovers⟩, hts⟩
    | text value =>
      cases kind' <;> cases hkind
      rw [node, node]
      split
      · exact parallel_text hcovers value
      · exact .pure hself
    | _ =>
      cases kind' <;> cases hkind
      exact .pure hself

theorem parallel_nodes {context : Context} (isVerbatim : Bool) :
    ∀ {ts us : List Tree},
      Tree.PairedAll (Bindable s E) ts us →
      Parallel s E (Tree.PairedAll (Placed s.files E)) (nodes (s.site context) isVerbatim ts)
        (nodes (s.site' context) isVerbatim us)
  | [], [], _ => .pure trivial
  | [], _ :: _, h => h.elim
  | _ :: _, [], h => h.elim
  | _ :: _, _ :: _, h =>
    (parallel_node isVerbatim h.1).bind (fun _ _ hfirst =>
      (parallel_nodes isVerbatim h.2).bind (fun _ _ hrest => .pure (hfirst.append hrest)))
end

end Binding

/-! ## Parts -/

section

open Binding (Bindable)

variable {s : Places} {E : Diagnostic → Diagnostic → Prop} {t u : Tree} {ts us : List Tree}

lemma tag?_of_placed (h : Tree.Paired (Bindable s E) t u) : t.tag? = u.tag? := by
  rw [Tree.tag?, Tree.tag?, ← Markup.Kind.tag?_bare, h.here.1.1, Markup.Kind.tag?_bare]

lemma textContent_of_placed (h : Tree.Paired (Bindable s E) t u) : t.textContent = u.textContent := by
  have htexts : List.Forall₂ (· = ·) (t.children.map (·.kind.text?)) (u.children.map (·.kind.text?)) := by
    rw [forall₂_map_left_iff, forall₂_map_right_iff]
    refine (Tree.pairedAll_iff_forall₂.1 h.below).imp (fun v w hchild => ?_)
    rw [← Markup.Kind.text?_bare, hchild.here.1.1, Markup.Kind.text?_bare]
  rw [forall₂_eq_eq_eq] at htexts
  have hfilter := congrArg (filterMap id) htexts
  rw [filterMap_map, filterMap_map] at hfilter
  exact congrArg String.join hfilter

lemma faultAt_of_placed (h : Placed s.files E t u) {fault : Fault} (hfault : fault.isOfTemplate = true) :
    E (faultAt s.files.1 t fault) (faultAt s.files.2 u fault) := h.2 _ _ ⟨rfl, rfl, hfault⟩

lemma filter_of_placed (h : List.Forall₂ (Tree.Paired (Bindable s E)) ts us) (tag : String) :
    List.Forall₂ (Tree.Paired (Bindable s E)) (ts.filter (fun t => t.tag? == some tag))
      (us.filter (fun t => t.tag? == some tag)) :=
  rel_filter (fun t u htu => by simp only [tag?_of_placed htu]) h

lemma single_of_placed (h : Tree.PairedAll (Bindable s E) ts us) (tag : String) {many misplaced : Fault}
    (hmany : many.isOfTemplate = true) (hmisplaced : misplaced.isOfTemplate = true) :
    Except.Rel E (Option.Rel (Tree.Paired (Bindable s E))) (single s.files.1 tag many misplaced ts)
      (single s.files.2 tag many misplaced us) := by
  have hany : ts.any (fun c => c.tag? == some tag) = us.any (fun c => c.tag? == some tag) := by
    have htop := (filter_of_placed (Tree.pairedAll_iff_forall₂.1 h) tag).length_eq
    rw [← countP_eq_length_filter, ← countP_eq_length_filter] at htop
    rw [Bool.eq_iff_iff, any_eq_true, any_eq_true, ← countP_pos_iff, ← countP_pos_iff, htop]
  have hfound := filter_of_placed h.forall₂_preorder tag
  rw [single, single, hany]
  revert hfound
  generalize (Tree.preorderAll ts).filter (fun t => t.tag? == some tag) = found
  generalize (Tree.preorderAll us).filter (fun t => t.tag? == some tag) = found'
  intro hfound
  cases hfound with
  | nil => exact .ok .none
  | cons hfirst hrest =>
    cases hrest with
    | nil =>
      dsimp only
      split
      · exact .ok (.some hfirst)
      · exact .error (faultAt_of_placed hfirst.here.1 hmisplaced)
    | cons hsecond _ => exact .error (faultAt_of_placed hsecond.here.1 hmany)

structure Parts.Twin (N : Tree → Tree → Prop) (p q : Parts) : Prop where
  script : Option.Rel (Tree.Paired N) p.script q.script
  style : Option.Rel (Tree.Paired N) p.style q.style
  template : Tree.PairedAll N p.template q.template

lemma ofChildren_of_placed (h : Tree.PairedAll (Bindable s E) ts us) :
    Except.Rel E (Parts.Twin (Bindable s E)) (Parts.ofChildren s.files.1 ts) (Parts.ofChildren s.files.2 us) := by
  have hfind := filter_of_placed h.forall₂_preorder "component"
  have hemptied : Tree.PairedAll (Bindable s E) (ts.map Parts.emptied) (us.map Parts.emptied) := by
    refine h.map (fun t u htu => ?_)
    rw [Parts.emptied, Parts.emptied, tag?_of_placed htu]
    split
    · exact Tree.paired_leaf ⟨⟨rfl, htu.here.1.2⟩, nofun⟩
    · exact htu
  rw [Parts.ofChildren, Parts.ofChildren, ← head?_filter, ← head?_filter]
  revert hfind
  generalize (Tree.preorderAll ts).filter (fun t => t.tag? == some "component") = found
  generalize (Tree.preorderAll us).filter (fun t => t.tag? == some "component") = found'
  intro hfind
  cases hfind with
  | cons hfirst _ => exact .error (faultAt_of_placed hfirst.here.1 rfl)
  | nil =>
    exact (single_of_placed h "style" rfl rfl).bind (fun style style' hstyle =>
      (single_of_placed h "script" rfl rfl).bind (fun script script' hscript => .ok ⟨hscript, hstyle, hemptied⟩))

lemma text_of_placed {part part' : Option Tree} (h : Option.Rel (Tree.Paired (Bindable s E)) part part') :
    part.map Tree.textContent = part'.map Tree.textContent := by
  cases h with
  | none => rfl
  | some htu => exact congrArg some (textContent_of_placed htu)

def Raised (E : Diagnostic → Diagnostic → Prop) (d d' : Diagnostic) : Prop := Unplaced d d' ∨ E d d'

lemma parallel_bindTemplate {p q : Parts} (h : p.Twin (Bindable s E) q)
    (head : Head) :
    Binding.Parallel s (Raised E) (Tree.PairedAll (Placed s.files E)) (bindTemplate s.files.1 s.assetOf p head)
      (bindTemplate s.files.2 s.assetOf' q head) := by
  have hscript : q.scriptText = p.scriptText := by rw [Parts.scriptText, Parts.scriptText, text_of_placed h.script]
  rw [bindTemplate, bindTemplate, hscript]
  have hreferences : Binding.Parallel s E (· = ·) (Binding.references s.files.1 p.template)
      (Binding.references s.files.2 q.template) :=
    .foldlM (h.template.forall₂_preorder.imp (fun t u htu names _ heq => heq ▸ Binding.parallel_reference names htu.here.1)) rfl
  refine (hreferences.mono (fun _ _ => Or.inr)).bind_eq (fun references => ?_)
  refine ((Binding.Parallel.orFault (inTemplate_checkCollision _ _)).mono (fun _ _ => Or.inl)).bind (fun _ _ _ => ?_)
  have hfault : ∀ fault : Fault, fault.isOfTemplate = true →
      Raised E (scriptFault s.files.1 p.script fault) (scriptFault s.files.2 q.script fault) := by
    intro fault hfault
    have hscript := h.script
    revert hscript
    generalize p.script = script
    generalize q.script = script'
    rintro (htu | -)
    · exact .inr (faultAt_of_placed htu.here.1 hfault)
    · exact .inl ⟨rfl, rfl, hfault⟩
  have hhooks : ∀ injected, Binding.Parallel s (Raised E) (· = ·)
      (liftM ((hooksOf p.scriptText injected).mapError (scriptFault s.files.1 p.script)))
      (liftM ((hooksOf p.scriptText injected).mapError (scriptFault s.files.2 q.script))) := by
    intro injected b b' hb
    cases hhooks : hooksOf p.scriptText injected with
    | ok hooks => exact .ok ⟨rfl, hb⟩
    | error fault => exact .error (hfault fault (inTemplate_hooksOf _ _ fault hhooks))
  refine (hhooks _).bind_eq (fun hooks => ?_)
  refine ((Binding.Parallel.orFault (inTemplate_analyse _ _)).mono (fun _ _ => Or.inl)).bind_eq (fun analysed => ?_)
  refine (Binding.parallel_modifyPayload (fun _ => rfl)).bind (fun _ _ _ => ?_)
  exact (Binding.parallel_nodes false h.template).mono (fun _ _ => Or.inr)

/-- Components that differ in what they say about their places and, with other components, in their dependencies. -/
structure Built.Twin (s : Places) (E : Diagnostic → Diagnostic → Prop) (b b' : Built) : Prop where
  head : b'.head = b.head
  payload : b'.payload = { b.payload with file := s.files.2, line := s.line }
  script : ∃ ds ds' : List String, (s.areSame → ds' = ds) ∧
    b.script = ds.foldl Asset.dependsOn (Asset.new .javascript b.payload.render) ∧
    b'.script = ds'.foldl Asset.dependsOn (Asset.new .javascript b'.payload.render)
  style : b'.style = b.style
  template : Tree.PairedAll (Placed s.files E) b.template b'.template

lemma parallel_build {sequence sequence' : Sequence} (hsalt : sequence'.salt = sequence.salt)
    (h : Tree.PairedAll (Bindable s E) ts us) (e : Element) (p : Position) {p' : Position} (hline : p'.line = s.line) :
    Except.Rel (Raised E) (Built.Twin s E) (build s.files.1 sequence s.assetOf e p ts)
      (build s.files.2 sequence' s.assetOf' e p' us) := by
  unfold build
  refine ((ofChildren_of_placed h).mono (fun _ _ => Or.inr)).bind (fun parts parts' hparts => ?_)
  refine ((Diagnostic.unplaced_of_inTemplate (inTemplate_head e)).mono (fun _ _ => Or.inl)).bind (fun head _ heq => ?_)
  subst heq
  have hstart : Binder.Twin s
      { sequence := sequence.salted head.name, payload := { tag := head.tag, file := s.files.1, line := p.line } }
      { sequence := sequence'.salted head.name, payload := { tag := head.tag, file := s.files.2, line := p'.line } } :=
    ⟨[], fun _ => rfl, by rw [Sequence.salted, Sequence.salted, hsalt, hline]⟩
  refine (parallel_bindTemplate hparts head _ _ hstart).bind ?_
  rintro ⟨template, b⟩ ⟨template', _⟩ ⟨htemplate, ds, hds, rfl⟩
  have hstyle : parts'.styleText = parts.styleText := by
    rw [Parts.styleText, Parts.styleText, text_of_placed hparts.style]
  refine .ok ⟨rfl, rfl, ⟨_, _, hds, rfl, rfl⟩, ?_, htemplate⟩
  simp only [hstyle]

end

section

variable {file : String} {sequence : Sequence} {assetOf : String → Option String} {e : Element} {p : Position}
  {ts us : List Tree} {built : Built}

lemma payload_of_build (h : build file sequence assetOf e p ts = .ok built) :
    built.payload = { built.payload with file, line := p.line } := by
  -- the component in the place that it has is the same up to that place
  let s : Places := ⟨(file, file), p.line, assetOf, assetOf, True⟩
  have hself : Tree.PairedAll (Binding.Bindable s (fun _ _ => True)) ts ts :=
    Tree.pairedAll_self (fun _ _ => ⟨⟨rfl, fun _ _ _ => trivial⟩, fun _ _ => ⟨rfl, fun _ => rfl⟩⟩)
  have hbuild := parallel_build (rfl : sequence.salt = sequence.salt) hself e p (rfl : p.line = s.line)
  rw [h] at hbuild
  cases hbuild with
  | ok hbuilt => exact hbuilt.payload

lemma Built.Twin.script_eq (h : build file sequence assetOf e p ts = .ok built) {s : Places}
    {E : Diagnostic → Diagnostic → Prop} {built' : Built} (htwin : Built.Twin s E built built') (hsame : s.areSame)
    (hfile : s.files.2 = file) (hline : s.line = p.line) : built'.script = built.script := by
  obtain ⟨ds, ds', hds, hscript, hscript'⟩ := htwin.script
  rw [hscript, hscript', hds hsame, htwin.payload, hfile, hline, ← payload_of_build h]

/-- Components that differ in verbatim HTML of their templates only. -/
structure Built.Like (b b' : Built) : Prop where
  head : b.head = b'.head
  script : b.script = b'.script
  style : b.style = b'.style
  template : Tree.AllLike b.template b'.template

lemma build_like (file : String) (sequence : Sequence) (assetOf : String → Option String) (e : Element) (p : Position)
    (h : Tree.AllLike ts us) :
    Except.Alike Built.Like (build file sequence assetOf e p ts) (build file sequence assetOf e p us) := by
  let s : Places := ⟨(file, file), p.line, assetOf, assetOf, True⟩
  have hbindable : Tree.PairedAll (Binding.Bindable s (· = ·)) ts us := by
    refine (Tree.pairedAll_iff_allLike.2 h).mono (fun t _ u htu => ⟨⟨htu.1, ?_⟩, fun _ _ => ⟨rfl, fun _ => rfl⟩⟩)
    rintro d _ ⟨rfl, -, -⟩
    rw [htu.2]
  have hbuild := parallel_build (rfl : sequence.salt = sequence.salt) hbindable e p (rfl : p.line = s.line)
  cases hbuilt : build file sequence assetOf e p ts with
  | error d =>
    rw [hbuilt] at hbuild
    obtain ⟨d', heq, hd⟩ := hbuild.of_error
    rw [show build file sequence assetOf e p us = _ from heq]
    rcases hd with ⟨rfl, -, -⟩ | rfl
    · exact .error _
    · exact .error _
  | ok built =>
    rw [hbuilt] at hbuild
    obtain ⟨built', heq, htwin⟩ := hbuild.of_ok
    rw [show build file sequence assetOf e p us = _ from heq]
    refine .ok ⟨htwin.head.symm, (htwin.script_eq hbuilt trivial rfl rfl).symm, htwin.style.symm, ?_⟩
    refine Tree.pairedAll_iff_allLike.1 (htwin.template.mono (fun t _ u htu => ⟨htu.1, ?_⟩))
    have hplace := htu.2 Fault.componentName.toDiagnostic _ ⟨rfl, rfl, rfl⟩
    exact congrArg₂ Position.mk (congrArg Diagnostic.line hplace) (congrArg Diagnostic.column hplace)

end
end Component
end ReactiveTemplate
