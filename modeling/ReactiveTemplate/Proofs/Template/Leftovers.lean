import ReactiveTemplate.Proofs.Characters
import ReactiveTemplate.Proofs.Component.Parallel
import ReactiveTemplate.Proofs.Interpolation.Cutting
import ReactiveTemplate.Proofs.Template.Artifacts
import ReactiveTemplate.Proofs.Template.Candidates
/-!
# Leftovers — what a failed compilation leaves to the next one

Two compilers are alike if they differ only in the identifiers drawn and in what they have put aside.
-/
set_option linter.all false

namespace ReactiveTemplate
open List

open Markup (Tree Element)

variable {c : Compiler}

/-! ## Registries -/

def Behaviour.drawsNothing : Behaviour → Bool
  | .custom _ items => items.all (fun item => match item with
    | .hash _ => false
    | _ => true)
  | _ => true

def Registry.drawsNothing (r : Registry) : Bool :=
  r.directives.all (fun d => d.behaviour.all Behaviour.drawsNothing)

lemma Candidate.drawsNothing_of_mem_select {r : Registry} (hr : r.drawsNothing = true) {limit : Option Nat}
    {e : Element} {k : Candidate} (h : k ∈ select r limit e) :
    k.directive.behaviour.all Behaviour.drawsNothing = true := by
  rcases directive_of_mem_select h with hmem | heq
  · exact all_eq_true.1 hr _ hmem
  · rw [heq]
    rfl

namespace Compile

/-! ## Compilers that do alike -/

/-- Compilers with one registry and one salt that differ in the identifiers they have drawn, and in the parts that they
have put aside. -/
structure Alike (r : Registry) (salt : String) (c c' : Compiler) : Prop where
  registry : c.registry = r
  registry' : c'.registry = r
  salt_eq : c.sequence.salt = salt
  salt_eq' : c'.sequence.salt = salt
  options : c.options = c'.options
  components : c.components = c'.components
  assets : c.assets = c'.assets
  parts : c.dynamics.length = c'.dynamics.length

def Outcomes {α : Type} (r : Registry) (salt : String) (R : α → α → Prop) (x y : Except Diagnostic α × Compiler) : Prop :=
  Except.Alike R x.1 y.1 ∧ Alike r salt x.2 y.2

/-- Two steps that only draw more identifiers, and do alike on alike compilers as long as they draw no more than
`count`. -/
structure Agree {α : Type} (r : Registry) (salt : String) (count : Nat) (R : α → α → Prop) (step step' : Compile α) :
    Prop where
  draws : Steady step
  draws' : Steady step'
  outcomes : ∀ c c', Alike r salt c c' → (step c).2.sequence.counter ≤ count → (step' c').2.sequence.counter ≤ count →
    Outcomes r salt R (step c) (step' c')

variable {r : Registry} {salt : String} {count : Nat}

lemma Alike.symm {c' : Compiler} (h : Alike r salt c c') : Alike r salt c' c :=
  ⟨h.registry', h.registry, h.salt_eq', h.salt_eq, h.options.symm, h.components.symm, h.assets.symm, h.parts.symm⟩

instance {α : Type} : Std.Refl (fun _ _ : α => True) := ⟨fun _ => trivial⟩

instance {α : Type} {R : α → α → Prop} [Std.Refl R] : Std.Refl (List.Forall₂ R) := ⟨forall₂_refl⟩

instance : Std.Refl Tree.Like := ⟨fun _ => rfl⟩

instance : Std.Refl Tree.AllLike := ⟨fun _ => rfl⟩

instance : Std.Refl (fun m m' : Methods => m.isEmpty = m'.isEmpty) := ⟨fun _ => rfl⟩

namespace Agree

variable {α β : Type} {R : α → α → Prop} {S : β → β → Prop}

lemma pure {a a' : α} (h : R a a') : Agree r salt count R (Pure.pure a) (Pure.pure a') :=
  ⟨.pure _, .pure _, fun _ _ hc _ _ => ⟨.ok h, hc⟩⟩

lemma throw (d : Diagnostic) : Agree r salt count R (MonadExcept.throw d) (MonadExcept.throw d) :=
  ⟨steady.throw d, steady.throw d, fun _ _ hc _ _ => ⟨.error d, hc⟩⟩

lemma orFault (result : Except Fault α) : Agree r salt count (· = ·) (Compile.orFault result) (Compile.orFault result) := by
  cases result with
  | ok a => exact pure rfl
  | error fault => exact throw _

lemma get_bind {next next' : Compiler → Compile β} (hsteady : Steady (get >>= next)) (hsteady' : Steady (get >>= next'))
    (h : ∀ c c', Alike r salt c c' → Agree r salt count S (next c) (next' c')) :
    Agree r salt count S (get >>= next) (get >>= next') :=
  ⟨hsteady, hsteady', fun c c' hc => (h c c' hc).outcomes c c' hc⟩

lemma located {step step' : Compile α} (h : Agree r salt count R step step') (position : Position) :
    Agree r salt count R (located position step) (located position step') := by
  refine ⟨steady.located position h.draws, steady.located position h.draws', fun c c' hc hcount hcount' => ?_⟩
  obtain ⟨hresult, hstate⟩ := h.outcomes c c' hc hcount hcount'
  refine ⟨?_, hstate⟩
  show Except.Alike R ((step c).1.mapError _) ((step' c').1.mapError _)
  rw [← hc.options]
  exact hresult.mapError _

lemma bind [Std.Refl R] {step step' : Compile α} {next next' : α → Compile β} (h : Agree r salt count R step step')
    (hnext : ∀ a a', R a a' → Agree r salt count S (next a) (next' a')) :
    Agree r salt count S (step >>= next) (step' >>= next') := by
  have hself := fun a => hnext a a (Std.Refl.refl a)
  refine ⟨steady.bind h.draws (fun a => (hself a).draws), steady.bind h.draws' (fun a => (hself a).draws'), ?_⟩
  intro c c' hc hcount hcount'
  have hstep := h.outcomes c c' hc
  rw [bind_apply] at hcount hcount' ⊢
  rw [bind_apply]
  rcases hx : step c with ⟨result, k⟩
  rcases hy : step' c' with ⟨result', k'⟩
  rw [hx] at hcount hstep
  rw [hy] at hcount' hstep
  -- what is drawn later on is drawn behind what the first steps draw
  have hk : k.sequence.counter ≤ count := by
    cases result with
    | ok a => exact Nat.le_trans ((hself a).draws k).counter hcount
    | error d => exact hcount
  have hk' : k'.sequence.counter ≤ count := by
    cases result' with
    | ok a => exact Nat.le_trans ((hself a).draws' k').counter hcount'
    | error d => exact hcount'
  obtain ⟨hresult, hstate⟩ := hstep hk hk'
  cases hresult with
  | error d => exact ⟨.error d, hstate⟩
  | ok ha => exact (hnext _ _ ha).outcomes k k' hstate hcount hcount'

lemma map [Std.Refl R] {step step' : Compile α} (h : Agree r salt count R step step') {g g' : α → β}
    (hg : ∀ a a', R a a' → S (g a) (g' a')) :
    Agree r salt count S (step >>= fun a => Pure.pure (g a)) (step' >>= fun a => Pure.pure (g' a)) :=
  h.bind (fun a a' ha => pure (hg a a' ha))

lemma mono [Std.Refl R] {R' : α → α → Prop} {step step' : Compile α} (h : Agree r salt count R step step')
    (hR : ∀ a a', R a a' → R' a a') : Agree r salt count R' step step' := by
  rw [← bind_pure step, ← bind_pure step']
  exact h.map hR

lemma mapM [Std.Refl S] {f f' : α → Compile β} (h : ∀ a a', R a a' → Agree r salt count S (f a) (f' a')) {as as' : List α}
    (hlist : List.Forall₂ R as as') : Agree r salt count (List.Forall₂ S) (as.mapM f) (as'.mapM f') := by
  induction hlist with
  | nil => exact pure .nil
  | cons ha _ ih =>
    rw [mapM_cons, mapM_cons]
    exact (h _ _ ha).bind (fun b b' hb => ih.map (fun bs bs' hbs => .cons hb hbs))

lemma foldlM [Std.Refl S] {f : β → α → Compile β} : ∀ {l : List α},
    (∀ a ∈ l, ∀ b b', S b b' → Agree r salt count S (f b a) (f b' a)) → ∀ {b b' : β}, S b b' →
    Agree r salt count S (l.foldlM f b) (l.foldlM f b')
  | [], _, _, _, hb => pure hb
  | a :: l, h, b, b', hb => by
    rw [foldlM_cons, foldlM_cons]
    exact (h a (.head _) b b' hb).bind (fun b₁ b₁' hb₁ => foldlM (fun x hx => h x (.tail _ hx)) hb₁)

end Agree

/-! ## Texts -/

lemma agree_pushDynamic (d d' : Dynamic) : Agree r salt count (· = ·) (pushDynamic d) (pushDynamic d') := by
  refine ⟨steady.pushDynamic d, steady.pushDynamic d', fun c c' hc _ _ => ?_⟩
  have hlength : (c.dynamics ++ [d]).length = (c'.dynamics ++ [d']).length := by
    rw [length_append, length_append, hc.parts]
    rfl
  exact ⟨.ok (congrArg dynamicToken hc.parts), { hc with parts := hlength }⟩

def SameInterpolations (pieces pieces' : List Piece) : Prop :=
  pieces.filterMap Piece.interpolation? = pieces'.filterMap Piece.interpolation?

instance : Std.Refl SameInterpolations := ⟨fun _ => rfl⟩

lemma agree_scanText (hdistinct : Sequence.IsDistinct salt count) (s : String) :
    Agree r salt count SameInterpolations (scanText s) (scanText s) := by
  refine ⟨steady.scanText s, steady.scanText s, fun c c' hc hcount hcount' => ⟨.ok ?_, { hc with
    salt_eq := (salt_scan s c.sequence).trans hc.salt_eq
    salt_eq' := (salt_scan s c'.sequence).trans hc.salt_eq' }⟩⟩
  show (scan s c.sequence).1.parts.filterMap _ = (scan s c'.sequence).1.parts.filterMap _
  rw [interpolations_parts (hc.salt_eq ▸ hdistinct) hcount, interpolations_parts (hc.salt_eq' ▸ hdistinct) hcount']

section

variable {β : Type} {f : Piece → Compile β}

lemma agree_literal_left {literal : String} {pieces : List Piece} {b : β} (hf : f (.literal literal) = pure b)
    {step : Compile (List β)} (h : Agree r salt count (fun _ _ => True) (pieces.mapM f) step) :
    Agree r salt count (fun _ _ => True) ((Piece.literal literal :: pieces).mapM f) step := by
  rw [mapM_cons, hf, pure_bind, ← bind_pure step]
  exact h.map (fun _ _ _ => trivial)

lemma Agree.symm {α : Type} {step step' : Compile α}
    (h : Agree r salt count (fun _ _ => True) step step') : Agree r salt count (fun _ _ => True) step' step := by
  refine ⟨h.draws', h.draws, fun c c' hc hcount hcount' => ?_⟩
  obtain ⟨hresult, hk⟩ := h.outcomes c' c hc.symm hcount' hcount
  exact ⟨hresult.symm, hk.symm⟩

lemma agree_pieces (hliteral : ∀ literal, ∃ b, f (.literal literal) = pure b)
    (hexpression : ∀ found found' : Interpolation, found.expression = found'.expression → found.isSafe = found'.isSafe →
      Agree r salt count (fun _ _ => True) (f (.expression found)) (f (.expression found'))) :
    ∀ pieces pieces' : List Piece, SameInterpolations pieces pieces' →
      Agree r salt count (fun _ _ => True) (pieces.mapM f) (pieces'.mapM f)
  | .literal literal :: pieces, pieces', h => by
    obtain ⟨b, hb⟩ := hliteral literal
    exact agree_literal_left hb (agree_pieces hliteral hexpression pieces pieces' h)
  | pieces, .literal literal :: pieces', h => by
    obtain ⟨b, hb⟩ := hliteral literal
    have ih := agree_pieces hliteral hexpression pieces pieces' h
    exact (agree_literal_left hb ih.symm).symm
  | [], [], _ => .pure trivial
  | [], .expression _ :: _, h => by cases h
  | .expression _ :: _, [], h => by cases h
  | .expression found :: pieces, .expression found' :: pieces', h => by
    obtain ⟨hhead, htail⟩ := cons.inj h
    obtain ⟨hexpr, hsafe⟩ := Prod.mk.inj hhead
    rw [mapM_cons, mapM_cons]
    exact (hexpression found found' hexpr hsafe).bind (fun _ _ _ =>
      (agree_pieces hliteral hexpression pieces pieces' htail).map (fun _ _ _ => trivial))
termination_by pieces pieces' => pieces.length + pieces'.length

end

lemma agree_text (hdistinct : Sequence.IsDistinct salt count) (position : Position) (s : String) :
    Agree r salt count Tree.Like (text position s) (text position s) := by
  refine (agree_scanText hdistinct s).bind (fun pieces pieces' hpieces => ?_)
  have htexts : Agree r salt count (fun _ _ => True) (pieces.mapM textPiece) (pieces'.mapM textPiece) := by
    refine agree_pieces (f := textPiece) (fun literal => ⟨_, rfl⟩) (fun found found' hexpr hsafe => ?_) _ _ hpieces
    rw [textPiece, textPiece, hexpr, hsafe]
    exact (Agree.orFault _).bind (fun e e' _ => (agree_pushDynamic _ _).mono (fun _ _ _ => trivial))
  refine (htexts.located position).map (fun texts texts' _ => ?_)
  simp [Tree.Like, Tree.leaf, Tree.bare, Markup.Kind.bare]

/-! ## Directives -/

section

variable {compileNode : NodeCompiler} (hnode : ∀ limit isVerbatim t u, Tree.Like t u →
  Agree r salt count Tree.Like (compileNode limit isVerbatim t) (compileNode limit isVerbatim u))

include hnode

lemma agree_mapM_node (limit : Option Nat) (isVerbatim : Bool) {ts us : List Tree} (h : Tree.AllLike ts us) :
    Agree r salt count Tree.AllLike (ts.mapM (compileNode limit isVerbatim)) (us.mapM (compileNode limit isVerbatim)) :=
  (Agree.mapM (hnode limit isVerbatim) (Tree.allLike_iff_forall₂.1 h)).mono (fun _ _ => Tree.allLike_iff_forall₂.2)

variable {t u : Tree} {w w' : Work}

lemma agree_children (h : Tree.Like t u) :
    Agree r salt count Tree.Like (children compileNode t) (children compileNode u) := by
  rw [children, children, h.isVerbatim_eq]
  exact (agree_mapM_node hnode none _ h.children).map (fun ts us hts => h.withChildren hts)

lemma agree_document (limit : Option Nat) {ts us : List Tree} (h : Tree.AllLike ts us) :
    Agree r salt count (fun _ _ => True) (document compileNode limit ts) (document compileNode limit us) := by
  have hnodes := agree_mapM_node hnode limit false h
  refine ⟨steady.document hnodes.draws, steady.document hnodes.draws', fun c c' hc hcount hcount' => ?_⟩
  have hempty : Alike r salt { c with dynamics := [] } { c' with dynamics := [] } := { hc with parts := rfl }
  obtain ⟨hresult, hk⟩ := hnodes.outcomes _ _ hempty hcount hcount'
  refine ⟨?_, { hk with parts := hc.parts }⟩
  show Except.Alike _ (Except.map _ (ts.mapM (compileNode limit false) { c with dynamics := [] }).1)
    (Except.map _ (us.mapM (compileNode limit false) { c' with dynamics := [] }).1)
  exact hresult.map (fun _ _ _ => trivial)

lemma agree_nest (h : Tree.Like t u) : Agree r salt count Tree.Like (nest compileNode t) (nest compileNode u) := by
  refine (agree_document hnode none h.children).bind (fun _ _ _ => ?_)
  refine (agree_pushDynamic _ _).map (fun token token' _ => ?_)
  refine h.withChildren ?_
  simp [Tree.AllLike, Tree.leaf, Tree.bare, Markup.Kind.bare, h.position_eq]

/-- What a directive leaves of its element: alike elements, and methods in both cases or in neither. -/
structure Outcome.Like (o o' : Outcome) : Prop where
  tree : Tree.Like o.tree o'.tree
  methods : o.methods.map Methods.isEmpty = o'.methods.map Methods.isEmpty

instance : Std.Refl Outcome.Like := ⟨fun _ => ⟨rfl, rfl⟩⟩

lemma agree_steps : ∀ (items : List CompileStep), (Behaviour.custom "" items).drawsNothing = true →
    ∀ {t u : Tree}, Tree.Like t u →
      Agree r salt count Outcome.Like (steps compileNode t items) (steps compileNode u items)
  | [], _, _, _, h => .pure ⟨h, rfl⟩
  | .set _ _ :: rest, hdraws, _, _, h => agree_steps rest hdraws (h.mapElement _)
  | .remove _ :: rest, hdraws, _, _, h => agree_steps rest hdraws (h.mapElement _)
  | .addClass _ :: rest, hdraws, _, _, h => agree_steps rest hdraws (h.mapElement _)
  | .appendText s :: rest, hdraws, t, u, h => by
    refine agree_steps rest hdraws (h.withChildren ?_)
    rw [Tree.AllLike, Tree.bare_appendText, Tree.bare_appendText, h.children, h.position_eq]
  | .hash _ :: _, hdraws, _, _, _ => by cases hdraws
  | .file name :: rest, hdraws, _, _, h =>
    have hsteady := steady.steps (fun limit isVerbatim t => (hnode limit isVerbatim t t rfl).draws) (.file name :: rest)
    .get_bind (hsteady _) (hsteady _) (fun c c' hc => by
      rw [hc.options]
      exact agree_steps rest hdraws (h.mapElement _))
  | .children :: rest, hdraws, _, _, h => (agree_children hnode h).bind (fun _ _ ht => agree_steps rest hdraws ht)
  | .nest :: rest, hdraws, _, _, h => (agree_nest hnode h).bind (fun _ _ ht => agree_steps rest hdraws ht)
  | .fail _ _ :: _, _, _, _, _ => .throw _
  | .methods _ _ :: _, _, _, _, h => .pure ⟨h, rfl⟩

lemma agree_component (h : Tree.Like t u) :
    Agree r salt count Outcome.Like (component compileNode t) (component compileNode u) := by
  cases helement : t.element? with
  | none =>
    rw [component_of_none helement, component_of_none (h.element?_eq ▸ helement)]
    exact .pure ⟨h, rfl⟩
  | some e =>
    have hsteady := steady.component (fun limit isVerbatim t => (hnode limit isVerbatim t t rfl).draws)
    refine ⟨hsteady t, hsteady u, fun c c' hc hcount hcount' => ?_⟩
    have hassetOf : c.assetOf = c'.assetOf := by
      funext tag
      rw [Compiler.assetOf, Compiler.assetOf, hc.components]
    have hbuild := Component.build_like c.options.file c.sequence c.assetOf e t.position h.children
    rw [Component.build_of_salt (hc.salt_eq.trans hc.salt_eq'.symm) _ _ _ _ u.children, hassetOf] at hbuild
    rw [component_apply helement, hassetOf] at hcount ⊢
    rw [component_apply (h.element?_eq ▸ helement), ← hc.options, ← h.position_eq] at hcount' ⊢
    revert hbuild hcount hcount'
    generalize Component.build c.options.file c.sequence c'.assetOf e t.position t.children = x
    generalize Component.build c.options.file c'.sequence c'.assetOf e t.position u.children = y
    intro hcount hcount' hbuild
    cases hbuild with
    | error d => exact ⟨.error d, hc⟩
    | @ok built built' hbuilt =>
      have houtput : built.output = built'.output := by
        rw [Component.Built.output, Component.Built.output, hbuilt.head, hbuilt.script, hbuilt.style]
      have hassets : built.assets = built'.assets := by
        rw [Component.Built.assets, Component.Built.assets, hbuilt.script, hbuilt.style]
      have hhost : built.host e = built'.host e := by
        rw [Component.Built.host, Component.Built.host, hbuilt.head]
      have hregister : Alike r salt (c.register built.output built.assets) (c'.register built'.output built'.assets) := by
        refine { hc with components := ?_, assets := ?_ }
        · simp only [Compiler.register, hc.components, houtput]
        · simp only [Compiler.register, hc.assets, hassets]
      have htree : Tree.Like (.node (.element (built.host e)) t.position built.template)
          (.node (.element (built'.host e)) t.position built'.template) := by
        rw [Tree.Like, Tree.bare, Tree.bare, hhost, hbuilt.template]
      exact ((agree_nest hnode htree).map (fun _ _ ht => ⟨ht, rfl⟩)).outcomes _ _ hregister hcount hcount'

omit hnode in
lemma agree_condition (source : String) :
    Agree r salt count (fun m m' => m.isEmpty = m'.isEmpty) (condition source) (condition source) :=
  (Agree.orFault _).map (fun _ _ _ => rfl)

lemma agree_behave (hdistinct : Sequence.IsDistinct salt count) (a : Option Markup.Attribute)
    (h : Tree.Like t u) {b : Behaviour} (hdraws : b.drawsNothing = true) :
    Agree r salt count Outcome.Like (behave compileNode a t b) (behave compileNode a u b) := by
  cases b with
  | conditionElement =>
    rw [behave, behave, h.element?_eq]
    exact (agree_condition _).map (fun m m' hm => ⟨h, congrArg some hm⟩)
  | conditionAttribute =>
    exact (agree_condition _).map (fun m m' hm => ⟨h.mapElement _, congrArg some hm⟩)
  | component => exact agree_component hnode h
  | interpolation =>
    cases a with
    | none => exact .pure ⟨h, rfl⟩
    | some a =>
      refine (agree_scanText hdistinct a.value).bind (fun pieces pieces' hpieces => ?_)
      have hvalues : Agree r salt count (fun _ _ => True) (pieces.mapM valuePiece) (pieces'.mapM valuePiece) := by
        refine agree_pieces (f := valuePiece) (fun literal => ⟨_, rfl⟩) (fun found found' hexpr _ => ?_) _ _ hpieces
        rw [valuePiece, valuePiece, hexpr]
        exact (Agree.orFault _).map (fun _ _ _ => trivial)
      exact hvalues.map (fun _ _ _ => ⟨h, rfl⟩)
  | custom label items =>
    have hnote : ∀ entry, Steady (modify (fun c => { c with log := c.log ++ [entry] })) :=
      fun entry c => .of_eq rfl rfl rfl (Nat.le_refl _) rfl rfl
    exact Agree.bind (R := fun _ _ => True) ⟨hnote _, hnote _, fun c c' hc _ _ => ⟨.ok trivial, { hc with }⟩⟩
      (fun _ _ _ => agree_steps hnode items hdraws h)

/-! ## Elements -/

structure Work.Like (w w' : Work) : Prop where
  tree : Tree.Like w.tree w'.tree
  methods : w.methods.isEmpty = w'.methods.isEmpty
  isTranscluded : w.isTranscluded = w'.isTranscluded
  isTerminal : w.isTerminal = w'.isTerminal

instance : Std.Refl Work.Like := ⟨fun _ => ⟨rfl, rfl, rfl, rfl⟩⟩

lemma agree_takeSlot (h : w.Like w') (entry : String × String) :
    Agree r salt count Work.Like (takeSlot compileNode w entry) (takeSlot compileNode w' entry) := by
  have hchosen : ∀ p : Tree → Bool, (∀ t, p t.bare = p t) →
      Tree.AllLike (w.tree.children.filter p) (w'.tree.children.filter p) := fun p hp => h.tree.children.filter hp
  simp only [takeSlot, partition_eq_filter_filter]
  refine (agree_document hnode none (hchosen _ (fun t => by rw [Tree.tag?_bare]))).map (fun _ _ _ => { h with tree := ?_ })
  exact h.tree.withChildren (hchosen _ (fun t => by simp only [Function.comp_apply, Tree.tag?_bare]))

lemma agree_transclude (d : Directive) (h : w.Like w') :
    Agree r salt count Work.Like (transclude compileNode d w) (transclude compileNode d w') := by
  have hnil : Tree.AllLike [] [] := rfl
  unfold transclude
  split
  · exact .pure h
  · exact (agree_document hnode none h.tree.children).map
      (fun _ _ _ => ⟨h.tree.withChildren hnil, h.methods, rfl, h.isTerminal⟩)
  · have hself : Tree.AllLike [w.tree] [w'.tree] := congrArg (fun t => [t]) h.tree
    exact (agree_document hnode _ hself).map
      (fun _ _ _ => ⟨h.tree, h.methods, rfl, h.isTerminal⟩)
  · refine (Agree.foldlM (fun entry _ w w' hw => agree_takeSlot hnode hw entry) h).bind (fun w w' hw => ?_)
    exact (agree_document hnode none hw.tree.children).map
      (fun _ _ _ => ⟨hw.tree.withChildren hnil, hw.methods, rfl, hw.isTerminal⟩)

lemma agree_apply (hdistinct : Sequence.IsDistinct salt count) {k : Candidate}
    (hdraws : k.directive.behaviour.all Behaviour.drawsNothing = true) (h : w.Like w') :
    Agree r salt count Work.Like (apply compileNode w k) (apply compileNode w' k) := by
  rw [apply, apply, h.tree.position_eq]
  refine (Agree.located ?_ w'.tree.position).bind (fun o o' (ho : Outcome.Like o o') => ?_)
  · cases hb : k.directive.behaviour with
    | none => exact .pure ⟨h.tree, rfl⟩
    | some b =>
      rw [hb] at hdraws
      exact agree_behave hnode hdistinct k.attr h.tree hdraws
  have hmethod : (o.methods.getD k.directive.methods).isEmpty = (o'.methods.getD k.directive.methods).isEmpty := by
    have := congrArg (fun m => m.getD k.directive.methods.isEmpty) ho.methods
    simpa only [Option.getD_map] using this
  have hmethods : (if (o.methods.getD k.directive.methods).isEmpty then w.methods
        else w.methods ++ [o.methods.getD k.directive.methods]).isEmpty =
      (if (o'.methods.getD k.directive.methods).isEmpty then w'.methods
        else w'.methods ++ [o'.methods.getD k.directive.methods]).isEmpty := by
    rw [hmethod]
    cases (o'.methods.getD k.directive.methods).isEmpty with
    | true => exact h.methods
    | false => exact (isEmpty_eq_false_iff.2 (by simp)).trans (isEmpty_eq_false_iff.2 (by simp)).symm
  have hwork : Work.Like { w with tree := o.tree, methods := _ } { w' with tree := o'.tree, methods := _ } :=
    ⟨ho.tree, hmethods, h.isTranscluded, h.isTerminal⟩
  exact (agree_transclude hnode k.directive hwork).map
    (fun w₁ w₁' hw => { hw with isTerminal := by rw [hw.isTerminal] })

omit hnode in
lemma agree_settle (h : w.Like w') : Agree r salt count Tree.Like (settle w) (settle w') := by
  rw [settle, settle, h.isTranscluded, h.methods]
  split
  · refine (agree_pushDynamic _ _).map (fun token token' _ => ?_)
    simp [Tree.Like, Tree.leaf, Tree.bare, Markup.Kind.bare, h.tree.position_eq]
  · split
    · exact .pure h.tree
    · refine (agree_pushDynamic _ _).map (fun token token' htoken => ?_)
      subst htoken
      exact h.tree.mapElement _

lemma agree_element (hdistinct : Sequence.IsDistinct salt count) (hr : r.drawsNothing = true) (limit : Option Nat)
    (h : Tree.Like t u) (e : Element) :
    Agree r salt count Tree.Like (element compileNode limit t e) (element compileNode limit u e) := by
  have hsteady := fun t => steady.element (fun limit isVerbatim t => (hnode limit isVerbatim t t rfl).draws) limit t e
  refine .get_bind (hsteady t) (hsteady u) (fun c c' hc => ?_)
  rw [hc.registry, hc.registry']
  have hstart : Work.Like { tree := t } { tree := u } := ⟨h, rfl, rfl, rfl⟩
  refine (Agree.foldlM (l := Candidate.select r limit e) (f := apply compileNode) (fun k hk w w' hw =>
    agree_apply hnode hdistinct (Candidate.drawsNothing_of_mem_select hr hk) hw) hstart).bind (fun w w' hw => ?_)
  rw [hw.isTranscluded, hw.isTerminal]
  refine (agree_settle hw).bind (fun settled settled' hsettled => ?_)
  split
  · exact .pure hsettled
  · exact agree_children hnode hsettled

end

lemma agree_node (hdistinct : Sequence.IsDistinct salt count) (hr : r.drawsNothing = true) : ∀ (fuel : Nat)
    (limit : Option Nat) (isVerbatim : Bool) (t u : Tree), Tree.Like t u →
    Agree r salt count Tree.Like (node fuel limit isVerbatim t) (node fuel limit isVerbatim u)
  | 0, _, _, _, _, h => .pure h
  | fuel + 1, limit, isVerbatim, .node kind position children, .node kind' position' children', h => by
    have ih := agree_node hdistinct hr fuel
    have hkind : kind.bare = kind'.bare := h.kind_eq
    have hposition : position = position' := h.position_eq
    subst hposition
    cases kind with
    | element e =>
      cases kind' <;> cases hkind
      exact agree_element ih hdistinct hr limit h e
    | text s =>
      cases kind' <;> cases hkind
      show Agree r salt count Tree.Like (if !isVerbatim && Interpolation.hasMarkers s then text position s else pure _)
        (if !isVerbatim && Interpolation.hasMarkers s then text position s else pure _)
      split
      · exact agree_text hdistinct position s
      · exact .pure h
    | document =>
      cases kind' <;> cases hkind
      exact agree_children ih h
    | comment s =>
      cases kind' <;> cases hkind
      exact .pure h
    | doctype s =>
      cases kind' <;> cases hkind
      exact .pure h
    | raw s =>
      cases kind' <;> cases hkind
      exact .pure h

end Compile

/-! ## Pages -/

namespace Compiler

open Compile

def SameArtifacts (o o' : CompileOutput) : Prop := o.components = o'.components ∧ o.assets = o'.assets

lemma compile_alike {r : Registry} {salt : String} {count : Nat} (hr : r.drawsNothing = true)
    (hdistinct : Sequence.IsDistinct salt count) {c' : Compiler} (h : Alike r salt c c') (source : String)
    (hcount : (c.compile source).2.sequence.counter ≤ count) (hcount' : (c'.compile source).2.sequence.counter ≤ count) :
    Except.Alike SameArtifacts (c.compile source).1 (c'.compile source).1 := by
  rw [compile_eq] at hcount hcount' ⊢
  rw [compile_eq, ← h.options]
  rw [← h.options] at hcount'
  cases hparse : Markup.Document.parse source c.options.file with
  | error d => exact .error d
  | ok d =>
    rw [hparse] at hcount hcount'
    have hagree : Agree r salt count (fun _ _ => True) (template none (nodesOf d)) (template none (nodesOf d)) := by
      refine .get_bind (steady_template none _) (steady_template none _) (fun c c' hc => ?_)
      rw [hc.registry, hc.registry']
      exact agree_document (agree_node hdistinct hr _) none rfl
    simp only [sequence_finish] at hcount hcount' ⊢
    obtain ⟨hresult, hstate⟩ := hagree.outcomes c c' h hcount hcount'
    revert hresult
    generalize (template none (nodesOf d) c).1 = result
    generalize (template none (nodesOf d) c').1 = result'
    intro hresult
    cases hresult with
    | error fault => exact .error fault
    | ok =>
      rw [finish, finish, ← hstate.assets]
      cases Asset.resolve (template none (nodesOf d) c).2.assets with
      | error fault => exact .error _
      | ok assets => exact .ok ⟨hstate.components, rfl⟩

def withPending (c left : Compiler) : Compiler := { c with components := left.components, assets := left.assets }

lemma left_by_failure {source : String} {d : Diagnostic} (h : (c.compile source).1 = .error d) :
    (∃ built : List Component.Built,
      (∀ b ∈ built, ∃ assetOf e position children,
        Component.build c.options.file c.sequence assetOf e position children = .ok b) ∧
      (c.compile source).2.components = placeAll built c.components ∧
      ((c.compile source).2.assets = c.assets ++ built.flatMap (·.assets) ∨ (c.compile source).2.assets = [])) ∧
    Alike c.registry c.sequence.salt (c.compile source).2 (c.withPending (c.compile source).2) := by
  have hsame : Alike c.registry c.sequence.salt c (c.withPending c) := ⟨rfl, rfl, rfl, rfl, rfl, rfl, rfl, rfl⟩
  rw [compile_eq] at h ⊢
  cases hparse : Markup.Document.parse source c.options.file with
  | error d => exact ⟨⟨[], fun _ hb => (not_mem_nil hb).elim, rfl, Or.inl (append_nil _).symm⟩, hsame⟩
  | ok doc =>
    rw [hparse] at h
    simp only at h ⊢
    have hsteady := steady_template none (nodesOf doc) c
    have hparts : (template none (nodesOf doc) c).2.dynamics = c.dynamics := rfl
    generalize (template none (nodesOf doc) c).2 = k at h hsteady hparts ⊢
    obtain ⟨built, hbuilt, hcomponents, hassets⟩ := hsteady.artifacts
    have hlength : k.dynamics.length = c.dynamics.length := congrArg length hparts
    cases hresult : (template none (nodesOf doc) c).1 with
    | error d =>
      exact ⟨⟨built, hbuilt, hcomponents, Or.inl hassets⟩, hsteady.registry, rfl, hsteady.salt, rfl, hsteady.options, rfl,
        rfl, hlength⟩
    | ok compiled =>
      rw [hresult, finish] at h
      rw [finish]
      cases hresolve : Asset.resolve k.assets with
      | ok assets =>
        rw [hresolve] at h
        cases h
      | error fault =>
        exact ⟨⟨built, hbuilt, hcomponents, Or.inr rfl⟩, hsteady.registry, rfl, hsteady.salt, rfl, hsteady.options, rfl,
          rfl, hlength⟩

lemma components_of_compile {source : String} {out : CompileOutput}
    (h : (c.compile source).1 = .ok out) : ∃ built, out.components = placeAll built c.components := by
  rw [compile_eq] at h
  split at h
  · cases h
  · rename_i doc hparse
    obtain ⟨built, -, hcomponents, -⟩ := (steady_template none (nodesOf doc) c).artifacts
    refine ⟨built, ?_⟩
    rw [← hcomponents]
    simp only [finish] at h
    split at h
    · cases h
    · split at h
      · cases h
      · cases h
        rfl

/-- **A failed compilation bears on the next one only by what it leaves.**  It leaves the components that it built before
it failed; the next page is what it would be on a compiler that has just these pending, and they come out with it.  Where
nothing new is pending, the next page has the components and assets, or the fault, that it would have had without the
failed compilation. -/
theorem compile_after_failure {c : Compiler} {failed source : String} {d : Diagnostic} {count : Nat}
    (hfailed : (c.compile failed).1 = .error d) (hregistry : c.registry.drawsNothing = true)
    (hdistinct : Sequence.IsDistinct c.sequence.salt count)
    (hcount : ((c.compile failed).2.compile source).2.sequence.counter ≤ count)
    (hcount' : ((c.withPending (c.compile failed).2).compile source).2.sequence.counter ≤ count) :
    (∃ built : List Component.Built,
      (∀ b ∈ built, ∃ assetOf e position children,
        Component.build c.options.file c.sequence assetOf e position children = .ok b) ∧
      (c.compile failed).2.components = placeAll built c.components ∧
      ((c.compile failed).2.assets = c.assets ++ built.flatMap (·.assets) ∨ (c.compile failed).2.assets = [])) ∧
    (∀ out, ((c.compile failed).2.compile source).1 = .ok out →
      ∃ built, out.components = placeAll built (c.compile failed).2.components) ∧
    Except.Alike SameArtifacts ((c.compile failed).2.compile source).1
      ((c.withPending (c.compile failed).2).compile source).1 ∧
    ((c.compile failed).2.components = c.components → (c.compile failed).2.assets = c.assets →
      Except.Alike SameArtifacts ((c.compile failed).2.compile source).1 (c.compile source).1) := by
  obtain ⟨hleft, halike⟩ := left_by_failure hfailed
  have hnext := compile_alike hregistry hdistinct halike source hcount hcount'
  refine ⟨hleft, fun out hout => components_of_compile hout, hnext, fun hcomponents hassets => ?_⟩
  have hsame : c.withPending (c.compile failed).2 = c := by
    rw [withPending, hcomponents, hassets]
  rwa [hsame] at hnext

def halted : String := "$\x7ba = 1\x7d"

def following : String := "<component name=\"c\">$\x7bb\x7d</component>$\x7bb\x7d"

/-- A page that fails before it has a component leaves nothing. -/
theorem compile_after_halted : ∃ d, ((new Registry.standard {}).compile halted).1 = .error d ∧
    (((new Registry.standard {}).compile halted).2.compile following).1.toOption.any
      (fun o => o.components.map (·.name) == ["c"]) = true ∧
    Except.Alike SameArtifacts (((new Registry.standard {}).compile halted).2.compile following).1
      ((new Registry.standard {}).compile following).1 := by
  -- one run of the two pages for all that is asked of them
  have hrun : ((new Registry.standard {}).compile halted).1.toOption.isNone = true ∧
      ((new Registry.standard {}).compile halted).2.components.isEmpty = true ∧
      ((new Registry.standard {}).compile halted).2.assets.isEmpty = true ∧
      (((new Registry.standard {}).compile halted).2.compile following).2.sequence.counter ≤ 4 ∧
      (((new Registry.standard {}).compile halted).2.compile following).1.toOption.any
        (fun o => o.components.map (·.name) == ["c"]) = true ∧
      ((new Registry.standard {}).compile following).2.sequence.counter ≤ 4 := by
    simp only [compile_eq, Markup.Document.parse_eq_ofChars halted String.toList_ofList,
      Markup.Document.parse_eq_ofChars following String.toList_ofList]
    decide +kernel
  obtain ⟨herror, hcomponents, hassets, hcount, hnamed, hcount'⟩ := hrun
  cases hfailed : ((new Registry.standard {}).compile halted).1 with
  | ok out =>
    rw [hfailed] at herror
    cases herror
  | error d =>
    have hregistry : (new Registry.standard {}).registry.drawsNothing = true := by decide
    have hdistinct : Sequence.IsDistinct (new Registry.standard {}).sequence.salt 4 := by decide +kernel
    have hcomponents : ((new Registry.standard {}).compile halted).2.components = (new Registry.standard {}).components :=
      List.isEmpty_iff.1 hcomponents
    have hassets : ((new Registry.standard {}).compile halted).2.assets = (new Registry.standard {}).assets :=
      List.isEmpty_iff.1 hassets
    have hpending : (new Registry.standard {}).withPending ((new Registry.standard {}).compile halted).2 =
        new Registry.standard {} := by
      rw [withPending, hcomponents, hassets]
    exact ⟨d, rfl, hnamed,
      (compile_after_failure hfailed hregistry hdistinct hcount (hpending.symm ▸ hcount')).2.2.2 hcomponents hassets⟩

def haltedLate : String := "<component name=\"a\"></component>$\x7ba = 1\x7d"

/-- A component of a failed page comes out with the next page, which has none. -/
theorem compile_after_haltedLate : ((new Registry.standard {}).compile haltedLate).1.toOption.isNone = true ∧
    ((new Registry.standard {}).compile "x").1.toOption.map (fun o => (o.components.map (·.name), o.assets.length)) =
      some ([], 0) ∧
    (((new Registry.standard {}).compile haltedLate).2.compile "x").1.toOption.map
      (fun o => (o.components.map (·.name), o.assets.length)) = some (["a"], 1) := by
  rw [compile_eq _ haltedLate, Markup.Document.parse_eq_ofChars haltedLate String.toList_ofList]
  decide +kernel

end Compiler
end ReactiveTemplate
