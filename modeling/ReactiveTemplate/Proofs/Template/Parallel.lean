import ReactiveTemplate.Proofs.Component.Parallel
import ReactiveTemplate.Proofs.Template.Descent
/-!
# Parallel — one page in two runs

Two runs over trees of the same nodes, from compilers that have drawn the same identifiers, go side by side, wherever
the nodes stand, and fail at the same node or not at all (`Compile.parallel_node`).
-/
set_option linter.all false

namespace ReactiveTemplate
open List

open Markup (Tree Element)
open Diagnostic (Unplaced Covers Placed)
open Component (Raised)

variable {e : Element} {t u : Tree} {w w' : Compile.Work}

lemma Component.plain_of_build {file : String} {sequence : Sequence} {assetOf : String → Option String}
    {p : Position} {ts : List Tree} {built : Built} (h : build file sequence assetOf e p ts = .ok built) :
    ∀ t ∈ Tree.preorderAll built.template, t.tag? ≠ some "component" := by
  intro t ht htag
  obtain ⟨u, hu, htu⟩ := Tree.mem_preorderAll.1 ht
  have hhosts := (within_of_build h).2 u hu
  rw [Tree.hosts, any_eq_false] at hhosts
  exact hhosts t htu (by simpa using htag)

namespace Compile

/-- What is true of the compilers of two runs, whatever they have put aside. -/
structure Lockstep where
  files : String × String
  Rel : Compiler → Compiler → Prop
  registry {c c' : Compiler} : Rel c c' → c.registry = Registry.standard ∧ c'.registry = Registry.standard
  files_eq {c c' : Compiler} : Rel c c' → (c.options.file, c'.options.file) = files
  sequence {c c' : Compiler} : Rel c c' → c'.sequence = c.sequence
  draw {c c' : Compiler} (sequence : Sequence) : Rel c c' → Rel { c with sequence } { c' with sequence }
  put {c c' : Compiler} (dynamics dynamics' : List Dynamic) :
    Rel c c' → Rel { c with dynamics } { c' with dynamics := dynamics' }

/-- It stays true when both runs register a component that they have built. -/
structure Lockstep.Registers (l : Lockstep) : Prop where
  known {c c' : Compiler} (tag : String) : l.Rel c c' → (c.assetOf tag).isSome = (c'.assetOf tag).isSome
  register {c c' : Compiler} {e : Element} {p : Position} {ts : List Tree} {b b' : Component.Built} : l.Rel c c' →
    Component.build c.options.file c.sequence c.assetOf e p ts = .ok b → b'.head = b.head →
      l.Rel (c.register b.output b.assets) (c'.register b'.output b'.assets)

def Parallel {α β : Type} (l : Lockstep) (E : Diagnostic → Diagnostic → Prop) (R : α → β → Prop) (step : Compile α)
    (step' : Compile β) : Prop :=
  ∀ c c', l.Rel c c' → Except.Rel E R (step c).1 (step' c').1 ∧ l.Rel (step c).2 (step' c').2

/-- Nodes that differ in verbatim HTML only; what fails at them or, if they are components, in them is in `E`. -/
def Compilable (l : Lockstep) (E : Diagnostic → Diagnostic → Prop) (t u : Tree) : Prop :=
  Placed l.files E t u ∧ (t.tag? = some "component" → l.Registers ∧ ∃ E',
    Tree.PairedAll (Placed l.files E') t.children u.children ∧ Covers l.files (Raised E') E t.position u.position)

variable {l : Lockstep} {E : Diagnostic → Diagnostic → Prop}

namespace Parallel

variable {α β γ δ : Type} {R : α → β → Prop} {T : γ → δ → Prop} {step : Compile α} {step' : Compile β}

lemma pure {a : α} {b : β} (h : R a b) : Parallel l E R (Pure.pure a) (Pure.pure b) := fun _ _ hc => ⟨.ok h, hc⟩

lemma bind {next : α → Compile γ} {next' : β → Compile δ} (h : Parallel l E R step step')
    (hnext : ∀ a b, R a b → Parallel l E T (next a) (next' b)) : Parallel l E T (step >>= next) (step' >>= next') := by
  intro c c' hc
  have hstep := h c c' hc
  rw [bind_apply, bind_apply]
  revert hstep
  rcases step c with ⟨result, k⟩
  rcases step' c' with ⟨result', k'⟩
  rintro ⟨hresult, hstate⟩
  cases hresult with
  | error hd => exact ⟨.error hd, hstate⟩
  | ok hab => exact hnext _ _ hab k k' hstate

lemma get_bind {next : Compiler → Compile α} {next' : Compiler → Compile β}
    (h : ∀ k k', l.Rel k k' → Parallel l E R (next k) (next' k')) : Parallel l E R (get >>= next) (get >>= next') :=
  fun c c' hc => h c c' hc c c' hc

lemma orFault {x : Except Fault α} (h : Fault.InTemplate x) : Parallel l Unplaced (· = ·) (orFault x) (orFault x) := by
  cases x with
  | ok a => exact pure rfl
  | error fault => exact fun _ _ hc => ⟨.error ⟨rfl, rfl, h fault rfl⟩, hc⟩

lemma located {E' : Diagnostic → Diagnostic → Prop} {p p' : Position}
    (hcovers : Covers l.files E' E p p') (h : Parallel l E' R step step') :
    Parallel l E R (located p step) (located p' step') := by
  intro c c' hc
  obtain ⟨hresult, hstate⟩ := h c c' hc
  refine ⟨?_, hstate⟩
  rw [← l.files_eq hc] at hcovers
  exact hresult.mapError hcovers

lemma mapM {f : α → Compile γ} {g : β → Compile δ} {as : List α} {bs : List β}
    (h : List.Forall₂ (fun a b => Parallel l E (fun _ _ => True) (f a) (g b)) as bs) :
    Parallel l E (fun _ _ => True) (as.mapM f) (bs.mapM g) := by
  induction h with
  | nil => exact pure trivial
  | cons h _ ih =>
    rw [mapM_cons, mapM_cons]
    exact h.bind (fun _ _ _ => ih.bind (fun _ _ _ => pure trivial))

lemma foldlM {f : γ → α → Compile γ} {g : δ → α → Compile δ} : ∀ {as : List α},
    (∀ a ∈ as, ∀ x y, T x y → Parallel l E T (f x a) (g y a)) → ∀ {x : γ} {y : δ}, T x y →
      Parallel l E T (as.foldlM f x) (as.foldlM g y)
  | [], _, _, _, hxy => pure hxy
  | a :: as, h, x, y, hxy => by
    exact (h a (.head _) x y hxy).bind
      (fun x' y' hxy' => foldlM (fun b hb => h b (mem_cons_of_mem a hb)) hxy')

end Parallel

/-! ## Texts and templates -/

lemma parallel_pushDynamic (d d' : Dynamic) :
    Parallel l E (fun _ _ => True) (pushDynamic d) (pushDynamic d') := fun _ _ hc => ⟨.ok trivial, l.put _ _ hc⟩

lemma parallel_scanText (s : String) : Parallel l E (· = ·) (scanText s) (scanText s) := by
  intro c c' hc
  have hsequence := l.sequence hc
  refine ⟨.ok ?_, ?_⟩
  · rw [hsequence]
  · show l.Rel { c with sequence := (scan s c.sequence).2 } { c' with sequence := (scan s c'.sequence).2 }
    rw [hsequence]
    exact l.draw _ hc

lemma parallel_text {p p' : Position} (hcovers : Covers l.files Unplaced E p p') (s : String) :
    Parallel l E (fun _ _ => True) (text p s) (text p' s) := by
  refine (parallel_scanText s).bind (fun pieces _ heq => ?_)
  subst heq
  refine (Parallel.located hcovers (.mapM (forall₂_same.2 (fun piece _ => ?_)))).bind
    (fun _ _ _ => .pure trivial)
  cases piece with
  | literal s => exact .pure trivial
  | expression found => exact (Parallel.orFault (inTemplate_eval _)).bind (fun _ _ _ => parallel_pushDynamic _ _)

section

variable {compileNode : NodeCompiler} (hnode : ∀ E limit isVerbatim t u, Tree.Paired (Compilable l E) t u →
  (limit = none ∨ t.tag? ≠ some "component") →
    Parallel l E (fun _ _ => True) (compileNode limit isVerbatim t) (compileNode limit isVerbatim u))

include hnode

lemma parallel_children (hverbatim : t.kind.isVerbatim = u.kind.isVerbatim)
    (h : Tree.PairedAll (Compilable l E) t.children u.children) :
    Parallel l E (fun _ _ => True) (children compileNode t) (children compileNode u) := by
  rw [children, hverbatim]
  refine Parallel.bind (.mapM ?_) (fun _ _ _ => .pure trivial)
  exact (Tree.pairedAll_iff_forall₂.1 h).imp (fun t u htu => hnode E none _ t u htu (.inl rfl))

lemma parallel_document {limit : Option Nat} {ts us : List Tree} (h : Tree.PairedAll (Compilable l E) ts us)
    (hlimit : limit = none ∨ ∀ t ∈ ts, t.tag? ≠ some "component") :
    Parallel l E (fun _ _ => True) (document compileNode limit ts) (document compileNode limit us) := by
  intro c c' hc
  have hnodes : List.Forall₂ (fun t u => Parallel l E (fun _ _ => True) (compileNode limit false t)
      (compileNode limit false u)) ts us := by
    rw [Tree.pairedAll_iff_forall₂, forall₂_iff_zip] at h
    refine forall₂_iff_zip.2 ⟨h.1, fun {t u} htu => ?_⟩
    exact hnode E limit false t u (h.2 htu) (hlimit.imp id (fun hts => hts t (of_mem_zip htu).1))
  obtain ⟨hresult, hstate⟩ := Parallel.mapM hnodes _ _ (l.put [] [] hc)
  refine ⟨?_, l.put _ _ hstate⟩
  exact hresult.map (fun _ _ _ => trivial)

/-! ## Elements -/

lemma parallel_component (helement : t.element? = some e) (helement' : u.element? = some e)
    (hregisters : l.Registers) (h : Tree.PairedAll (Placed l.files E) t.children u.children) :
    Parallel l (Raised E) (fun _ _ => True) (component compileNode t) (component compileNode u) := by
  intro c c' hc
  let s : Component.Places := ⟨(c.options.file, c'.options.file), u.position.line, c.assetOf, c'.assetOf, False⟩
  have hbindable : Tree.PairedAll (Component.Binding.Bindable s E) t.children u.children := by
    rw [← l.files_eq hc] at h
    exact h.mono (fun _ _ _ htu => ⟨htu, fun tag _ => ⟨hregisters.known tag hc, False.elim⟩⟩)
  have hbuild := Component.parallel_build (congrArg Sequence.salt (l.sequence hc)) hbindable e t.position
    (rfl : u.position.line = s.line)
  rw [component_apply helement, component_apply helement']
  cases hbuilt : Component.build c.options.file c.sequence c.assetOf e t.position t.children with
  | error d =>
    rw [hbuilt] at hbuild
    obtain ⟨d', hbuilt', hd⟩ := hbuild.of_error
    rw [show Component.build c'.options.file _ _ _ _ _ = _ from hbuilt']
    exact ⟨.error hd, hc⟩
  | ok built =>
    rw [hbuilt] at hbuild
    obtain ⟨built', hbuilt', htwin⟩ := hbuild.of_ok
    rw [show Component.build c'.options.file _ _ _ _ _ = _ from hbuilt']
    have hregister := hregisters.register hc hbuilt htwin.head
    have htemplate : Tree.PairedAll (Compilable l (Raised E)) built.template built'.template := by
      have hplaced : Tree.PairedAll (Placed l.files E) built.template built'.template := l.files_eq hc ▸ htwin.template
      exact hplaced.mono (fun v hv w hvw => ⟨⟨hvw.1, fun d d' hd => .inr (hvw.2 d d' hd)⟩,
        fun htag => absurd htag (Component.plain_of_build hbuilt v hv)⟩)
    have hnest : Parallel l (Raised E) (fun _ _ => True)
        (nest compileNode (.node (.element (built.host e)) t.position built.template))
        (nest compileNode (.node (.element (built'.host e)) u.position built'.template)) :=
      (parallel_document hnode htemplate (.inl rfl)).bind (fun _ _ _ =>
        (parallel_pushDynamic _ _).bind (fun _ _ _ => .pure trivial))
    exact hnest.bind (fun _ _ _ => .pure trivial) _ _ hregister

/-- Elements, other than components, on which directives have run. -/
structure Work.Twin (l : Lockstep) (E : Diagnostic → Diagnostic → Prop) (w w' : Work) : Prop where
  kind : w.tree.kind.bare = w'.tree.kind.bare
  covers : Covers l.files Unplaced E w.tree.position w'.tree.position
  plain : w.tree.tag? ≠ some "component"
  below : Tree.PairedAll (Compilable l E) w.tree.children w'.tree.children
  isTranscluded : w.isTranscluded = w'.isTranscluded
  isTerminal : w.isTerminal = w'.isTerminal

omit hnode in
lemma Work.Twin.remove (h : Work.Twin l E w w') (name : String) (methods methods' : List Methods) :
    Work.Twin l E { w with tree := w.tree.mapElement (fun e => e.remove name), methods }
      { w' with tree := w'.tree.mapElement (fun e => e.remove name), methods := methods' } := by
  obtain ⟨⟨kind, p, ts⟩, ms, slots, transcluded, terminal⟩ := w
  obtain ⟨⟨kind', p', us⟩, ms', slots', transcluded', terminal'⟩ := w'
  obtain ⟨hkind, hcovers, hplain, hbelow, htranscluded, hterminal⟩ := h
  cases kind <;> cases kind' <;> cases hkind <;> exact ⟨rfl, hcovers, hplain, hbelow, htranscluded, hterminal⟩

lemma parallel_transclude (h : Work.Twin l E w w') {d : Directive}
    (hd : d = .ifElement ∨ d = .ifAttribute ∨ d = .interpolate) :
    Parallel l E (Work.Twin l E) (transclude compileNode d w) (transclude compileNode d w') := by
  rcases hd with rfl | rfl | rfl
  · exact (parallel_document hnode h.below (.inl rfl)).bind
      (fun _ _ _ => .pure ⟨h.kind, h.covers, h.plain, trivial, rfl, h.isTerminal⟩)
  · have hself : Tree.PairedAll (Compilable l E) [w.tree] [w'.tree] :=
      ⟨Tree.paired_iff.2 ⟨⟨⟨h.kind, h.covers⟩, fun htag => absurd htag h.plain⟩, h.below⟩, trivial⟩
    exact (parallel_document hnode hself (.inr (forall_mem_singleton.2 h.plain))).bind
      (fun _ _ _ => .pure ⟨h.kind, h.covers, h.plain, h.below, rfl, h.isTerminal⟩)
  · exact .pure h

lemma parallel_apply (h : Work.Twin l E w w') {k : Candidate}
    (hk : k.directive = .ifElement ∨ k.directive = .ifAttribute ∨ k.directive = .interpolate) :
    Parallel l E (Work.Twin l E) (apply compileNode w k) (apply compileNode w' k) := by
  have helement : w.tree.element? = w'.tree.element? :=
    Diagnostic.Placed.element?_eq (⟨h.kind, h.covers⟩ : Placed l.files E w.tree w'.tree)
  have hsame : ∀ methods methods',
      Work.Twin l E { w with tree := w.tree, methods } { w' with tree := w'.tree, methods := methods' } :=
    fun _ _ => ⟨h.kind, h.covers, h.plain, h.below, h.isTranscluded, h.isTerminal⟩
  have hcondition : ∀ source, Parallel l Unplaced (fun _ _ => True) (condition source) (condition source) := fun source =>
    (Parallel.orFault (inTemplate_eval source)).bind (fun _ _ _ => .pure trivial)
  refine (Parallel.located h.covers ?_).bind (fun o o' (ho : ∀ methods methods',
    Work.Twin l E { w with tree := o.tree, methods } { w' with tree := o'.tree, methods := methods' }) => ?_)
  · rcases hk with hk | hk | hk <;> rw [hk]
    · show Parallel l Unplaced _ (behave compileNode k.attr w.tree .conditionElement)
        (behave compileNode k.attr w'.tree .conditionElement)
      rw [behave, helement]
      exact (hcondition _).bind (fun _ _ _ => .pure hsame)
    · exact (hcondition _).bind (fun _ _ _ => .pure (h.remove "if"))
    · cases k.attr with
      | none => exact .pure hsame
      | some a =>
        refine (parallel_scanText a.value).bind (fun pieces _ heq => ?_)
        subst heq
        refine (Parallel.mapM (forall₂_same.2 (fun piece _ => ?_))).bind (fun _ _ _ => .pure hsame)
        cases piece with
        | literal s => exact .pure trivial
        | expression found => exact (Parallel.orFault (inTemplate_eval _)).bind (fun _ _ _ => .pure trivial)
  refine (parallel_transclude hnode (ho _ _) hk).bind (fun w₁ w₁' hw => .pure ?_)
  exact ⟨hw.kind, hw.covers, hw.plain, hw.below, hw.isTranscluded, by rw [hw.isTerminal]⟩

omit hnode in
lemma settle_apply (w : Work) (c : Compiler) : ∃ settled dynamics, settle w c = (.ok settled, { c with dynamics }) ∧
    (w.isTranscluded = false →
      settled.children = w.tree.children ∧ settled.kind.isVerbatim = w.tree.kind.isVerbatim) := by
  unfold settle
  cases w.isTranscluded with
  | true => exact ⟨_, _, rfl, nofun⟩
  | false =>
    cases w.methods.isEmpty with
    | true => exact ⟨_, _, rfl, fun _ => ⟨rfl, rfl⟩⟩
    | false =>
      refine ⟨_, _, rfl, fun _ => ?_⟩
      rcases w.tree with ⟨kind, position, below⟩
      cases kind <;> exact ⟨rfl, rfl⟩

lemma parallel_rest (htranscluded : w.isTranscluded = w'.isTranscluded)
    (hterminal : w.isTerminal = w'.isTerminal)
    (h : w.isTerminal = true ∨ w.tree.kind.bare = w'.tree.kind.bare ∧
      Tree.PairedAll (Compilable l E) w.tree.children w'.tree.children) :
    Parallel l E (fun _ _ => True)
      (do let settled ← settle w
          if w.isTranscluded || w.isTerminal then return settled else children compileNode settled)
      (do let settled ← settle w'
          if w'.isTranscluded || w'.isTerminal then return settled else children compileNode settled) := by
  intro c c' hc
  obtain ⟨settled, dynamics, hsettle, hsettled⟩ := settle_apply w c
  obtain ⟨settled', dynamics', hsettle', hsettled'⟩ := settle_apply w' c'
  rw [bind_apply, bind_apply, hsettle, hsettle', ← htranscluded, ← hterminal]
  have hput := l.put dynamics dynamics' hc
  cases hw : w.isTranscluded || w.isTerminal with
  | true => exact ⟨.ok trivial, hput⟩
  | false =>
    obtain ⟨htranscluded₁, hterminal₁⟩ := Bool.or_eq_false_iff.1 hw
    obtain ⟨hchildren, hverbatim⟩ := hsettled htranscluded₁
    obtain ⟨hchildren', hverbatim'⟩ := hsettled' (htranscluded ▸ htranscluded₁)
    obtain ⟨hkind, hbelow⟩ := h.resolve_left (by rw [hterminal₁]; exact Bool.false_ne_true)
    refine parallel_children hnode ?_ ?_ _ _ hput
    · rw [hverbatim, hverbatim', ← Markup.Kind.isVerbatim_bare, hkind, Markup.Kind.isVerbatim_bare]
    · rw [hchildren, hchildren']
      exact hbelow

lemma parallel_element (helement : t.element? = some e)
    (h : Tree.Paired (Compilable l E) t u) {limit : Option Nat}
    (hlimit : limit = none ∨ t.tag? ≠ some "component") :
    Parallel l E (fun _ _ => True) (element compileNode limit t e) (element compileNode limit u e) := by
  have htag : t.tag? = some e.tag := by rw [Tree.tag?, Markup.Kind.tag?, ← Tree.element?, helement]; rfl
  refine Parallel.get_bind (fun c c' hc => ?_)
  rw [(l.registry hc).1, (l.registry hc).2]
  by_cases hcomponent : e.tag = "component"
  · rw [hcomponent] at htag
    obtain ⟨hregisters, E', hbelow, hcovers⟩ := h.here.2 htag
    rw [hlimit.resolve_right (fun hne => hne htag), Candidate.select_component hcomponent]
    have happly : Parallel l E (fun w w' => w.isTranscluded = false ∧ w'.isTranscluded = false ∧ w.isTerminal = true ∧
          w'.isTerminal = true) (apply compileNode { tree := t } ⟨Directive.component, none⟩)
        (apply compileNode { tree := u } ⟨Directive.component, none⟩) :=
      ((parallel_component hnode helement (h.here.1.element?_eq ▸ helement) hregisters hbelow).located hcovers).bind
        (fun _ _ _ => .pure ⟨rfl, rfl, rfl, rfl⟩)
    refine (happly.bind (fun w w' hw => .pure hw)).bind (fun w w' hw => ?_)
    obtain ⟨h₁, h₂, h₃, h₄⟩ := hw
    exact parallel_rest hnode (h₁.trans h₂.symm) (h₃.trans h₄.symm) (.inl h₃)
  · have hplain : t.tag? ≠ some "component" := fun heq => hcomponent (Option.some.inj (htag.symm.trans heq))
    have hstart : Work.Twin l E { tree := t } { tree := u } :=
      ⟨h.here.1.1, h.here.1.2, hplain, h.below, rfl, rfl⟩
    have hdirective : ∀ k ∈ Candidate.select Registry.standard limit e,
        k.directive = .ifElement ∨ k.directive = .ifAttribute ∨ k.directive = .interpolate := by
      intro k hk
      rcases Candidate.directive_of_mem_select hk with hmem | hinterpolate
      · have hmem : k.directive ∈ [Directive.ifElement, Directive.ifAttribute, Directive.component] := hmem
        rw [mem_cons, mem_cons, mem_singleton] at hmem
        refine hmem.imp id (Or.imp id (fun heq => absurd ?_ hcomponent))
        exact Candidate.tag_of_mem_select Registry.buildsComponents_standard hk (by rw [heq]; rfl)
      · exact .inr (.inr hinterpolate)
    have happly : ∀ k ∈ Candidate.select Registry.standard limit e, ∀ w w', Work.Twin l E w w' →
        Parallel l E (Work.Twin l E) (apply compileNode w k) (apply compileNode w' k) :=
      fun k hk w w' hw => parallel_apply hnode hw (hdirective k hk)
    exact (Parallel.foldlM happly hstart).bind
      (fun w w' hw => parallel_rest hnode hw.isTranscluded hw.isTerminal (.inr ⟨hw.kind, hw.below⟩))

end

lemma parallel_node : ∀ (fuel : Nat) (E : Diagnostic → Diagnostic → Prop)
    (limit : Option Nat) (isVerbatim : Bool) (t u : Tree), Tree.Paired (Compilable l E) t u →
    (limit = none ∨ t.tag? ≠ some "component") →
      Parallel l E (fun _ _ => True) (node fuel limit isVerbatim t) (node fuel limit isVerbatim u)
  | 0, _, _, _, _, _, _, _ => .pure trivial
  | fuel + 1, E, limit, isVerbatim, .node kind p ts, .node kind' p' us, h, hlimit => by
    have ih := parallel_node fuel
    have hkind : kind.bare = kind'.bare := h.here.1.1
    cases kind with
    | element e =>
      cases kind' <;> cases hkind
      exact parallel_element ih rfl h hlimit
    | text s =>
      cases kind' <;> cases hkind
      show Parallel l E _ (if !isVerbatim && Interpolation.hasMarkers s then text p s else pure _)
        (if !isVerbatim && Interpolation.hasMarkers s then text p' s else pure _)
      split
      · exact parallel_text h.here.1.2 s
      · exact .pure trivial
    | document =>
      cases kind' <;> cases hkind
      exact parallel_children ih rfl h.below
    | _ =>
      cases kind' <;> cases hkind
      exact .pure trivial

end Compile
end ReactiveTemplate
