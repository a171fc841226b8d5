import ReactiveTemplate.Proofs.Template.Artifacts
import ReactiveTemplate.Proofs.Template.Candidates
import ReactiveTemplate.Proofs.Template.Splitting
/-!
# Totality — a compiled page renders under every scope

What the built-in directives do when a page is rendered cannot fail, so every part that is put aside with them renders
under every scope, and every template cut out of HTML does (`total_node`).
-/
set_option linter.all false

namespace ReactiveTemplate
open List

open Markup (Tree Element)

/-! ## Parts and templates -/

def Compiled.IsTotal (k : Compiled) : Prop := ∀ scope, ∃ r, k.exec scope = .ok r

def Dynamic.IsTotal (d : Dynamic) : Prop := ∀ scope, ∃ part, d.exec scope = .ok part

lemma Dynamic.execAll_of_isTotal (scope : Json) : ∀ {ds : List Dynamic}, (∀ d ∈ ds, d.IsTotal) →
    ∃ parts, Dynamic.execAll scope ds = .ok parts
  | [], _ => ⟨[], rfl⟩
  | d :: ds, h => by
    obtain ⟨part, hpart⟩ := h d (.head _) scope
    obtain ⟨parts, hparts⟩ := execAll_of_isTotal scope (fun e he => h e (.tail _ he))
    exact ⟨part :: parts, by simp [Dynamic.execAll, hpart, hparts]⟩

lemma Compiled.isTotal_ofHtml (html : String) {ds : List Dynamic} (h : ∀ d ∈ ds, d.IsTotal) :
    (Compiled.ofHtml html ds).IsTotal := by
  intro scope
  have hsplit : ∀ d ∈ (split (ds.map some) 0 [] html.toList).2, d.IsTotal := by
    intro d hd
    obtain ⟨_, _, _, taken, hcut, heq⟩ := split_cut html.toList (ds.map some)
    rw [heq] at hd
    obtain ⟨e, he, hsome⟩ := mem_map.1 (hcut.mem_pending hd)
    exact Option.some.inj hsome ▸ h e he
  obtain ⟨parts, hparts⟩ := Dynamic.execAll_of_isTotal scope hsplit
  exact ⟨_, by simp [Compiled.ofHtml, Compiled.exec, hparts]; rfl⟩

lemma Dynamic.isTotal_nested {k : Compiled} (h : k.IsTotal) : (Dynamic.nested k).IsTotal := by
  intro scope
  obtain ⟨r, hr⟩ := h scope
  exact ⟨.nested r, by rw [Dynamic.exec, hr]⟩

/-! ## Directives at render time -/

def Methods.isBuiltIn (m : Methods) : Bool :=
  let isBuiltIn := fun a : Action => match a with
    | .steps _ => false
    | _ => true
  m.process.all isBuiltIn && m.leave.all isBuiltIn

lemma Dynamic.ok_of_mem_execSlots {scope : Json} : ∀ {slots : List (String × Compiled)},
    (∀ slot ∈ slots, slot.2.IsTotal) → ∀ slot ∈ Dynamic.execSlots scope slots, ∃ r, slot.2 = .ok r
  | [], _, slot, h => by
    cases h
  | (name, k) :: slots, hslots, slot, h => by
    rcases mem_cons.1 h with rfl | h
    · exact hslots (name, k) (.head _) scope
    · exact ok_of_mem_execSlots (fun slot hslot => hslots slot (.tail _ hslot)) slot h

lemma Frame.run_of_slots {scope : Json} {slots : List Slot} (hslots : ∀ slot ∈ slots, ∃ r, slot.2 = .ok r) {a : Action}
    (ha : ∀ items, a ≠ .steps items) (f : Frame) : ∃ f', Frame.run scope slots f a = .ok f' := by
  have hshow : ∃ f', f.showSlot slots defaultSlot = .ok f' := by
    rw [Frame.showSlot]
    cases hlookup : slots.lookup defaultSlot with
    | none => exact ⟨f, rfl⟩
    | some rendered =>
      obtain ⟨slot, hmem, heq⟩ : ∃ slot ∈ slots, slot.2 = rendered := by
        obtain ⟨before, after, rfl, -⟩ := lookup_eq_some_iff.1 hlookup
        exact ⟨(defaultSlot, rendered), by simp, rfl⟩
      obtain ⟨r, hr⟩ := hslots slot hmem
      rw [← heq, hr]
      exact ⟨_, rfl⟩
  cases a with
  | condition test =>
    rw [Frame.run]
    split
    · exact hshow
    · exact ⟨_, rfl⟩
  | interpolate name pieces => exact ⟨_, rfl⟩
  | steps items => exact absurd rfl (ha items)

lemma Dynamic.isTotal_directives (mode : BundleMode) (attributes : List Markup.Attribute) {methods : List Methods}
    {slots : List (String × Compiled)} (hmethods : ∀ m ∈ methods, m.isBuiltIn = true)
    (hslots : ∀ slot ∈ slots, slot.2.IsTotal) : (Dynamic.directives mode attributes methods slots).IsTotal := by
  intro scope
  have hactions : ∀ a ∈ Frame.actions methods, ∀ items, a ≠ .steps items := by
    intro a ha items heq
    subst heq
    have hone : ∀ m ∈ methods, m.process ≠ some (.steps items) ∧ m.leave ≠ some (.steps items) := by
      intro m hm
      have := hmethods m hm
      rw [Methods.isBuiltIn, Bool.and_eq_true] at this
      refine ⟨fun heq => ?_, fun heq => ?_⟩
      · rw [heq] at this
        exact absurd this.1 (by simp)
      · rw [heq] at this
        exact absurd this.2 (by simp)
    rcases mem_append.1 ha with ha | ha
    · obtain ⟨m, hm, heq⟩ := mem_filterMap.1 ha
      exact (hone m hm).1 heq
    · obtain ⟨m, hm, heq⟩ := mem_filterMap.1 ha
      exact (hone m (mem_reverse.1 hm)).2 heq
  have hrun : ∀ (acts : List Action) (f : Frame), (∀ a ∈ acts, ∀ items, a ≠ .steps items) →
      ∃ f', acts.foldlM (Frame.run scope (Dynamic.execSlots scope slots)) f = .ok f' := by
    intro acts
    induction acts with
    | nil => exact fun f _ => ⟨f, rfl⟩
    | cons a acts ih =>
      intro f hacts
      obtain ⟨f₁, hf₁⟩ := Frame.run_of_slots (Dynamic.ok_of_mem_execSlots hslots) (hacts a (.head _)) f
      obtain ⟨f', hf'⟩ := ih f₁ (fun b hb => hacts b (.tail _ hb))
      exact ⟨f', by rw [foldlM_cons, hf₁]; exact hf'⟩
  obtain ⟨f', hf'⟩ := hrun _ { attributes := attributes } hactions
  rw [Dynamic.exec, Frame.render, hf']
  cases mode with
  | replace => exact ⟨_, rfl⟩
  | attributes => exact ⟨_, rfl⟩

/-! ## Compiling -/

namespace Compile

/-- A compiler with the built-in directives all of whose parts render. -/
structure Renderable (c : Compiler) : Prop where
  registry : c.registry = Registry.standard
  dynamics : ∀ d ∈ c.dynamics, d.IsTotal

def Total {α : Type} (P : α → Prop) (step : Compile α) : Prop :=
  ∀ c a c', Gives step c a c' → Renderable c → Renderable c' ∧ P a

namespace Total

variable {α β : Type} {P : α → Prop} {Q : β → Prop}

lemma pure {a : α} (h : P a) : Total P (Pure.pure a) := by
  intro c a' c' hg hc
  obtain ⟨rfl, rfl⟩ := gives_pure hg
  exact ⟨hc, h⟩

lemma bind {step : Compile α} {next : α → Compile β} (h : Total P step) (hnext : ∀ a, P a → Total Q (next a)) :
    Total Q (step >>= next) := by
  intro c b c' hg hc
  obtain ⟨a, c₁, h1, h2⟩ := gives_bind hg
  obtain ⟨hc₁, ha⟩ := h c a c₁ h1 hc
  exact hnext a ha c₁ b c' h2 hc₁

lemma throw (d : Diagnostic) : Total P (MonadExcept.throw d : Compile α) := fun _ _ _ hg => nomatch hg

lemma orFault (result : Except Fault α) : Total (fun _ => True) (Compile.orFault result) := by
  cases result with
  | ok a => exact pure trivial
  | error fault => exact throw _

lemma located {step : Compile α} (h : Total P step) (position : Position) : Total P (located position step) :=
  fun c a c' hg hc => h c a c' (gives_located hg) hc

lemma mapM {f : α → Compile β} (h : ∀ a, Total (fun _ => True) (f a)) : ∀ as : List α,
    Total (fun _ => True) (as.mapM f)
  | [] => pure trivial
  | a :: as => by
    rw [mapM_cons]
    exact (h a).bind (fun b _ => (mapM h as).bind (fun bs _ => pure trivial))

lemma foldlM {f : β → α → Compile β} : ∀ {as : List α} {b : β}, (∀ b, ∀ a ∈ as, Q b → Total Q (f b a)) → Q b →
    Total Q (as.foldlM f b)
  | [], _, _, hb => pure hb
  | a :: as, b, h, hb => by
    exact (h b a (.head _) hb).bind (fun b' hb' =>
      foldlM (fun b a ha => h b a (.tail _ ha)) hb')

lemma pushDynamic {d : Dynamic} (h : d.IsTotal) : Total (fun _ => True) (Compile.pushDynamic d) := by
  intro c token c' hg hc
  obtain ⟨-, rfl⟩ := gives_pushDynamic hg
  refine ⟨⟨hc.registry, fun e he => ?_⟩, trivial⟩
  rcases mem_append.1 he with he | he
  · exact hc.dynamics e he
  · rw [mem_singleton.1 he]
    exact h

lemma scanText (s : String) : Total (fun _ => True) (Compile.scanText s) := by
  intro c pieces c' hg hc
  obtain ⟨-, rfl⟩ := gives_scanText hg
  exact ⟨⟨hc.registry, hc.dynamics⟩, trivial⟩

lemma text (position : Position) (s : String) : Total (fun _ => True) (Compile.text position s) := by
  refine (scanText s).bind (fun pieces _ => .bind (.located (.mapM (fun piece => ?_) pieces) position)
    (fun _ _ => pure trivial))
  cases piece with
  | literal literal => exact pure trivial
  | expression found =>
    refine (orFault _).bind (fun e _ => pushDynamic ?_)
    split
    · exact fun scope => ⟨_, rfl⟩
    · exact fun scope => ⟨_, rfl⟩

section

variable {compileNode : NodeCompiler}
  (hnode : ∀ limit isVerbatim t, Total (fun _ => True) (compileNode limit isVerbatim t))

include hnode

lemma children (t : Tree) : Total (fun _ => True) (Compile.children compileNode t) :=
  .bind (.mapM (fun u => hnode none _ u) t.children) (fun _ _ => pure trivial)

lemma isTotal_of_document {limit : Option Nat} {nodes : List Tree} {c c' : Compiler} {compiled : Compiled}
    (hr : c.registry = Registry.standard) (h : Gives (Compile.document compileNode limit nodes) c compiled c') :
    c'.registry = Registry.standard ∧ c'.dynamics = c.dynamics ∧ compiled.IsTotal := by
  obtain ⟨ts, c₁, hts, rfl, rfl⟩ := gives_document h
  obtain ⟨hc₁, -⟩ := Total.mapM (fun u => hnode limit false u) nodes _ ts c₁ hts ⟨hr, fun d hd => by cases hd⟩
  exact ⟨hc₁.registry, rfl, Compiled.isTotal_ofHtml _ hc₁.dynamics⟩

lemma document (limit : Option Nat) (nodes : List Tree) :
    Total Compiled.IsTotal (Compile.document compileNode limit nodes) := by
  intro c compiled c' hg hc
  obtain ⟨hr, hdynamics, htotal⟩ := isTotal_of_document hnode hc.registry hg
  exact ⟨⟨hr, hdynamics ▸ hc.dynamics⟩, htotal⟩

lemma nest (t : Tree) : Total (fun _ => True) (Compile.nest compileNode t) :=
  .bind (document hnode none t.children) (fun _ hk => .bind (pushDynamic (Dynamic.isTotal_nested hk))
    (fun _ _ => pure trivial))

lemma component (t : Tree) : Total (fun outcome => outcome.methods = none) (Compile.component compileNode t) := by
  cases helement : t.element? with
  | none =>
    rw [component_of_none helement]
    exact pure rfl
  | some e =>
    intro c outcome c' hg hc
    rw [Gives, component_apply helement] at hg
    split at hg
    · cases hg
    · rename_i built hbuilt
      have hnest : Total (fun outcome : Outcome => outcome.methods = none)
          (Compile.nest compileNode (.node (.element (built.host e)) t.position built.template) >>= fun t =>
            Pure.pure ⟨t, none⟩) :=
        .bind (nest hnode _) (fun _ _ => pure rfl)
      exact hnest _ outcome c' hg ⟨hc.registry, hc.dynamics⟩

structure BuiltIn (w : Work) : Prop where
  methods : ∀ m ∈ w.methods, m.isBuiltIn = true
  slots : ∀ slot ∈ w.slots, slot.2.IsTotal

omit hnode in
lemma condition (source : String) : Total (fun m => m.isBuiltIn = true) (Compile.condition source) :=
  .bind (orFault _) (fun _ _ => pure rfl)

omit hnode in
lemma directive_of_mem_select {limit : Option Nat} {e : Element} {k : Candidate}
    (h : k ∈ Candidate.select Registry.standard limit e) : k.directive = Directive.ifElement ∨
      k.directive = Directive.ifAttribute ∨ k.directive = Directive.component ∨ k.directive = Directive.interpolate := by
  rcases Candidate.directive_of_mem_select h with h | h
  · have hstandard : k.directive ∈ [Directive.ifElement, Directive.ifAttribute, Directive.component] := h
    simp only [mem_cons] at hstandard
    tauto
  · exact Or.inr (Or.inr (Or.inr h))

lemma apply {w : Work} (hw : BuiltIn w) {k : Candidate} (h : k.directive = Directive.ifElement ∨
    k.directive = Directive.ifAttribute ∨ k.directive = Directive.component ∨ k.directive = Directive.interpolate) :
    Total BuiltIn (Compile.apply compileNode w k) := by
  have hbehave : ∀ b, k.directive.behaviour = some b → Total (fun outcome : Outcome => ∀ m ∈ outcome.methods,
      m.isBuiltIn = true) (behave compileNode k.attr w.tree b) := by
    intro b hb
    cases b with
    | conditionElement =>
      exact (condition _).bind (fun m hm => pure (fun m' hm' => by cases hm'; exact hm))
    | conditionAttribute =>
      exact (condition _).bind (fun m hm => pure (fun m' hm' => by cases hm'; exact hm))
    | component =>
      intro c outcome c' hg hc
      obtain ⟨hc', hnone⟩ := component hnode w.tree c outcome c' hg hc
      refine ⟨hc', fun m hm => ?_⟩
      rw [hnone] at hm
      cases hm
    | interpolation =>
      cases k.attr with
      | none => exact pure (fun m hm => by cases hm)
      | some a =>
        refine (scanText _).bind (fun pieces _ => .bind (.mapM (fun piece => ?_) pieces)
          (fun values _ => pure (fun m hm => by cases hm; rfl)))
        cases piece with
        | literal literal => exact pure trivial
        | expression found => exact (orFault _).bind (fun _ _ => pure trivial)
    | custom label items => rcases h with h | h | h | h <;> rw [h] at hb <;> cases hb
  have hmethods : k.directive.methods.isBuiltIn = true := by
    rcases h with h | h | h | h <;> rw [h] <;> rfl
  have htransclude : ∀ w : Work, BuiltIn w → Total BuiltIn (transclude compileNode k.directive w) := by
    intro w hw
    have hplace : ∀ compiled : Compiled, compiled.IsTotal → ∀ slots : List (String × Compiled),
        (∀ slot ∈ slots, slot.2.IsTotal) → ∀ slot ∈ placeSlot defaultSlot compiled slots, slot.2.IsTotal := by
      intro compiled hcompiled slots
      induction slots with
      | nil =>
        intro _ slot hslot
        rw [placeSlot, mem_singleton] at hslot
        rw [hslot]
        exact hcompiled
      | cons entry slots ih =>
        intro hslots slot hslot
        rw [placeSlot] at hslot
        split at hslot
        · rcases mem_cons.1 hslot with rfl | hslot
          · exact hcompiled
          · exact hslots slot (.tail _ hslot)
        · rcases mem_cons.1 hslot with rfl | hslot
          · exact hslots _ (.head _)
          · exact ih (fun slot hslot => hslots slot (.tail _ hslot)) slot hslot
    unfold transclude
    split
    · exact pure hw
    · exact (document hnode _ _).bind (fun compiled hcompiled => pure ⟨hw.methods, hplace compiled hcompiled _ hw.slots⟩)
    · exact (document hnode _ _).bind (fun compiled hcompiled => pure ⟨hw.methods, hplace compiled hcompiled _ hw.slots⟩)
    · rename_i entries hslots
      rcases h with h | h | h | h <;> rw [h] at hslots <;> cases hslots
  refine (Total.located ?_ w.tree.position).bind
    (fun outcome (houtcome : ∀ m ∈ outcome.methods, m.isBuiltIn = true) => ?_)
  · cases hb : k.directive.behaviour with
    | some b => exact hbehave b hb
    | none => exact pure (fun m hm => by cases hm)
  have hrun : BuiltIn { w with
      tree := outcome.tree
      methods := if (outcome.methods.getD k.directive.methods).isEmpty then w.methods
        else w.methods ++ [outcome.methods.getD k.directive.methods] } := by
    refine ⟨fun m hm => ?_, hw.slots⟩
    split at hm
    · exact hw.methods m hm
    · rcases mem_append.1 hm with hm | hm
      · exact hw.methods m hm
      · rw [mem_singleton.1 hm]
        cases hmethods' : outcome.methods with
        | none => exact hmethods
        | some m' => exact houtcome m' hmethods'
  exact (htransclude _ hrun).bind (fun w' hw' => pure ⟨hw'.methods, hw'.slots⟩)

omit hnode in
lemma settle {w : Work} (hw : BuiltIn w) : Total (fun _ => True) (Compile.settle w) := by
  unfold Compile.settle
  split
  · exact (pushDynamic (Dynamic.isTotal_directives _ _ hw.methods hw.slots)).bind (fun _ _ => pure trivial)
  · split
    · exact pure trivial
    · exact (pushDynamic (Dynamic.isTotal_directives _ _ hw.methods hw.slots)).bind (fun _ _ => pure trivial)

lemma element (limit : Option Nat) (t : Tree) (e : Element) :
    Total (fun _ => True) (Compile.element compileNode limit t e) := by
  intro c u c' hg hc
  obtain ⟨c₀, c₁, h1, h2⟩ := gives_bind hg
  obtain ⟨rfl, rfl⟩ := gives_get h1
  rw [hc.registry] at h2
  have hstart : BuiltIn { tree := t } := ⟨fun m hm => (by cases hm), fun slot hslot => (by cases hslot)⟩
  have hrest : Total (fun _ => True) ((Candidate.select Registry.standard limit e).foldlM (Compile.apply compileNode)
      { tree := t } >>= fun w => Compile.settle w >>= fun settled =>
        if w.isTranscluded || w.isTerminal then Pure.pure settled else Compile.children compileNode settled) := by
    refine (foldlM (fun w k hk hw => apply hnode hw (directive_of_mem_select hk)) hstart).bind (fun w hw => ?_)
    refine (settle hw).bind (fun settled _ => ?_)
    split
    · exact pure trivial
    · exact children hnode settled
  exact hrest c₁ u c' h2 hc

end
end Total

lemma total_node : ∀ (fuel : Nat) (limit : Option Nat) (isVerbatim : Bool) (t : Tree),
    Total (fun _ => True) (node fuel limit isVerbatim t)
  | 0, _, _, t => .pure trivial
  | fuel + 1, limit, isVerbatim, t => by
    have ih := total_node fuel
    show Total (fun _ => True) (nodeWith (node fuel) limit isVerbatim t)
    unfold nodeWith
    split
    · exact .element ih limit t _
    · split
      · exact .text _ _
      · exact .pure trivial
    · exact .children ih t
    · exact .pure trivial

end Compile
end ReactiveTemplate
