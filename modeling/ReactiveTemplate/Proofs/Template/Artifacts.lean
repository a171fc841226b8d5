import ReactiveTemplate.Proofs.Component.Dependencies
import ReactiveTemplate.Proofs.Interpolation.Placeholders
import ReactiveTemplate.Proofs.Template.Closure
import ReactiveTemplate.Proofs.Template.Steps
/-!
# Artifacts — what compiling leaves with a compiler

Whether it fails or not, a step of compiling leaves a compiler that has drawn further identifiers and registered the
components built meanwhile (`Advances`), and nothing else that outlasts a template (`steady_node`).
-/
set_option linter.all false

namespace ReactiveTemplate
open List

/-! ## Sequences -/

namespace Interpolation

lemma salt_place : ∀ (a : List Segment) (s : Sequence), (place a s).2.2.salt = s.salt
  | [], _ => rfl
  | .inl _ :: a, s => salt_place a s
  | .inr _ :: a, s => by
    rw [place_inr]
    exact salt_place a s.placeholder.2

lemma counter_place : ∀ (a : List Segment) (s : Sequence), s.counter ≤ (place a s).2.2.counter
  | [], _ => Nat.le_refl _
  | .inl _ :: a, s => counter_place a s
  | .inr _ :: a, s => by
    rw [place_inr]
    exact Nat.le_trans (Nat.le_succ _) (counter_place a s.placeholder.2)

end Interpolation

lemma salt_scan (s : String) (q : Sequence) : (scan s q).2.salt = q.salt := by
  unfold scan
  split
  · exact Interpolation.salt_place _ q
  · rfl

lemma counter_scan (s : String) (q : Sequence) : q.counter ≤ (scan s q).2.counter := by
  unfold scan
  split
  · exact Interpolation.counter_place _ q
  · exact Nat.le_refl _

lemma Component.build_of_salt {q q' : Sequence} (h : q.salt = q'.salt) (file : String)
    (assetOf : String → Option String) (e : Markup.Element) (position : Position) (children : List Markup.Tree) :
    Component.build file q assetOf e position children = Component.build file q' assetOf e position children := by
  have hsalted : q.salted = q'.salted := by
    funext name
    rw [Sequence.salted, Sequence.salted, h]
  rw [Component.build, Component.build, hsalted]

namespace Compile

open Markup (Tree Element)

def placeAll (built : List Component.Built) (outputs : List ComponentOutput) : List ComponentOutput :=
  built.foldl (fun outputs b => Compiler.place b.output outputs) outputs

/-- **What compiling may do to a compiler**: it draws identifiers, and it registers components that were built. -/
structure Advances (c c' : Compiler) : Prop where
  registry : c'.registry = c.registry
  options : c'.options = c.options
  salt : c'.sequence.salt = c.sequence.salt
  counter : c.sequence.counter ≤ c'.sequence.counter
  artifacts : ∃ built : List Component.Built,
    (∀ b ∈ built, ∃ assetOf e position children,
      Component.build c.options.file c.sequence assetOf e position children = .ok b) ∧
    c'.components = placeAll built c.components ∧ c'.assets = c.assets ++ built.flatMap (·.assets)
  sourced : Sourced c.components c.assets → Sourced c'.components c'.assets

namespace Advances

variable {c c₁ c₂ : Compiler}

lemma of_eq (hregistry : c₁.registry = c.registry) (hoptions : c₁.options = c.options)
    (hsalt : c₁.sequence.salt = c.sequence.salt) (hcounter : c.sequence.counter ≤ c₁.sequence.counter)
    (hcomponents : c₁.components = c.components) (hassets : c₁.assets = c.assets) : Advances c c₁ :=
  ⟨hregistry, hoptions, hsalt, hcounter,
    ⟨[], fun _ hb => (not_mem_nil hb).elim, hcomponents, by simp [hassets]⟩, by rw [hcomponents, hassets]; exact id⟩

lemma refl (c : Compiler) : Advances c c := of_eq rfl rfl rfl (Nat.le_refl _) rfl rfl

lemma trans (h : Advances c c₁) (h' : Advances c₁ c₂) : Advances c c₂ := by
  obtain ⟨built, hbuilt, hcomponents, hassets⟩ := h.artifacts
  obtain ⟨built', hbuilt', hcomponents', hassets'⟩ := h'.artifacts
  refine ⟨h'.registry.trans h.registry, h'.options.trans h.options, h'.salt.trans h.salt,
    Nat.le_trans h.counter h'.counter, ⟨built ++ built', fun b hb => ?_, ?_, ?_⟩, fun hc => h'.sourced (h.sourced hc)⟩
  · rcases mem_append.1 hb with hb | hb
    · exact hbuilt b hb
    · obtain ⟨assetOf, e, position, children, hb⟩ := hbuilt' b hb
      refine ⟨assetOf, e, position, children, ?_⟩
      rw [← hb, h.options, Component.build_of_salt h.salt]
  · rw [hcomponents', hcomponents, placeAll, placeAll, placeAll, foldl_append]
  · rw [hassets', hassets, flatMap_append, append_assoc]

end Advances

section

variable {compileNode : NodeCompiler} {t : Tree}

lemma component_apply {e : Element} (h : t.element? = some e) (c : Compiler) :
    component compileNode t c =
      match Component.build c.options.file c.sequence c.assetOf e t.position t.children with
      | .error d => (.error d, c)
      | .ok built => (do
          let t ← nest compileNode (.node (.element (built.host e)) t.position built.template)
          return ⟨t, none⟩ : Compile Outcome) (c.register built.output built.assets) := by
  have hkind : t.kind = .element e := by
    rw [Tree.element?] at h
    cases hkind : t.kind <;> rw [hkind] at h <;> cases h
    rfl
  rw [component, hkind]
  show (liftM (Component.build c.options.file c.sequence c.assetOf e t.position t.children) >>= _ : Compile Outcome) c = _
  cases Component.build c.options.file c.sequence c.assetOf e t.position t.children <;> rfl

lemma component_of_none (h : t.element? = none) : component compileNode t = pure ⟨t, none⟩ := by
  unfold component
  split
  · rename_i e hkind
    rw [Tree.element?, hkind] at h
    cases h
  · rfl

end

def Steady {α : Type} (step : Compile α) : Prop := ∀ c, Advances c (step c).2

namespace Steady

variable {α β : Type}

lemma pure (a : α) : Steady (Pure.pure a : Compile α) := fun c => Advances.refl c

lemma bind {step : Compile α} {next : α → Compile β} (h : Steady step) (hnext : ∀ a, Steady (next a)) :
    Steady (step >>= next) := by
  intro c
  have hstep := h c
  rw [bind_apply]
  rcases hresult : step c with ⟨result, c₁⟩
  rw [hresult] at hstep
  cases result with
  | ok a => exact hstep.trans (hnext a c₁)
  | error d => exact hstep

end Steady

lemma steady : Closed Steady where
  pure := .pure
  throw _ c := .refl c
  bind := .bind
  get c := .refl c
  located _ h := h
  pushDynamic _ _ := .of_eq rfl rfl rfl (Nat.le_refl _) rfl rfl
  scanText s c := .of_eq rfl rfl (salt_scan s c.sequence) (counter_scan s c.sequence) rfl rfl
  nextHash h c := by
    have hdrawn : Advances c { c with sequence := c.sequence.nextHash.2 } :=
      .of_eq rfl rfl rfl (Nat.le_succ _) rfl rfl
    exact hdrawn.trans (h c _)
  note entry _ h c := by
    have hnoted : Advances c { c with log := c.log ++ [entry] } := .of_eq rfl rfl rfl (Nat.le_refl _) rfl rfl
    exact hnoted.trans (h _)
  register := by
    intro α e position children next h c
    show Advances c ((liftM (Component.build c.options.file c.sequence c.assetOf e position children) >>= fun built =>
      set (c.register built.output built.assets) >>= fun _ => next built : Compile α) c).2
    cases hbuilt : Component.build c.options.file c.sequence c.assetOf e position children with
    | error d => exact .refl c
    | ok built =>
      have hregister : Advances c (c.register built.output built.assets) := by
        refine ⟨rfl, rfl, rfl, Nat.le_refl _, ⟨[built], fun b hb => ?_, rfl, by simp [Compiler.register]⟩,
          fun hc => hc.register hbuilt⟩
        rw [mem_singleton.1 hb]
        exact ⟨_, _, _, _, hbuilt⟩
      exact hregister.trans (h built _)
  document h c := by
    have hnodes := h { c with dynamics := [] }
    exact ⟨hnodes.registry, hnodes.options, hnodes.salt, hnodes.counter, hnodes.artifacts, hnodes.sourced⟩

lemma steady_node (fuel : Nat) (limit : Option Nat) (isVerbatim : Bool) (t : Tree) :
    Steady (node fuel limit isVerbatim t) := steady.node fuel limit isVerbatim t

lemma steady_template (limit : Option Nat) (nodes : List Tree) : Steady (template limit nodes) :=
  steady.bind steady.get (fun _ => steady.template (steady_node _) limit nodes)

end Compile

/-! ## Pages -/

namespace Compiler

open Compile

def nodesOf (d : Markup.Document) : List Markup.Tree := (d.toTree Markup.Document.root).children

def finish (k : Compiler) : Except Diagnostic Compiled → Except Diagnostic CompileOutput × Compiler
  | .error d => (.error d, k)
  | .ok compiled =>
    match Asset.resolve k.assets with
    | .error fault => (.error fault.toDiagnostic, { k with assets := [] })
    | .ok assets =>
      (.ok ⟨compiled, k.components, assets, if k.options.timing then phases else []⟩,
        { k with components := [], assets := [] })

lemma sequence_finish (k : Compiler) (result : Except Diagnostic Compiled) :
    (finish k result).2.sequence = k.sequence := by
  cases result with
  | error d => rfl
  | ok compiled =>
    rw [finish]
    cases Asset.resolve k.assets <;> rfl

lemma compile_eq (c : Compiler) (source : String) : c.compile source =
    match Markup.Document.parse source c.options.file with
    | .error d => (.error d, c)
    | .ok d => finish (template none (nodesOf d) c).2 (template none (nodesOf d) c).1 := by
  rw [compile, compilePage]
  show (liftM (Markup.Document.parse source c.options.file) >>= _ : Compile CompileOutput) c = _
  cases Markup.Document.parse source c.options.file with
  | error d => rfl
  | ok d =>
    show (template none (nodesOf d) >>= _ : Compile CompileOutput) c = _
    rw [bind_apply]
    simp only
    rcases template none (nodesOf d) c with ⟨result, k⟩
    cases result with
    | error d => rfl
    | ok compiled =>
      show (orFault (Asset.resolve k.assets) >>= _ : Compile CompileOutput) { k with assets := [] } = _
      rw [finish]
      cases Asset.resolve k.assets <;> rfl

lemma template_of_compile {c : Compiler} {source : String} {d : Markup.Document} {out : CompileOutput}
    (hparse : Markup.Document.parse source c.options.file = .ok d) (hout : (c.compile source).1 = .ok out) :
    ∃ k, Gives (template none (nodesOf d)) c out.compiled k ∧ (c.compile source).2.sequence = k.sequence := by
  rw [compile_eq, hparse] at hout ⊢
  simp only at hout ⊢
  rw [sequence_finish]
  refine ⟨_, ?_, rfl⟩
  cases hresult : (template none (nodesOf d) c).1 with
  | error fault =>
    rw [hresult] at hout
    cases hout
  | ok compiled =>
    rw [hresult, finish] at hout
    split at hout
    · cases hout
    · cases hout
      exact Prod.ext hresult rfl

end Compiler
end ReactiveTemplate
