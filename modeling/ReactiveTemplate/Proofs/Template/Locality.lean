import ReactiveTemplate.Proofs.Template.Leftovers
import ReactiveTemplate.Proofs.Template.Parallel
/-!
# Locality — what a component is made from

What a page registers for a component is made from its element, its line, the file, the salt and the assets that it
uses.
-/
set_option linter.all false

namespace ReactiveTemplate.Compile

open Markup (Tree Element)
open Diagnostic (Unplaced Covers Placed)

def SameFault (d d' : Diagnostic) : Prop := d'.fault = d.fault

lemma covers_sameFault (files : String × String) (p p' : Position) : Covers files Unplaced SameFault p p' := by
  have hlocate : ∀ (d : Diagnostic) (file : String) (p : Position), (d.locate file p.line p.column).fault = d.fault := by
    intro d file p
    rw [Diagnostic.locate]
    split <;> rfl
  rintro _ d ⟨rfl, -, -⟩
  rw [SameFault, hlocate, hlocate]

/-! ## Templates without components -/

def HasArtifacts (components : List ComponentOutput) (assets : List Asset) (c : Compiler) : Prop :=
  c.components = components ∧ c.assets = assets

/-- Two compilers that draw the same identifiers and register nothing. -/
structure Still (files : String × String) (k k' c c' : Compiler) : Prop where
  registry : c.registry = Registry.standard ∧ c'.registry = Registry.standard
  files_eq : (c.options.file, c'.options.file) = files
  sequence : c'.sequence = c.sequence
  left : HasArtifacts k.components k.assets c
  right : HasArtifacts k'.components k'.assets c'

def still (files : String × String) (k k' : Compiler) : Lockstep where
  files
  Rel := Still files k k'
  registry h := h.registry
  files_eq h := h.files_eq
  sequence h := h.sequence
  draw _ h := ⟨h.registry, h.files_eq, rfl, h.left, h.right⟩
  put _ _ h := ⟨h.registry, h.files_eq, h.sequence, h.left, h.right⟩

variable {c : Compiler} {ts us : List Tree} {count : Nat}

lemma document_complete (limit : Option Nat) (ts : List Tree) (hc : c.registry = Registry.standard) :
    ∃ n, ∀ m ≥ n, document complete limit ts c = document (node m) limit ts c := by
  refine ⟨depthOf Registry.standard ts, fun m hm => ?_⟩
  rw [node_eq_iterate, document_iterate Registry.buildsComponents_standard _ hm hc]

lemma document_local (k k' : Compiler)
    (hregistry : k.registry = Registry.standard ∧ k'.registry = Registry.standard)
    (hsalt : k'.sequence.salt = k.sequence.salt) (hdistinct : Sequence.IsDistinct k.sequence.salt count)
    (h : Tree.PairedAll (Placed (k.options.file, k'.options.file) SameFault) ts us)
    (hplain : ∀ t ∈ Tree.preorderAll ts, t.tag? ≠ some "component")
    (hcount : (document complete none ts k).2.sequence.counter ≤ count)
    (hcount' : (document complete none us k').2.sequence.counter ≤ count) :
    Except.Rel SameFault (fun _ _ => True) (document complete none ts k).1 (document complete none us k').1 ∧
      HasArtifacts k.components k.assets (document complete none ts k).2 ∧
      HasArtifacts k'.components k'.assets (document complete none us k').2 := by
  obtain ⟨n, hn⟩ := document_complete none ts hregistry.1
  obtain ⟨n', hn'⟩ := document_complete none us hregistry.2
  rw [hn (max n n') (Nat.le_max_left _ _)] at hcount ⊢
  rw [hn' (max n n') (Nat.le_max_right _ _)] at hcount' ⊢
  generalize max n n' = fuel at hcount hcount' ⊢
  -- the second compiler, had it drawn what the first one has
  let aside : Compiler := { k' with sequence := k.sequence }
  have hcompilable : Tree.PairedAll (Compilable (still (k.options.file, k'.options.file) k k') SameFault) ts us :=
    h.mono (fun t ht u htu => ⟨htu, fun htag => absurd htag (hplain t ht)⟩)
  have hstill : Still (k.options.file, k'.options.file) k k' k aside := ⟨hregistry, rfl, rfl, ⟨rfl, rfl⟩, rfl, rfl⟩
  obtain ⟨hresult, hend⟩ := parallel_document (parallel_node fuel) hcompilable (.inl rfl) k aside hstill
  have halike : Alike Registry.standard k.sequence.salt aside k' :=
    ⟨hregistry.2, hregistry.2, rfl, hsalt, rfl, rfl, rfl, rfl⟩
  have hdrawn : (document (node fuel) none us aside).2.sequence.counter ≤ count := by
    rw [hend.sequence]
    exact hcount
  obtain ⟨hresult', hend'⟩ := (agree_document (agree_node hdistinct (by decide) fuel) none (Std.Refl.refl us)).outcomes
    aside k' halike hdrawn hcount'
  refine ⟨?_, hend.left, hend'.components.symm.trans hend.right.1, hend'.assets.symm.trans hend.right.2⟩
  revert hresult hresult'
  generalize (document (node fuel) none us aside).1 = result
  generalize (document (node fuel) none us k').1 = result'
  intro hresult hresult'
  cases hresult' with
  | error d => exact hresult
  | ok _ =>
    revert hresult
    generalize (document (node fuel) none ts k).1 = result
    rintro (_ | _)
    exact .ok trivial

/-! ## Components -/

lemma component_of_build {compileNode : NodeCompiler} {t : Tree} {e : Element} {built : Component.Built}
    (helement : t.element? = some e)
    (h : Component.build c.options.file c.sequence c.assetOf e t.position t.children = .ok built) :
    ∃ (f : Compiled → Outcome) (dynamics : List Dynamic),
      component compileNode t c =
        ((document compileNode none built.template (c.register built.output built.assets)).1.map f,
          { (document compileNode none built.template (c.register built.output built.assets)).2 with dynamics }) := by
  rw [component_apply helement, h]
  simp only [nest, Tree.children, bind_apply]
  rcases document compileNode none built.template (c.register built.output built.assets) with ⟨_ | compiled, k⟩
  · exact ⟨fun _ => ⟨t, none⟩, k.dynamics, rfl⟩
  · exact ⟨fun _ => _, _, rfl⟩

/-- **A component is made from what it says itself.**  Two compilers with one salt compile a component that stands in one
line of one file, over the same nodes, and know the tags there as the same components.  Then both refuse it for the same
fault, or they register the same component with the same assets, as long as the identifiers that they draw are different
ones. -/
theorem component_local {t u : Tree} {e : Element} {c c' : Compiler} {count : Nat}
    (hregistry : c.registry = Registry.standard ∧ c'.registry = Registry.standard)
    (hsalt : c'.sequence.salt = c.sequence.salt) (hfile : c'.options.file = c.options.file)
    (helement : t.element? = some e ∧ u.element? = some e) (hline : u.position.line = t.position.line)
    (hbelow : Tree.PairedAll (fun v w => v.kind = w.kind) t.children u.children)
    (hknown : ∀ v ∈ Tree.preorderAll t.children, ∀ tag ∈ v.tag?, c'.assetOf tag = c.assetOf tag)
    (hdistinct : Sequence.IsDistinct c.sequence.salt count)
    (hcount : (component complete t c).2.sequence.counter ≤ count)
    (hcount' : (component complete u c').2.sequence.counter ≤ count) :
    (∃ d d', (component complete t c).1 = .error d ∧ (component complete u c').1 = .error d' ∧ d'.fault = d.fault) ∨
      ∃ o o' output assets, (component complete t c).1 = .ok o ∧ (component complete u c').1 = .ok o' ∧
        HasArtifacts (Compiler.place output c.components) (c.assets ++ assets) (component complete t c).2 ∧
        HasArtifacts (Compiler.place output c'.components) (c'.assets ++ assets) (component complete u c').2 := by
  let s : Component.Places := ⟨(c.options.file, c'.options.file), u.position.line, c.assetOf, c'.assetOf, True⟩
  have hbindable : Tree.PairedAll (Component.Binding.Bindable s SameFault) t.children u.children := by
    refine hbelow.mono (fun v hv w hvw => ⟨⟨congrArg Markup.Kind.bare hvw, covers_sameFault _ _ _⟩, fun tag htag => ?_⟩)
    have hsame : c'.assetOf tag = c.assetOf tag := hknown v hv tag htag
    exact ⟨congrArg Option.isSome hsame.symm, fun _ => hsame⟩
  have hbuild : Except.Rel (Component.Raised SameFault) (Component.Built.Twin s SameFault)
      (Component.build c.options.file c.sequence c.assetOf e t.position t.children)
      (Component.build c'.options.file c'.sequence c'.assetOf e u.position u.children) :=
    Component.parallel_build hsalt hbindable e t.position rfl
  cases hbuilt : Component.build c.options.file c.sequence c.assetOf e t.position t.children with
  | error d =>
    rw [hbuilt] at hbuild
    obtain ⟨d', hbuilt', hd⟩ := hbuild.of_error
    rw [component_apply helement.1, component_apply helement.2, hbuilt, hbuilt']
    exact .inl ⟨d, d', rfl, rfl, hd.elim (fun hd => congrArg Diagnostic.fault hd.same) id⟩
  | ok built =>
    rw [hbuilt] at hbuild
    obtain ⟨built', hbuilt', htwin⟩ := hbuild.of_ok
    have hscript := htwin.script_eq hbuilt trivial hfile hline
    have houtput : built'.output = built.output := by
      rw [Component.Built.output, Component.Built.output, htwin.head, hscript, htwin.style]
    have hassets : built'.assets = built.assets := by
      rw [Component.Built.assets, Component.Built.assets, hscript, htwin.style]
    obtain ⟨f, dynamics, heq⟩ := component_of_build helement.1 hbuilt
    obtain ⟨f', dynamics', heq'⟩ := component_of_build helement.2 hbuilt'
    rw [heq] at hcount ⊢
    rw [heq', houtput, hassets] at hcount' ⊢
    obtain ⟨hresult, hleft, hright⟩ := document_local (c.register built.output built.assets)
      (c'.register built.output built.assets) hregistry hsalt hdistinct htwin.template (Component.plain_of_build hbuilt)
      hcount hcount'
    revert hresult
    generalize (document complete none built.template (c.register built.output built.assets)).1 = result
    generalize (document complete none built'.template (c'.register built.output built.assets)).1 = result'
    rintro (_ | hd)
    · exact .inr ⟨_, _, built.output, built.assets, rfl, rfl, hleft, hright⟩
    · exact .inl ⟨_, _, rfl, rfl, hd⟩

def showing (column : Nat) : Tree :=
  .node (.element ⟨"component", [Markup.Attribute.new "name" "c"]⟩) ⟨1, column⟩
    [.node (.element ⟨"p", []⟩) ⟨1, column + 20⟩ [Tree.leaf (.text "$\x7ba\x7d") ⟨1, column + 23⟩],
      .node (.element ⟨"script", []⟩) ⟨1, column + 31⟩ [Tree.leaf (.text "let a") ⟨1, column + 39⟩]]

def drawn (salt : String) (counter : Nat) : Compiler :=
  { Compiler.new Registry.standard ⟨"", some salt, false⟩ with sequence := ⟨salt, counter⟩ }

def beside : Compiler := { drawn "s" 5 with components := [⟨"d", "d", "", "x", none, ⟨[], []⟩⟩] }

theorem component_local_showing : ∃ output assets,
    HasArtifacts (Compiler.place output []) assets (component complete (showing 1) (drawn "s" 0)).2 ∧
      HasArtifacts (Compiler.place output beside.components) assets (component complete (showing 8) beside).2 := by
  have hok : (component complete (showing 1) (drawn "s" 0)).1.toOption.isSome = true := by decide +kernel
  rcases @component_local (showing 1) (showing 8) _ (drawn "s" 0) beside 8 ⟨rfl, rfl⟩ rfl rfl ⟨rfl, rfl⟩ rfl
      ⟨⟨rfl, ⟨rfl, trivial⟩, trivial⟩, ⟨rfl, ⟨rfl, trivial⟩, trivial⟩, trivial⟩ (by decide) (by decide +kernel)
      (by decide +kernel) (by decide +kernel) with
    ⟨d, -, herror, -⟩ | ⟨-, -, output, assets, -, -, hleft, hright⟩
  · rw [herror] at hok
    cases hok
  · exact ⟨output, assets, hleft, hright⟩

def repeating : String := "/\x1d\x0bx_:\x10Cb"

def calling : Tree :=
  .node (.element ⟨"component", [Markup.Attribute.new "name" "c"]⟩) ⟨1, 1⟩
    [.node (.element ⟨"p", [Markup.Attribute.new "title" "x", Markup.Attribute.new "data-title"
      "$\x7bf()\x7d$\x7bb\x7d$\x7bb\x7d$\x7bb\x7d$\x7bb\x7d$\x7bb\x7d$\x7bb\x7d$\x7bb\x7d"]⟩) ⟨1, 21⟩ []]

/-- The call is refused, unless another interpolation gets its identifier. -/
theorem component_calling : (component complete calling (drawn repeating 0)).1.toOption.isSome = false ∧
    (component complete calling (drawn repeating 2)).1.toOption.isSome = true := by
  decide +kernel

end ReactiveTemplate.Compile
