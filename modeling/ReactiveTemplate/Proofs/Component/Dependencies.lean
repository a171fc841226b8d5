import ReactiveTemplate.Proofs.Asset.Loading
import ReactiveTemplate.Proofs.Component.Built
import ReactiveTemplate.Template.Compiler
/-!
# Dependencies — the assets of components

The script of a component depends on scripts of components that were registered before it, and its style sheet on
nothing (`assets_of_build`).
-/
set_option linter.all false

namespace ReactiveTemplate
open List

variable {file : String}

/-! ## What a template depends on -/

namespace Component

open Markup (Tree Element)

def Binding.Draws (site : Site) (b b' : Binder) : Prop :=
  ∀ d ∈ b'.dependencies, d ∈ b.dependencies ∨ ∃ tag, site.assetOf tag = some d

lemma Binding.Draws.trans {site : Site} {b b₁ b' : Binder} (h : Draws site b b₁) (h' : Draws site b₁ b') :
    Draws site b b' :=
  fun d hd => (h' d hd).elim (h d) .inr

lemma Binding.Passes.draws {site : Site} {isVerbatim : Bool} {ts us : List Tree} {b b' : Binder}
    (h : Passes site isVerbatim ts us b b') : Draws site b b' := by
  induction h with
  | nil => exact fun _ hd => .inl hd
  | @element _ e _ _ _ _ _ _ _ _ _ _ helement _ _ ihbelow ihrest =>
    refine Draws.trans (fun d hd => ?_) (ihbelow.trans ihrest)
    rw [(changes_element helement).2, mem_eraseDups, mem_append] at hd
    exact hd.imp_right (fun hd => ⟨e.tag, Option.mem_toList.1 hd⟩)
  | text _ htext _ ihrest =>
    refine Draws.trans (fun d hd => ?_) ihrest
    rw [(moves_text htext).dependencies] at hd
    exact .inl hd
  | other _ _ _ ihrest => exact ihrest

lemma draws_bindTemplate {assetOf : String → Option String} {parts : Parts} {head : Head}
    {b b' : Binder} {ts : List Markup.Tree} (h : Binding.Gives (bindTemplate file assetOf parts head) b ts b')
    {d : String} (hd : d ∈ b'.dependencies) : d ∈ b.dependencies ∨ ∃ tag, assetOf tag = some d := by
  obtain ⟨names, b₁, analysed, hooks, hreferences, -, hpasses⟩ := Binding.gives_bindTemplate h
  rw [← (gives_references hreferences nodup_nil).2.1]
  exact hpasses.draws d hd

end Component

/-! ## The assets of a component -/

lemma Component.getLast?_render (p : Payload) : p.render.toList.getLast? = some '\n' := by
  rw [Payload.render, String.toList_append, getLast?_append_of_ne_nil _ (by decide)]
  decide

lemma Text.getLast?_of_trim {s : String} (h : Text.trim s = s) : s.toList.getLast? ≠ some '\n' := by
  intro hlast
  have hne : rdropWhile isBlank (s.toList.dropWhile isBlank) ≠ [] := by
    rintro hnil
    have : s = "" := by
      rw [← h]
      exact congrArg String.ofList hnil
    rw [this] at hlast
    cases hlast
  have hchars : s.toList = rdropWhile isBlank (s.toList.dropWhile isBlank) := by
    conv_lhs => rw [← h, trim, String.toList_ofList]
    rfl
  have hblank := rdropWhile_last_not isBlank _ hne
  rw [hchars, getLast?_eq_getLast_of_ne_nil hne, Option.some.injEq] at hlast
  exact hblank (hlast ▸ by decide)

namespace Asset

/-- A script that was written for a component, with what it may depend on. -/
structure IsScript (names : String → Prop) (a : Asset) : Prop where
  eq : a = { new .javascript a.content with dependencies := a.dependencies }
  last : a.content.toList.getLast? = some '\n'
  dependencies : ∀ d ∈ a.dependencies, names d

structure IsSheet (a : Asset) : Prop where
  eq : a = new .stylesheet a.content
  trim : Text.trim a.content = a.content

variable {names : String → Prop} {a b : Asset}

lemma IsScript.kind (h : a.IsScript names) : a.kind = .javascript := by
  rw [h.eq]
  rfl

lemma IsScript.mono {names' : String → Prop} (h : a.IsScript names) (hnames : ∀ d, names d → names' d) :
    a.IsScript names' := ⟨h.eq, h.last, fun d hd => hnames d (h.dependencies d hd)⟩

lemma IsSheet.kind (h : a.IsSheet) : a.kind = .stylesheet := by
  rw [h.eq]
  rfl

lemma IsScript.content_ne (h : a.IsScript names) (h' : b.IsSheet) : a.content ≠ b.content := fun heq =>
  Text.getLast?_of_trim h'.trim (heq ▸ h.last)

end Asset

namespace Component

lemma assets_of_build {sequence : Sequence} {assetOf : String → Option String} {e : Markup.Element}
    {position : Position} {children : List Markup.Tree} {built : Built}
    (h : build file sequence assetOf e position children = .ok built) :
    built.script.IsScript (fun d => ∃ tag, assetOf tag = some d) ∧ ∀ style ∈ built.style, style.IsSheet := by
  obtain ⟨parts, binder, -, -, hrun, -, hscript, hstyle⟩ := build_cases h
  constructor
  · obtain ⟨dependencies, heq, hmem⟩ :=
      Asset.foldl_dependsOn binder.dependencies (Asset.new .javascript binder.payload.render)
    rw [hscript, heq]
    refine ⟨rfl, getLast?_render _, fun d hd => ?_⟩
    rcases (hmem d).1 hd with hold | ⟨hd, -⟩
    · cases hold
    · exact (draws_bindTemplate hrun hd).resolve_left (not_mem_nil)
  · intro style hmem
    rw [hstyle] at hmem
    split at hmem
    · cases hmem
    · cases hmem
      exact ⟨rfl, Text.trim_trim _⟩

end Component

/-! ## The assets of a page -/

/-- **Components and assets that hold together**: every component has its assets, and every script depends on scripts
only. -/
structure Sourced (components : List ComponentOutput) (assets : List Asset) : Prop where
  each : ∀ a ∈ assets, a.IsScript (fun d => ∃ b ∈ assets, b.kind = .javascript ∧ b.name = d) ∨ a.IsSheet
  scripts : ∀ o ∈ components, ∃ a ∈ assets, a.kind = .javascript ∧ a.name = o.asset ∧ a.content = o.payload
  sheets : ∀ o ∈ components, ∀ style ∈ o.style, ∃ a ∈ assets, a.kind = .stylesheet ∧ a.name = style

namespace Sourced

variable {components : List ComponentOutput} {assets : List Asset}

lemma append (h : Sourced components assets) {more : List Asset}
    (hmore : ∀ a ∈ more, a.IsScript (fun d => ∃ b ∈ assets, b.kind = .javascript ∧ b.name = d) ∨ a.IsSheet) :
    Sourced components (assets ++ more) := by
  have hmono : ∀ {a : Asset}, (a.IsScript (fun d => ∃ b ∈ assets, b.kind = .javascript ∧ b.name = d) ∨ a.IsSheet) →
      (a.IsScript (fun d => ∃ b ∈ assets ++ more, b.kind = .javascript ∧ b.name = d) ∨ a.IsSheet) := fun ha =>
    ha.imp_left fun hscript => hscript.mono fun d ⟨b, hb, hd⟩ => ⟨b, mem_append_left _ hb, hd⟩
  refine ⟨fun a ha => hmono ?_, fun o ho => ?_, fun o ho style hstyle => ?_⟩
  · rcases mem_append.1 ha with ha | ha
    · exact h.each a ha
    · exact hmore a ha
  · obtain ⟨a, ha, hrest⟩ := h.scripts o ho
    exact ⟨a, mem_append_left _ ha, hrest⟩
  · obtain ⟨a, ha, hrest⟩ := h.sheets o ho style hstyle
    exact ⟨a, mem_append_left _ ha, hrest⟩

end Sourced

lemma Compiler.mem_place {output o : ComponentOutput} : ∀ {os : List ComponentOutput}, o ∈ place output os →
    o = output ∨ o ∈ os
  | [], h => .inl (mem_singleton.1 h)
  | o' :: os, h => by
    rw [place] at h
    split at h
    · rcases mem_cons.1 h with rfl | h
      · exact .inl rfl
      · exact .inr (.tail _ h)
    · rcases mem_cons.1 h with rfl | h
      · exact .inr (.head _)
      · exact (mem_place h).imp_right (mem_cons_of_mem _)

lemma Sourced.register {c : Compiler} (h : Sourced c.components c.assets) {sequence : Sequence}
    {e : Markup.Element} {position : Position} {children : List Markup.Tree} {built : Component.Built}
    (hbuilt : Component.build file sequence c.assetOf e position children = .ok built) :
    Sourced (c.register built.output built.assets).components (c.register built.output built.assets).assets := by
  obtain ⟨hscript, hsheet⟩ := Component.assets_of_build hbuilt
  have hdependencies : built.script.IsScript (fun d => ∃ b ∈ c.assets, b.kind = .javascript ∧ b.name = d) := by
    refine hscript.mono fun d ⟨tag, htag⟩ => ?_
    obtain ⟨o, ho, rfl⟩ := Option.map_eq_some_iff.1 htag
    obtain ⟨a, ha, hkind, hname, -⟩ := h.scripts o (mem_of_find?_eq_some ho)
    exact ⟨a, ha, hkind, hname⟩
  have happend : Sourced c.components (c.assets ++ built.assets) := h.append fun a ha => by
    rcases mem_append.1 ha with ha | ha
    · exact .inr (hsheet a (Option.mem_toList.1 ha))
    · rw [mem_singleton.1 ha]
      exact .inl hdependencies
  refine ⟨happend.each, fun o ho => ?_, fun o ho style hstyle => ?_⟩
  · rcases Compiler.mem_place ho with rfl | ho
    · exact ⟨built.script, mem_append_right _ (mem_append_right _ (.head _)), hscript.kind, rfl, rfl⟩
    · exact happend.scripts o ho
  · rcases Compiler.mem_place ho with rfl | ho
    · obtain ⟨a, ha, rfl⟩ := Option.mem_map.1 hstyle
      exact ⟨a, mem_append_right _ (mem_append_left _ (Option.mem_toList.2 ha)), (hsheet a ha).kind, rfl⟩
    · exact happend.sheets o ho style hstyle

end ReactiveTemplate
