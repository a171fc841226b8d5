import ReactiveTemplate.Proofs.Characters
import ReactiveTemplate.Proofs.Template.Artifacts
/-!
# Assets — the assets of a compiled page

As long as the hash tells the contents of a page's assets apart, a name belongs to one kind of asset
(`Sourced.sheetsApart`).
-/
set_option linter.all false

namespace ReactiveTemplate

variable {a : Asset}

def Digest.TellsApart (contents : List String) : Prop :=
  ∀ s ∈ contents, ∀ t ∈ contents, Digest.short s = Digest.short t → s = t

namespace Sourced

variable {components : List ComponentOutput} {assets : List Asset}

lemma name_eq (h : Sourced components assets) (ha : a ∈ assets) : a.name = Digest.short a.content := by
  rcases h.each a ha with hscript | hsheet
  · exact congrArg Asset.name hscript.eq
  · exact congrArg Asset.name hsheet.eq

lemma tellsApart (h : Sourced components assets)
    (hsame : ∀ a ∈ assets, ∀ b ∈ assets, a.name = b.name → a.content = b.content) :
    Digest.TellsApart (assets.map (·.content)) := by
  rintro _ hs _ ht hshort
  obtain ⟨a, ha, rfl⟩ := List.mem_map.1 hs
  obtain ⟨b, hb, rfl⟩ := List.mem_map.1 ht
  exact hsame a ha b hb (by rw [h.name_eq ha, h.name_eq hb, hshort])

lemma content_eq (h : Sourced components assets) (htells : Digest.TellsApart (assets.map (·.content))) {b : Asset}
    (ha : a ∈ assets) (hb : b ∈ assets) (hname : a.name = b.name) : a.content = b.content :=
  htells _ (List.mem_map_of_mem ha) _ (List.mem_map_of_mem hb) (by rw [← h.name_eq ha, ← h.name_eq hb, hname])

lemma kind_eq (h : Sourced components assets) (htells : Digest.TellsApart (assets.map (·.content))) {b : Asset}
    (ha : a ∈ assets) (hb : b ∈ assets) (hname : a.name = b.name) : a.kind = b.kind := by
  have hcontent := h.content_eq htells ha hb hname
  rcases h.each a ha with hscript | hsheet <;> rcases h.each b hb with hscript' | hsheet'
  · rw [hscript.kind, hscript'.kind]
  · exact absurd hcontent (hscript.content_ne hsheet')
  · exact absurd hcontent.symm (hscript'.content_ne hsheet)
  · rw [hsheet.kind, hsheet'.kind]

lemma sheetsApart (h : Sourced components assets) (htells : Digest.TellsApart (assets.map (·.content))) :
    Asset.SheetsApart assets where
  priority a ha := by
    rcases h.each a ha with hscript | hsheet
    · rw [hscript.eq]
      rfl
    · rw [hsheet.eq]
      rfl
  sheets a ha hkind := by
    rcases h.each a ha with hscript | hsheet
    · cases hscript.kind.symm.trans hkind
    · rw [hsheet.eq]
      rfl
  kinds _ ha _ hb hname := h.kind_eq htells ha hb hname
  scripts a ha b hb hdep := by
    rcases h.each a ha with hscript | hsheet
    · obtain ⟨c, hc, hkind, hname⟩ := hscript.dependencies _ hdep
      rw [← hkind]
      exact h.kind_eq htells hb hc hname.symm
    · rw [hsheet.eq] at hdep
      cases hdep

lemma exists_resolved (h : Sourced components assets) (htells : Digest.TellsApart (assets.map (·.content)))
    {out : List Asset} (hout : Asset.Resolves assets out) (ha : a ∈ assets) :
    ∃ b ∈ out, b.name = a.name ∧ b.kind = a.kind ∧ b.content = a.content := by
  obtain ⟨b, hb, hname⟩ := List.mem_map.1 (hout.mem_names ha)
  obtain ⟨c, hc, hcname, hckind, -, hccontent⟩ := Asset.exists_of_mem_mergeAll (hout.subset hb)
  have hsame : c.name = a.name := hcname.trans hname
  exact ⟨b, hb, hname, hckind ▸ h.kind_eq htells hc ha hsame, hccontent ▸ h.content_eq htells hc ha hsame⟩

end Sourced

def compiledPage (source : String) (options : CompileOptions) : Except Diagnostic Compiled × Compiler :=
  match Markup.Document.parse source options.file with
  | .error d => (.error d, Compiler.new Registry.standard options)
  | .ok d => Compile.template none (Compiler.nodesOf d) (Compiler.new Registry.standard options)

def registered (source : String) (options : CompileOptions) : List Asset := (compiledPage source options).2.assets

lemma sourced_compiledPage (source : String) (options : CompileOptions) :
    Sourced (compiledPage source options).2.components (compiledPage source options).2.assets := by
  have hnew : Sourced (Compiler.new Registry.standard options).components (Compiler.new Registry.standard options).assets :=
    ⟨fun a ha => (by cases ha), fun o ho => (by cases ho), fun o ho => (by cases ho)⟩
  unfold compiledPage
  split
  · exact hnew
  · exact (Compile.steady_template none _ _).sourced hnew

variable {source : String} {options : CompileOptions}

lemma tellsApart_registered
    (h : ∀ a ∈ registered source options, ∀ b ∈ registered source options, a.name = b.name → a.content = b.content) :
    Digest.TellsApart ((registered source options).map (·.content)) :=
  (sourced_compiledPage source options).tellsApart h

lemma compile_eq_finish : compile source options =
    (Compiler.finish (compiledPage source options).2 (compiledPage source options).1).1 := by
  rw [compile, Compiler.compile_eq, compiledPage]
  show (match Markup.Document.parse source options.file with | .error d => _ | .ok d => _ : _ × Compiler).1 = _
  cases Markup.Document.parse source options.file <;> rfl

lemma compile_eq_ok {out : CompileOutput} :
    compile source options = .ok out ↔ ∃ compiled assets, (compiledPage source options).1 = .ok compiled ∧
      Asset.resolve (registered source options) = .ok assets ∧
      out = ⟨compiled, (compiledPage source options).2.components, assets,
        if (compiledPage source options).2.options.timing then Compiler.phases else []⟩ := by
  rw [compile_eq_finish, registered]
  cases (compiledPage source options).1 with
  | error d => simp [Compiler.finish]
  | ok compiled =>
    rw [Compiler.finish]
    cases Asset.resolve (compiledPage source options).2.assets with
    | error fault => simp
    | ok assets =>
      constructor
      · intro h
        cases h
        exact ⟨_, _, rfl, rfl, rfl⟩
      · rintro ⟨_, _, hcompiled, hassets, rfl⟩
        cases hcompiled
        cases hassets
        rfl

lemma compile_eq_error {d : Diagnostic} :
    compile source options = .error d ↔ (compiledPage source options).1 = .error d ∨
      ∃ compiled fault, (compiledPage source options).1 = .ok compiled ∧
        Asset.resolve (registered source options) = .error fault ∧ d = fault.toDiagnostic := by
  rw [compile_eq_finish, registered]
  cases (compiledPage source options).1 with
  | error d => simp [Compiler.finish]
  | ok compiled =>
    rw [Compiler.finish]
    cases Asset.resolve (compiledPage source options).2.assets with
    | error fault => simp [eq_comm]
    | ok assets => simp

/-- **The assets of a compiled page**, as long as the hash tells their contents apart: their names are distinct, every
component finds its script and its style sheet among them, every asset stands behind what it depends on, and whatever
stands before a style sheet is one. -/
theorem compile_assets {source : String} {options : CompileOptions} {out : CompileOutput}
    (hout : compile source options = .ok out)
    (htells : Digest.TellsApart ((registered source options).map (·.content))) :
    (out.assets.map (·.name)).Nodup ∧
      (∀ o ∈ out.components,
        (∃ a ∈ out.assets, a.name = o.asset ∧ a.kind = .javascript ∧ a.content = o.payload) ∧
          ∀ style ∈ o.style, ∃ a ∈ out.assets, a.name = style ∧ a.kind = .stylesheet) ∧
      (∀ before a behind, out.assets = before ++ a :: behind → ∀ d ∈ a.dependencies, d ∈ before.map (·.name)) ∧
      out.assets.Pairwise (fun a b => b.kind = .stylesheet → a.kind = .stylesheet) := by
  obtain ⟨compiled, assets, -, hresolve, rfl⟩ := compile_eq_ok.1 hout
  have hresolves := Asset.resolves_of_ok hresolve
  have hsourced := sourced_compiledPage source options
  refine ⟨hresolves.nodup, fun o ho => ⟨?_, fun style hstyle => ?_⟩, fun before a behind hsplit d hd => ?_, ?_⟩
  · obtain ⟨a, ha, hkind, hname, hcontent⟩ := hsourced.scripts o ho
    obtain ⟨b, hb, hbname, hbkind, hbcontent⟩ := hsourced.exists_resolved htells hresolves ha
    exact ⟨b, hb, hbname.trans hname, hbkind.trans hkind, hbcontent.trans hcontent⟩
  · obtain ⟨a, ha, hkind, hname⟩ := hsourced.sheets o ho style hstyle
    obtain ⟨b, hb, hbname, hbkind, -⟩ := hsourced.exists_resolved htells hresolves ha
    exact ⟨b, hb, hbname.trans hname, hbkind.trans hkind⟩
  · exact hresolves.mem_before hsplit hd
  · exact hresolves.stylesheets_first (hsourced.sheetsApart htells)

lemma exists_compile {nodes : List GraphNode} {names : List String}
    (hcompiled : (compiledPage source options).1.toOption.any (fun _ => true) = true)
    (hmissing : (Asset.missing? (Asset.mergeAll (registered source options))).isNone = true)
    (hnodes : (Asset.mergeAll (registered source options)).map Asset.node = nodes) (hsort : Graph.sort nodes = .ok names) :
    ∃ out, compile source options = .ok out ∧ out.assets.map (·.name) = names := by
  subst hnodes
  obtain ⟨compiled, hresult, -⟩ := exists_ok_of_any hcompiled
  have hresolve := Asset.resolve_eq_ok.2 ⟨Option.isNone_iff_eq_none.1 hmissing, names, hsort, rfl⟩
  refine ⟨_, compile_eq_ok.2 ⟨compiled, _, hresult, hresolve, rfl⟩, ?_⟩
  exact (Asset.resolves_of_ok hresolve).names.trans (Graph.sort_eq_ok.1 hsort).2.symm

def styledPage : String := "<component name=b><style>p</style></component><component name=a><b/></component>"

theorem compile_assets_styledPage : ∃ out, compile styledPage {} = .ok out ∧
    out.assets.map (·.name) = ["viDlGR1Em4c", "sp6HM1dABxM", "DLqZDf6_tg0"] ∧
    (out.assets.map (·.name)).Nodup ∧
    (∀ before a behind, out.assets = before ++ a :: behind → ∀ d ∈ a.dependencies, d ∈ before.map (·.name)) ∧
    out.assets.Pairwise (fun a b => b.kind = .stylesheet → a.kind = .stylesheet) := by
  have hpage : (compiledPage styledPage {}).1.toOption.any (fun _ => true) = true ∧
      (Asset.missing? (Asset.mergeAll (registered styledPage {}))).isNone = true ∧
      (Asset.mergeAll (registered styledPage {})).map Asset.node =
        [⟨"viDlGR1Em4c", [], 1⟩, ⟨"sp6HM1dABxM", [], 0⟩, ⟨"DLqZDf6_tg0", ["sp6HM1dABxM"], 0⟩] ∧
      (registered styledPage {}).map (·.name) = ["viDlGR1Em4c", "sp6HM1dABxM", "DLqZDf6_tg0"] := by
    rw [registered, compiledPage, Markup.Document.parse_eq_ofChars styledPage String.toList_ofList]
    decide +kernel
  obtain ⟨hcompiled, hmissing, hnodes, hnames⟩ := hpage
  obtain ⟨out, hout, horder⟩ := exists_compile hcompiled hmissing hnodes (by cbv)
  have hdistinct : ((registered styledPage {}).map (·.name)).Nodup := by
    rw [hnames]
    decide
  have htells := tellsApart_registered
    (fun a ha b hb hname => congrArg Asset.content (List.inj_on_of_nodup_map hdistinct ha hb hname))
  obtain ⟨hnodup, -, hbefore, hsheets⟩ := compile_assets hout htells
  exact ⟨out, hout, horder, hnodup, hbefore, hsheets⟩

end ReactiveTemplate
