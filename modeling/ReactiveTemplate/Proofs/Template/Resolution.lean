import ReactiveTemplate.Proofs.Template.Places
/-!
# Resolution — when the assets of a page cannot be put in order

A component depends on components registered ahead of it, but assets of one content become one.
-/
set_option linter.all false

namespace ReactiveTemplate
open List

open Relation (TransGen ReflTransGen)

namespace Asset

variable {assets unique : List Asset} {x y : String}

/-! ## Merged assets -/

lemma Uses.merge (h : Uses unique x y) (asset : Asset) : Uses (merge unique asset) x y := by
  obtain ⟨a, ha, rfl, hy⟩ := h
  rw [Asset.merge]
  split
  · by_cases hname : a.name = asset.name
    · obtain ⟨dependencies, heq, hmem⟩ := foldl_dependsOn asset.dependencies a
      refine ⟨_, mem_map_of_mem ha, ?_⟩
      rw [if_pos (beq_iff_eq.2 hname), heq]
      exact ⟨rfl, (hmem y).2 (.inl hy)⟩
    · exact ⟨a, mem_map.2 ⟨a, ha, by simp [hname]⟩, rfl, hy⟩
  · exact ⟨a, mem_append_left _ ha, rfl, hy⟩

lemma uses_merge {asset : Asset} (hy : y ∈ asset.dependencies) (hne : y ≠ asset.name) :
    Uses (merge unique asset) asset.name y := by
  rw [merge]
  split
  · rename_i hany
    obtain ⟨a, ha, hname⟩ := any_eq_true.1 hany
    obtain ⟨dependencies, heq, hmem⟩ := foldl_dependsOn asset.dependencies a
    refine ⟨_, mem_map_of_mem ha, ?_⟩
    rw [if_pos hname, heq]
    have hname : a.name = asset.name := eq_of_beq hname
    exact ⟨hname, (hmem y).2 (.inr ⟨hy, hname ▸ hne⟩)⟩
  · exact ⟨asset, mem_append_right _ (mem_singleton_self _), rfl, hy⟩

lemma uses_foldl_merge (hne : y ≠ x) : ∀ more unique : List Asset, Uses unique x y ∨ Uses more x y →
    Uses (more.foldl merge unique) x y
  | [], _, h => h.resolve_right (fun ⟨_, ha, _⟩ => nomatch ha)
  | asset :: more, unique, h => by
    apply uses_foldl_merge hne more
    rcases h with h | ⟨a, ha, rfl, hy⟩
    · exact .inl (h.merge asset)
    · rcases mem_cons.1 ha with rfl | ha
      · exact .inl (uses_merge hy hne)
      · exact .inr ⟨a, ha, rfl, hy⟩

/-! ## Circles -/

lemma exists_rising {R : String → String → Prop} (rank : String → Nat) (h : TransGen R x x) :
    ∃ a b, R a b ∧ rank a ≤ rank b ∧ ReflTransGen R b a := by
  by_contra hnone
  have hfall : ∀ a b, R a b → ReflTransGen R b a → rank b < rank a :=
    fun a b hab hback => Nat.lt_of_not_le (fun hle => hnone ⟨a, b, hab, hle, hback⟩)
  have hrun : ∀ y, TransGen R x y → ReflTransGen R y x → rank y < rank x := by
    intro y hxy
    induction hxy with
    | single hxy => exact hfall _ _ hxy
    | tail hxb hbc ih =>
      intro hcx
      have hlt := hfall _ _ hbc (hcx.trans hxb.to_reflTransGen)
      exact hlt.trans (ih (.head hbc hcx))
  exact Nat.lt_irrefl _ (hrun x h .refl)

namespace Layered

lemma resolve_eq_error_iff (h : Layered assets) :
    (∃ fault, resolve assets = .error fault) ↔ ∃ x, TransGen (Uses assets) x x := by
  constructor
  · rintro ⟨fault, hfault⟩
    exact (cycle_of_resolve h.known hfault).2
  · rintro ⟨x, hx⟩
    cases hresolve : resolve assets with
    | error fault => exact ⟨fault, rfl⟩
    | ok out =>
      have hne : ∀ {x y : String}, Uses assets x y → y ≠ x := by
        rintro x y ⟨a, ha, rfl, hy⟩
        obtain ⟨before, behind, rfl⟩ := append_of_mem ha
        exact (h before a behind rfl y hy).1
      have hneeds : TransGen (Uses assets) ≤ TransGen (Graph.build ((mergeAll assets).map node)).Needs :=
        Relation.TransGen.mono (fun x y huses =>
          Graph.needs_build.2 (depends_node.2 (uses_foldl_merge (hne huses) assets [] (.inr huses))))
      exact absurd (hneeds x x hx) ((resolves_of_ok hresolve).acyclic x)

lemma exists_again (h : Layered assets) (hx : TransGen (Uses assets) x x) :
    ∃ (before : List Asset) (first : Asset) (between : List Asset) (again : Asset) (behind : List Asset),
      assets = before ++ first :: (between ++ again :: behind) ∧ again.name = first.name ∧
      ∃ y ∈ again.dependencies, y ∈ between.map (·.name) ∧ TransGen (Uses assets) y first.name := by
  -- of two names that depend on each other, the one that depends comes up first
  obtain ⟨_, y, ⟨again, hagain, rfl, hy⟩, hle, hback⟩ := exists_rising ((assets.map (·.name)).idxOf ·) hx
  obtain ⟨front, behind, rfl⟩ := append_of_mem hagain
  obtain ⟨hne, hfront⟩ := h front again behind rfl y hy
  rw [map_append, idxOf_append_of_mem hfront] at hle
  have hname : again.name ∈ front.map (·.name) := by
    by_contra hnew
    rw [idxOf_append_of_notMem hnew] at hle
    have := idxOf_lt_length_of_mem hfront
    omega
  rw [idxOf_append_of_mem hname] at hle
  obtain ⟨earlier, later, hsplit, hfresh⟩ := eq_append_cons_of_mem hname
  obtain ⟨before, rest, rfl, rfl, hrest⟩ := map_eq_append_iff.1 hsplit
  obtain ⟨first, between, rfl, hfirst, rfl⟩ := map_eq_cons_iff.1 hrest
  have hbetween : y ∈ between.map (·.name) := by
    rw [hsplit, mem_append, mem_cons] at hfront
    rcases hfront with hbefore | rfl | hbetween
    · rw [hsplit, idxOf_append_of_mem hbefore, idxOf_append_of_notMem hfresh] at hle
      have := idxOf_lt_length_of_mem hbefore
      omega
    · exact absurd rfl hne
    · exact hbetween
  have hleads := (Relation.reflTransGen_iff_eq_or_transGen.1 hback).resolve_left hne.symm
  exact ⟨before, first, between, again, behind, by simp, hfirst.symm, y, hy, hbetween, hfirst ▸ hleads⟩

end Layered
end Asset

/-! ## Pages -/

variable {source : String} {options : CompileOptions}

lemma Fault.code_of_isOfTemplate {fault : Fault} (h : fault.isOfTemplate = true) :
    fault.code ≠ "asset.dependency.notfound" ∧ fault.code ≠ "asset.graph.circulardep" := by
  cases fault <;> simp_all [isOfTemplate, code]

lemma isOfTemplate_of_compiledPage {d : Diagnostic} (h : (compiledPage source options).1 = .error d) :
    d.fault.isOfTemplate = true := by
  cases hparse : Markup.Document.parse source options.file with
  | ok doc =>
    have hself := (compiledPage_inStep options options rfl hparse).1
    rw [h] at hself
    obtain ⟨_, -, hreported⟩ := hself.of_error
    exact hreported.ofTemplate
  | error e =>
    obtain rfl : e = d := Except.error.inj ((compiledPage_of_parse hparse).symm.trans h)
    have hself := Markup.Document.parse_inFile source options.file options.file
    rw [hparse] at hself
    obtain ⟨_, -, hsame⟩ := hself.of_error
    exact hsame.ofTemplate

lemma code_of_compile {d : Diagnostic} (h : compile source options = .error d) :
    d.code ≠ "asset.dependency.notfound" ∧ (d.code = "asset.graph.circulardep" ↔
      ∃ compiled fault, (compiledPage source options).1 = .ok compiled ∧
        Asset.resolve (registered source options) = .error fault) := by
  rcases compile_eq_error.1 h with hpage | ⟨compiled, fault, hpage, hresolve, rfl⟩
  · obtain ⟨hfound, hcircular⟩ := Fault.code_of_isOfTemplate (isOfTemplate_of_compiledPage hpage)
    refine ⟨hfound, fun hcode => absurd hcode hcircular, ?_⟩
    rintro ⟨compiled, -, hcompiled, -⟩
    rw [hpage] at hcompiled
    cases hcompiled
  · have hcode : fault.toDiagnostic.code = "asset.graph.circulardep" :=
      (Asset.cycle_of_resolve (layered_registered source options).known hresolve).1
    exact ⟨by rw [hcode]; decide, fun _ => ⟨compiled, fault, hpage, hresolve⟩, fun _ => hcode⟩

lemma exists_circular_iff :
    (∃ d, compile source options = .error d ∧ d.code = "asset.graph.circulardep") ↔
      (∃ compiled, (compiledPage source options).1 = .ok compiled) ∧
        ∃ x, TransGen (Asset.Uses (registered source options)) x x := by
  rw [← (layered_registered source options).resolve_eq_error_iff]
  constructor
  · rintro ⟨d, h, hcode⟩
    obtain ⟨compiled, fault, hpage, hresolve⟩ := (code_of_compile h).2.1 hcode
    exact ⟨⟨compiled, hpage⟩, fault, hresolve⟩
  · rintro ⟨⟨compiled, hpage⟩, fault, hresolve⟩
    have h := compile_eq_error.2 (.inr ⟨compiled, fault, hpage, hresolve, rfl⟩)
    exact ⟨_, h, (code_of_compile h).2.2 ⟨compiled, fault, hpage, hresolve⟩⟩

/-- **Circles come from components that are declared again.**  Whatever the assets of a page depend on is there.  As long
as the hash tells their contents apart, they cannot be put in order exactly if an asset comes up again that now depends on
one registered in between, and that one depends on the first. -/
theorem compile_circular_iff {source : String} {options : CompileOptions}
    (htells : Digest.TellsApart ((registered source options).map (·.content))) :
    (∀ d, compile source options = .error d → d.code ≠ "asset.dependency.notfound") ∧
      ((∃ d, compile source options = .error d ∧ d.code = "asset.graph.circulardep") ↔
        (∃ compiled, (compiledPage source options).1 = .ok compiled) ∧
        ∃ before first between again behind,
          registered source options = before ++ first :: (between ++ again :: behind) ∧ again.content = first.content ∧
          ∃ x ∈ again.dependencies, x ∈ between.map (·.name) ∧
            TransGen (Asset.Uses (registered source options)) x first.name) := by
  have hsourced := sourced_compiledPage source options
  refine ⟨fun d h => (code_of_compile h).1, exists_circular_iff.trans (and_congr_right fun _ => ⟨?_, ?_⟩)⟩
  · rintro ⟨x, hx⟩
    obtain ⟨before, first, between, again, behind, heq, hname, huses⟩ := (layered_registered source options).exists_again hx
    have hfirst : first ∈ registered source options := by simp [heq]
    have hagain : again ∈ registered source options := by simp [heq]
    exact ⟨before, first, between, again, behind, heq, hsourced.content_eq htells hagain hfirst hname, huses⟩
  · rintro ⟨before, first, between, again, behind, heq, hcontent, x, hx, -, hback⟩
    have hfirst : first ∈ registered source options := by simp [heq]
    have hagain : again ∈ registered source options := by simp [heq]
    have hname : again.name = first.name := by rw [hsourced.name_eq hagain, hsourced.name_eq hfirst, hcontent]
    exact ⟨first.name, .head ⟨again, hagain, hname, hx⟩ hback⟩

def circling : String :=
  "<component name=a></component><component name=b><a/></component><component name=a><b/></component>"

lemma compiledPage_circling : (compiledPage circling {}).1.toOption.any (fun _ => true) = true ∧
    (registered circling {}).map (fun a => (a.name, a.dependencies)) =
      [("DLqZDf6_tg0", []), ("sp6HM1dABxM", ["DLqZDf6_tg0"]), ("DLqZDf6_tg0", ["sp6HM1dABxM"])] ∧
    ∀ a ∈ registered circling {}, ∀ b ∈ registered circling {}, a.name = b.name → a.content = b.content := by
  rw [registered, compiledPage, Markup.Document.parse_eq_ofChars circling String.toList_ofList]
  decide +kernel

lemma circle_circling : (∃ compiled, (compiledPage circling {}).1 = .ok compiled) ∧
    ∃ x, TransGen (Asset.Uses (registered circling {})) x x := by
  obtain ⟨hcompiled, hassets, -⟩ := compiledPage_circling
  obtain ⟨compiled, hcompiled, -⟩ := exists_ok_of_any hcompiled
  have huses : ∀ x y, (x, [y]) ∈ (registered circling {}).map (fun a => (a.name, a.dependencies)) →
      Asset.Uses (registered circling {}) x y := by
    intro x y hxy
    obtain ⟨a, ha, heq⟩ := mem_map.1 hxy
    obtain ⟨hname, hdependencies⟩ := Prod.mk.inj heq
    exact ⟨a, ha, hname, by simp [hdependencies]⟩
  exact ⟨⟨compiled, hcompiled⟩, "DLqZDf6_tg0",
    .tail (.single (huses "DLqZDf6_tg0" "sp6HM1dABxM" (by simp [hassets])))
      (huses "sp6HM1dABxM" "DLqZDf6_tg0" (by simp [hassets]))⟩

theorem compile_circular_iff_circling :
    ∃ before first between again behind,
      registered circling {} = before ++ first :: (between ++ again :: behind) ∧ again.content = first.content ∧
      ∃ x ∈ again.dependencies, x ∈ between.map (·.name) ∧
        TransGen (Asset.Uses (registered circling {})) x first.name := by
  have htells := tellsApart_registered compiledPage_circling.2.2
  exact ((compile_circular_iff htells).2.1 (exists_circular_iff.2 circle_circling)).2

/-- Its assets cannot be put in order. -/
theorem compile_circling : ∃ d, compile circling {} = .error d ∧ d.code = "asset.graph.circulardep" :=
  exists_circular_iff.2 circle_circling

end ReactiveTemplate
