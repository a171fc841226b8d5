import ReactiveTemplate.Asset
import ReactiveTemplate.Proofs.Graph.Sorting
/-!
# Loading — assets in the order that they load in

Assets of one name are merged (`merges_mergeAll`).
-/
set_option linter.all false

namespace ReactiveTemplate.Asset
open List

variable {a : Asset}

/-! ## Dependencies -/

/-- The dependencies that an asset takes over: not one on itself, and none that it has already. -/
def added (a : Asset) (names : List String) : List String :=
  (names.filter (fun d => d != a.name && !a.dependencies.contains d)).eraseDups

lemma foldl_dependsOn_eq (names : List String) : ∀ a : Asset,
    names.foldl dependsOn a = { a with dependencies := a.dependencies ++ added a names } := by
  induction names with
  | nil => exact fun a => by simp [added]
  | cons name names ih =>
    intro a
    rw [foldl_cons, ih, dependsOn]
    split
    · rename_i hskip
      have hadded : added a (name :: names) = added a names := by
        rw [added, filter_cons_of_neg, added]
        simpa [or_iff_not_imp_left] using hskip
      rw [hadded]
    · rename_i hnew
      have hkept : (name != a.name && !a.dependencies.contains name) = true := by simpa [not_or] using hnew
      have hadded : added a (name :: names) = name :: added { a with dependencies := a.dependencies ++ [name] } names := by
        simp only [added]
        rw [filter_cons, if_pos hkept, eraseDups_cons, filter_filter]
        refine congrArg (fun ds => name :: eraseDups ds) (filter_congr fun d _ => ?_)
        by_cases hd : d = name <;> simp [hd, Bool.and_comm]
      simp [hadded]

lemma name_foldl_dependsOn (names : List String) (a : Asset) : (names.foldl dependsOn a).name = a.name := by
  rw [foldl_dependsOn_eq]

lemma foldl_dependsOn (names : List String) (a : Asset) : ∃ dependencies,
    names.foldl dependsOn a = { a with dependencies } ∧
      ∀ d, d ∈ dependencies ↔ d ∈ a.dependencies ∨ d ∈ names ∧ d ≠ a.name := by
  refine ⟨a.dependencies ++ added a names, foldl_dependsOn_eq names a, fun d => ?_⟩
  rw [added]
  by_cases hd : d ∈ a.dependencies <;> simp [hd]

/-! ## Merging -/

/-- One asset for each name: the first of that name, with dependencies of all of them. -/
structure Merges (unique assets : List Asset) : Prop where
  nodup : (unique.map (·.name)).Nodup
  names : ∀ x, x ∈ unique.map (·.name) ↔ x ∈ assets.map (·.name)
  first : ∀ u ∈ unique, ∃ a ∈ assets, u = { a with dependencies := u.dependencies }
  needed : ∀ u ∈ unique, ∀ d ∈ u.dependencies, ∃ a ∈ assets, a.name = u.name ∧ d ∈ a.dependencies

namespace Merges

variable {unique assets : List Asset} {asset : Asset}

lemma extend (h : Merges unique assets) (hmem : asset.name ∈ unique.map (·.name)) :
    Merges (merge unique asset) (assets ++ [asset]) := by
  have hany : unique.any (fun a => a.name == asset.name) = true := by
    simpa [any_eq_true] using hmem
  rw [merge, if_pos hany]
  -- What becomes of an asset that is there.
  have hchange : ∀ u, ∃ dependencies,
      (if u.name == asset.name then asset.dependencies.foldl dependsOn u else u) = { u with dependencies } ∧
        ∀ d ∈ dependencies, d ∈ u.dependencies ∨ u.name = asset.name ∧ d ∈ asset.dependencies := by
    intro u
    by_cases hname : u.name = asset.name
    · obtain ⟨dependencies, heq, hdeps⟩ := foldl_dependsOn asset.dependencies u
      refine ⟨dependencies, by rw [if_pos (beq_iff_eq.2 hname), heq], fun d hd => ?_⟩
      exact ((hdeps d).1 hd).imp_right fun h => ⟨hname, h.1⟩
    · exact ⟨u.dependencies, by rw [if_neg (fun h => hname (beq_iff_eq.1 h))], fun d hd => .inl hd⟩
  have hnames : (unique.map (fun a => if a.name == asset.name then asset.dependencies.foldl dependsOn a else a)).map
      (·.name) = unique.map (·.name) := by
    rw [map_map]
    refine map_congr_left fun u _ => ?_
    obtain ⟨dependencies, heq, -⟩ := hchange u
    simp only [Function.comp_apply, heq]
  refine ⟨by rw [hnames]; exact h.nodup, fun x => ?_, fun u hu => ?_, fun u hu d hd => ?_⟩
  · rw [hnames, map_append, map_singleton, mem_append, mem_singleton, ← h.names]
    exact ⟨.inl, fun hx => hx.elim id (fun heq => heq ▸ hmem)⟩
  · obtain ⟨v, hv, rfl⟩ := mem_map.1 hu
    obtain ⟨dependencies, heq, -⟩ := hchange v
    obtain ⟨a, ha, hfirst⟩ := h.first v hv
    refine ⟨a, mem_append_left _ ha, ?_⟩
    rw [heq]
    exact congrArg (fun v : Asset => { v with dependencies }) hfirst
  · obtain ⟨v, hv, rfl⟩ := mem_map.1 hu
    obtain ⟨dependencies, heq, hdeps⟩ := hchange v
    rw [heq] at hd ⊢
    rcases hdeps d hd with hold | ⟨hname, hnew⟩
    · obtain ⟨a, ha, haname, had⟩ := h.needed v hv d hold
      exact ⟨a, mem_append_left _ ha, haname, had⟩
    · exact ⟨asset, mem_append_right _ mem_cons_self, hname.symm, hnew⟩

lemma add (h : Merges unique assets) (hnew : asset.name ∉ unique.map (·.name)) :
    Merges (merge unique asset) (assets ++ [asset]) := by
  have hany : ¬ unique.any (fun a => a.name == asset.name) = true := by
    simpa [any_eq_true] using hnew
  rw [merge, if_neg hany]
  refine ⟨?_, fun x => ?_, fun u hu => ?_, fun u hu d hd => ?_⟩
  · simpa using List.Nodup.concat hnew h.nodup
  · rw [map_append, map_append, mem_append, mem_append, h.names]
  · rcases mem_append.1 hu with hu | hu
    · obtain ⟨a, ha, hfirst⟩ := h.first u hu
      exact ⟨a, mem_append_left _ ha, hfirst⟩
    · rw [mem_singleton.1 hu]
      exact ⟨asset, mem_append_right _ mem_cons_self, rfl⟩
  · rcases mem_append.1 hu with hu | hu
    · obtain ⟨a, ha, hname, had⟩ := h.needed u hu d hd
      exact ⟨a, mem_append_left _ ha, hname, had⟩
    · obtain rfl := mem_singleton.1 hu
      exact ⟨u, mem_append_right _ mem_cons_self, rfl, hd⟩

lemma foldl {more : List Asset} (h : Merges unique assets) : Merges (more.foldl merge unique) (assets ++ more) := by
  induction more generalizing unique assets with
  | nil => simpa using h
  | cons asset more ih =>
    have hstep : Merges (merge unique asset) (assets ++ [asset]) := by
      by_cases hmem : asset.name ∈ unique.map (·.name)
      · exact h.extend hmem
      · exact h.add hmem
    rw [append_cons]
    exact ih hstep

end Merges

lemma merges_mergeAll (assets : List Asset) : Merges (mergeAll assets) assets := by
  have hnil : Merges [] [] := ⟨nodup_nil, by simp, by simp, by simp⟩
  exact hnil.foldl

/-! ## The order -/

variable {assets out unique : List Asset} {x y : String}

lemma missing?_eq_none (h : missing? unique = none) (ha : a ∈ unique) {d : String}
    (hd : d ∈ a.dependencies) : d ∈ unique.map (·.name) := by
  have hfind := Option.map_eq_none_iff.1 (findSome?_eq_none_iff.1 h a ha)
  have hany := find?_eq_none.1 hfind d hd
  simpa [any_eq_true] using hany

lemma depends_node : Graph.Depends (unique.map node) x y ↔ ∃ a ∈ unique, a.name = x ∧ y ∈ a.dependencies := by
  simp [Graph.Depends, node]

lemma resolve_eq_ok : resolve assets = .ok out ↔
    missing? (mergeAll assets) = none ∧ ∃ names, Graph.sort ((mergeAll assets).map node) = .ok names ∧
      out = names.filterMap (fun name => (mergeAll assets).find? (fun a => a.name == name)) := by
  unfold resolve
  simp only
  cases missing? (mergeAll assets) with
  | some found => simp
  | none =>
    cases Graph.sort ((mergeAll assets).map node) with
    | error fault => simp [Except.mapError]
    | ok names => simp [bind, Except.bind, pure, Except.pure, Except.mapError, eq_comm]

lemma map_name_filterMap_find? {names : List String} (h : ∀ x ∈ names, x ∈ unique.map (·.name)) :
    (names.filterMap (fun name => unique.find? (fun a => a.name == name))).map (·.name) = names := by
  induction names with
  | nil => rfl
  | cons x names ih =>
    have hrest := ih (fun y hy => h y (.tail _ hy))
    cases hfind : unique.find? (fun a => a.name == x) with
    | none =>
      obtain ⟨a, ha, hname⟩ := mem_map.1 (h x (.head _))
      exact absurd (beq_iff_eq.2 hname) (find?_eq_none.1 hfind a ha)
    | some a =>
      have hname : a.name = x := by simpa using find?_some hfind
      rw [filterMap_cons, hfind, map_cons, hname, hrest]

structure Resolves (assets out : List Asset) : Prop where
  acyclic : (Graph.build ((mergeAll assets).map node)).Acyclic
  names : out.map (·.name) = (Graph.build ((mergeAll assets).map node)).order
  subset : out ⊆ mergeAll assets

lemma resolves_of_ok (h : resolve assets = .ok out) : Resolves assets out := by
  obtain ⟨hmissing, names, hsort, rfl⟩ := resolve_eq_ok.1 h
  obtain ⟨hknown, rfl⟩ := Graph.sort_eq_ok.1 hsort
  have hg := Graph.wellFormed_build ((mergeAll assets).map node)
  have hacyclic := (Graph.checkAcyclic_eq_ok_iff hg).1 hknown
  refine ⟨hacyclic, map_name_filterMap_find? fun x hx => ?_, fun a ha => ?_⟩
  · obtain ⟨n, hn, hmention⟩ := Graph.mem_names_build.1 ((Graph.mem_order hg hacyclic).1 hx)
    obtain ⟨a, ha, rfl⟩ := mem_map.1 hn
    rcases hmention with rfl | hdep
    · exact mem_map_of_mem ha
    · exact missing?_eq_none hmissing ha hdep
  · obtain ⟨name, -, hfind⟩ := mem_filterMap.1 ha
    exact mem_of_find?_eq_some hfind

lemma mem_of_idxOf_lt {xs ys : List String} (hnodup : (xs ++ x :: ys).Nodup)
    (h : (xs ++ x :: ys).idxOf y < (xs ++ x :: ys).idxOf x) : y ∈ xs := by
  have hx : x ∉ xs := fun hmem => (nodup_append.1 hnodup).2.2 x hmem x (.head _) rfl
  rw [idxOf_append_of_notMem hx, idxOf_cons_self] at h
  by_contra hy
  rw [idxOf_append_of_notMem hy] at h
  omega

namespace Resolves

variable {assets out : List Asset}

lemma nodup (h : Resolves assets out) : (out.map (·.name)).Nodup := by
  rw [h.names]
  exact (Graph.grows_order (Graph.wellFormed_build _) h.acyclic).placed.nodup

lemma mem_names (h : Resolves assets out) (ha : a ∈ assets) : a.name ∈ out.map (·.name) := by
  rw [h.names, Graph.mem_order (Graph.wellFormed_build _) h.acyclic, Graph.mem_names_build]
  obtain ⟨u, hu, hname⟩ := mem_map.1 (((merges_mergeAll assets).names a.name).2 (mem_map_of_mem ha))
  exact ⟨u.node, mem_map_of_mem hu, .inl hname⟩

lemma mem_before (h : Resolves assets out) {before behind : List Asset}
    (hsplit : out = before ++ a :: behind) {d : String} (hd : d ∈ a.dependencies) : d ∈ before.map (·.name) := by
  have hg := Graph.wellFormed_build ((mergeAll assets).map node)
  have ha : a ∈ out := hsplit ▸ mem_append_right _ (.head _)
  have hneeds := Graph.needs_build.2 (depends_node.2 ⟨a, h.subset ha, rfl, hd⟩)
  have hmem : a.name ∈ (Graph.build ((mergeAll assets).map node)).order :=
    (Graph.mem_order hg h.acyclic).2 (hg.mem_names hneeds).1
  have hlt := (Graph.grows_order hg h.acyclic).placed.idxOf_lt hmem hneeds
  have hnodup := h.nodup
  rw [← h.names, hsplit, map_append] at hlt
  rw [hsplit, map_append] at hnodup
  exact mem_of_idxOf_lt hnodup hlt

end Resolves

/-! ## Style sheets -/

/-- Assets whose style sheets stand alone: they depend on nothing, and neither their names nor any dependency leads to
both kinds. -/
structure SheetsApart (assets : List Asset) : Prop where
  priority : ∀ a ∈ assets, a.priority = a.kind.priority
  sheets : ∀ a ∈ assets, a.kind = .stylesheet → a.dependencies = []
  kinds : ∀ a ∈ assets, ∀ b ∈ assets, a.name = b.name → a.kind = b.kind
  scripts : ∀ a ∈ assets, ∀ b ∈ assets, b.name ∈ a.dependencies → b.kind = .javascript

def NamesSheet (assets : List Asset) (x : String) : Prop := ∃ a ∈ assets, a.name = x ∧ a.kind = .stylesheet

lemma exists_of_mem_mergeAll {u : Asset} (hu : u ∈ mergeAll assets) :
    ∃ a ∈ assets, a.name = u.name ∧ a.kind = u.kind ∧ a.priority = u.priority ∧ a.content = u.content := by
  obtain ⟨a, ha, heq⟩ := (merges_mergeAll assets).first u hu
  exact ⟨a, ha, by rw [heq], by rw [heq], by rw [heq], by rw [heq]⟩

lemma exists_of_needs
    (h : (Graph.build ((mergeAll assets).map node)).Needs x y) : ∃ a ∈ assets, a.name = x ∧ y ∈ a.dependencies := by
  obtain ⟨u, hu, rfl, hd⟩ := depends_node.1 (Graph.needs_build.1 h)
  exact (merges_mergeAll assets).needed u hu y hd

def Uses (assets : List Asset) (x y : String) : Prop := ∃ a ∈ assets, a.name = x ∧ y ∈ a.dependencies

lemma cycle_of_resolve {fault : Fault} (hknown : ∀ x y, Uses assets x y → y ∈ assets.map (·.name))
    (h : resolve assets = .error fault) :
    fault.code = "asset.graph.circulardep" ∧ ∃ x, Relation.TransGen (Uses assets) x x := by
  have hmerges := merges_mergeAll assets
  have hmissing : missing? (mergeAll assets) = none := by
    refine findSome?_eq_none_iff.2 (fun u hu => Option.map_eq_none_iff.2 (find?_eq_none.2 (fun d hd => ?_)))
    obtain ⟨a, ha, -, hneeded⟩ := hmerges.needed u hu d hd
    obtain ⟨v, hv, rfl⟩ := mem_map.1 ((hmerges.names d).2 (hknown _ d ⟨a, ha, rfl, hneeded⟩))
    simpa using ⟨v, hv, rfl⟩
  rw [resolve] at h
  simp only [hmissing] at h
  have hg := Graph.wellFormed_build ((mergeAll assets).map node)
  rw [Graph.sort] at h
  cases hcheck : (Graph.build ((mergeAll assets).map node)).checkAcyclic with
  | ok known =>
    rw [hcheck] at h
    cases h
  | error e =>
    rw [hcheck] at h
    have hgenuine := Graph.genuine_of_checkAcyclic hcheck
    have hcycle := hgenuine.not_acyclic hg
    rw [Graph.Acyclic, not_forall_not] at hcycle
    obtain ⟨x, hx⟩ := hcycle
    have huses : Relation.TransGen _ ≤ Relation.TransGen (Uses assets) :=
      Relation.TransGen.mono (fun _ _ => exists_of_needs)
    refine ⟨?_, x, huses x x hx⟩
    cases h
    cases e with
    | cycle start finish path back => rfl
    | _ => exact hgenuine.elim

namespace SheetsApart

variable {assets out : List Asset}

lemma priority_build (h : SheetsApart assets) (ha : a ∈ assets) :
    (Graph.build ((mergeAll assets).map node)).priority a.name = a.kind.priority := by
  obtain ⟨u, hu, hname⟩ := mem_map.1 (((merges_mergeAll assets).names a.name).2 (mem_map_of_mem ha))
  obtain ⟨m, hm, hmname, hvalue⟩ := Graph.priority_build (mem_map_of_mem (f := node) hu)
  obtain ⟨v, hv, rfl⟩ := mem_map.1 hm
  obtain ⟨b, hb, hbname, -, hbpriority, -⟩ := exists_of_mem_mergeAll hv
  have hsame : b.name = a.name := (hbname.trans hmname).trans hname
  rw [← hname, ← h.kinds b hb a ha hsame, ← h.priority b hb, hbpriority]
  exact hvalue

lemma free (h : SheetsApart assets) {x : String} (hx : NamesSheet assets x) :
    (Graph.build ((mergeAll assets).map node)).dependents x = [] ∧
      (Graph.build ((mergeAll assets).map node)).dependencies x = [] := by
  obtain ⟨a, ha, rfl, hkind⟩ := hx
  constructor
  · refine eq_nil_iff_forall_not_mem.2 fun y hy => ?_
    obtain ⟨b, hb, -, hdep⟩ := exists_of_needs ((Graph.mem_dependents (Graph.nodup_names_build _)).1 hy)
    have := (h.scripts b hb a ha hdep).symm.trans hkind
    cases this
  · refine eq_nil_iff_forall_not_mem.2 fun y hy => ?_
    obtain ⟨b, hb, hname, hdep⟩ := exists_of_needs hy
    rw [h.sheets b hb ((h.kinds b hb a ha hname).trans hkind)] at hdep
    cases hdep

lemma priority_lt (h : SheetsApart assets) {b : Asset} (ha : a ∈ assets) (hb : b ∈ assets)
    (hsheet : NamesSheet assets a.name) (hscript : ¬ NamesSheet assets b.name) :
    (Graph.build ((mergeAll assets).map node)).priority b.name <
      (Graph.build ((mergeAll assets).map node)).priority a.name := by
  obtain ⟨c, hc, hname, hkind⟩ := hsheet
  rw [h.priority_build ha, h.priority_build hb, h.kinds a ha c hc hname.symm, hkind]
  cases hbkind : b.kind with
  | javascript => decide
  | stylesheet => exact absurd ⟨b, hb, rfl, hbkind⟩ hscript

end SheetsApart

lemma idxOf_map_name_getElem (h : (out.map (·.name)).Nodup) {i : Nat} (hi : i < out.length) :
    (out.map (·.name)).idxOf out[i].name = i := by
  have hidx := h.idxOf_getElem i (by simpa using hi)
  simpa using hidx

lemma Resolves.stylesheets_first (h : Resolves assets out) (hapart : SheetsApart assets) :
    out.Pairwise (fun a b => b.kind = .stylesheet → a.kind = .stylesheet) := by
  have hg := Graph.wellFormed_build ((mergeAll assets).map node)
  have hmem : ∀ {x}, x ∈ (Graph.build ((mergeAll assets).map node)).names ↔ x ∈ out.map (·.name) := by
    intro x
    rw [← Graph.mem_order hg h.acyclic, ← h.names]
  have hlt : ∀ a ∈ out, ∀ b ∈ out, a.kind = .stylesheet → b.kind ≠ .stylesheet →
      (out.map (·.name)).idxOf a.name < (out.map (·.name)).idxOf b.name := by
    intro a ha b hb hakind hbkind
    obtain ⟨a', ha', haname, hakind', -⟩ := exists_of_mem_mergeAll (h.subset ha)
    obtain ⟨b', hb', hbname, hbkind', -⟩ := exists_of_mem_mergeAll (h.subset hb)
    rw [h.names]
    refine Graph.idxOf_order_lt hg h.acyclic (fun x _ hx => hapart.free hx) ?_
      (hmem.2 (mem_map_of_mem ha)) ⟨a', ha', haname, hakind'.trans hakind⟩ ?_
    · intro x hx y hy hPx hPy
      obtain ⟨u, hu, rfl⟩ := mem_map.1 (hmem.1 hx)
      obtain ⟨v, hv, rfl⟩ := mem_map.1 (hmem.1 hy)
      obtain ⟨c, hc, hcname, -⟩ := exists_of_mem_mergeAll (h.subset hu)
      obtain ⟨d, hd, hdname, -⟩ := exists_of_mem_mergeAll (h.subset hv)
      simp only [← hcname, ← hdname] at hPx hPy ⊢
      exact hapart.priority_lt hc hd hPx hPy
    · rintro ⟨c, hc, hcname, hckind⟩
      exact hbkind (hbkind'.symm.trans ((hapart.kinds b' hb' c hc (hbname.trans hcname.symm)).trans hckind))
  rw [pairwise_iff_getElem]
  intro i j hi hj hij hsheet
  by_contra hscript
  have hback := hlt _ (getElem_mem hj) _ (getElem_mem hi) hsheet hscript
  rw [idxOf_map_name_getElem h.nodup hi, idxOf_map_name_getElem h.nodup hj] at hback
  omega

end ReactiveTemplate.Asset
