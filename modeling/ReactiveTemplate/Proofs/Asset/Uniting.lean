import ReactiveTemplate.Proofs.Asset.Loading
/-!
# Uniting — no asset is lost

Assets of one name become the first of them, with the dependencies of the others behind its own (`united?`,
`find?_mergeAll`).
-/
set_option linter.all false

namespace ReactiveTemplate.Asset
open List

open Relation (TransGen)

variable {assets : List Asset} {a : Asset} {x y : String}

/-! ## What assets of one name become -/

def united? (assets : List Asset) (name : String) : Option Asset :=
  match assets.filter (fun a => a.name == name) with
  | [] => none
  | first :: others =>
    some { first with dependencies := first.dependencies ++ added first (others.flatMap (·.dependencies)) }

/-! ## Merging one asset after the other -/

/-- What an asset becomes of those that were merged before it. -/
def joined (found : Option Asset) (asset : Asset) : Asset :=
  match found with
  | none => asset
  | some first => asset.dependencies.foldl dependsOn first

lemma find?_merge (unique : List Asset) (asset : Asset) (x : String) :
    (merge unique asset).find? (fun a => a.name == x) =
      if asset.name = x then some (joined (unique.find? (fun a => a.name == x)) asset)
      else unique.find? (fun a => a.name == x) := by
  rw [merge]
  split
  · rename_i hany
    -- the names stay as they are, so the same place is found
    have hsame : ((fun a : Asset => a.name == x) ∘ fun a =>
        if a.name == asset.name then asset.dependencies.foldl dependsOn a else a) = fun a => a.name == x := by
      funext a
      simp only [Function.comp_apply]
      split
      · rw [name_foldl_dependsOn]
      · rfl
    rw [find?_map, hsame]
    cases hfind : unique.find? (fun a => a.name == x) with
    | none =>
      obtain ⟨a, ha, hname⟩ := any_eq_true.1 hany
      have hx : asset.name ≠ x := fun h => find?_eq_none.1 hfind a ha (h ▸ hname)
      rw [if_neg hx]
      rfl
    | some a =>
      have hname : a.name = x := by simpa using find?_some hfind
      by_cases hx : asset.name = x
      · simp [hx, hname, joined]
      · simp [hx, hname, Ne.symm hx]
  · rename_i hany
    by_cases hx : asset.name = x
    · have hnone : unique.find? (fun a => a.name == x) = none := by
        refine find?_eq_none.2 fun a ha hname => hany (any_eq_true.2 ⟨a, ha, ?_⟩)
        rw [hx]
        exact hname
      simp [hnone, joined]
    · simp [hx]

lemma united?_append (assets : List Asset) (asset : Asset) (x : String) :
    united? (assets ++ [asset]) x =
      if asset.name = x then some (joined (united? assets x) asset) else united? assets x := by
  by_cases hx : asset.name = x
  · rw [if_pos hx, united?, united?, filter_append, filter_singleton, beq_iff_eq.2 hx]
    cases assets.filter (fun a => a.name == x) with
    | nil => simp [joined, added]
    | cons first others =>
      simp only [cons_append, joined, ← foldl_dependsOn_eq, flatMap_append, foldl_append,
        cond_true, flatMap_singleton]
  · rw [if_neg hx, united?, united?, filter_append, filter_singleton, beq_false_of_ne hx]
    simp

lemma find?_mergeAll (assets : List Asset) (x : String) :
    (mergeAll assets).find? (fun a => a.name == x) = united? assets x := by
  induction assets using reverseRecOn with
  | nil => rfl
  | append_singleton assets asset ih =>
    rw [mergeAll, foldl_append, foldl_cons, foldl_nil, find?_merge, united?_append, ← ih, mergeAll]

lemma united?_eq_some : united? assets x = some a ↔ a ∈ mergeAll assets ∧ a.name = x := by
  rw [← find?_mergeAll]
  constructor
  · exact fun h => ⟨mem_of_find?_eq_some h, by simpa using find?_some h⟩
  · rintro ⟨ha, rfl⟩
    cases hfind : (mergeAll assets).find? (fun b => b.name == a.name) with
    | none => exact absurd (beq_self_eq_true a.name) (find?_eq_none.1 hfind a ha)
    | some b =>
      have hb := mem_of_find?_eq_some hfind
      have hname : b.name = a.name := by simpa using find?_some hfind
      rw [inj_on_of_nodup_map (merges_mergeAll assets).nodup hb ha hname]

/-! ## What assets depend on -/

def Requires (assets : List Asset) (x y : String) : Prop := ∃ a, united? assets x = some a ∧ y ∈ a.dependencies

def AllKnown (assets : List Asset) : Prop := ∀ x y, Requires assets x y → y ∈ assets.map (·.name)

lemma requires_iff : Requires assets x y ↔ Graph.Depends ((mergeAll assets).map node) x y := by
  simp only [Requires, united?_eq_some, depends_node, and_assoc]

lemma missing?_eq_none_iff : missing? (mergeAll assets) = none ↔ AllKnown assets := by
  simp only [AllKnown, requires_iff, depends_node, ← (merges_mergeAll assets).names]
  constructor
  · rintro h x y ⟨a, ha, -, hy⟩
    exact missing?_eq_none h ha hy
  · intro h
    refine findSome?_eq_none_iff.2 fun a ha => Option.map_eq_none_iff.2 (find?_eq_none.2 fun d hd => ?_)
    have hknown := h a.name d ⟨a, ha, rfl, hd⟩
    simpa [any_eq_true] using hknown

lemma acyclic_iff : (Graph.build ((mergeAll assets).map node)).Acyclic ↔ ∀ x, ¬ TransGen (Requires assets) x x := by
  have hrequires : Graph.Depends ((mergeAll assets).map node) = Requires assets :=
    funext fun x => funext fun y => propext requires_iff.symm
  rw [Graph.acyclic_build, hrequires]

/-! ## Whether assets can be put in order -/

lemma resolve_of_unknown (h : ¬ AllKnown assets) :
    ∃ fault, resolve assets = .error fault ∧ fault.code = "asset.dependency.notfound" := by
  cases hmissing : missing? (mergeAll assets) with
  | none => exact absurd (missing?_eq_none_iff.1 hmissing) h
  | some found =>
    refine ⟨.assetDependency found.1.name found.2, ?_, rfl⟩
    rw [resolve]
    simp only [hmissing]
    rfl

lemma resolve_of_known (h : AllKnown assets) :
    resolve assets = ((Graph.sort ((mergeAll assets).map node)).mapError ofCycle).map
      (fun names => names.filterMap (fun name => (mergeAll assets).find? (fun a => a.name == name))) := by
  rw [resolve]
  simp only [missing?_eq_none_iff.2 h]
  cases Graph.sort ((mergeAll assets).map node) <;> rfl

lemma resolve_of_circular (hknown : AllKnown assets) (hcircle : ¬ ∀ x, ¬ TransGen (Requires assets) x x) :
    ∃ fault, resolve assets = .error fault ∧ fault.code = "asset.graph.circulardep" := by
  rw [← acyclic_iff, ← Graph.checkAcyclic_eq_ok_iff (Graph.wellFormed_build _)] at hcircle
  cases hcheck : (Graph.build ((mergeAll assets).map node)).checkAcyclic with
  | ok known => exact absurd ⟨known, hcheck⟩ hcircle
  | error fault =>
    have hsort : Graph.sort ((mergeAll assets).map node) = .error fault := by
      rw [Graph.sort, hcheck]
      rfl
    refine ⟨ofCycle fault, by rw [resolve_of_known hknown, hsort]; rfl, ?_⟩
    have hgenuine := Graph.genuine_of_checkAcyclic hcheck
    cases fault with
    | cycle start finish path back => rfl
    | _ => exact hgenuine.elim

lemma resolve_of_acyclic (hknown : AllKnown assets) (hacyclic : ∀ x, ¬ TransGen (Requires assets) x x) :
    ∃ out, resolve assets = .ok out := by
  rw [← acyclic_iff, ← Graph.checkAcyclic_eq_ok_iff (Graph.wellFormed_build _)] at hacyclic
  rw [resolve_of_known hknown, Graph.sort_eq_ok.2 ⟨hacyclic, rfl⟩]
  exact ⟨_, rfl⟩

lemma resolve_outcome (assets : List Asset) :
    (¬ AllKnown assets ∧ ∃ fault, resolve assets = .error fault ∧ fault.code = "asset.dependency.notfound") ∨
    (AllKnown assets ∧ (¬ ∀ x, ¬ TransGen (Requires assets) x x) ∧
      ∃ fault, resolve assets = .error fault ∧ fault.code = "asset.graph.circulardep") ∨
    (AllKnown assets ∧ (∀ x, ¬ TransGen (Requires assets) x x) ∧ ∃ out, resolve assets = .ok out) := by
  by_cases hknown : AllKnown assets
  · by_cases hacyclic : ∀ x, ¬ TransGen (Requires assets) x x
    · exact .inr (.inr ⟨hknown, hacyclic, resolve_of_acyclic hknown hacyclic⟩)
    · exact .inr (.inl ⟨hknown, hacyclic, resolve_of_circular hknown hacyclic⟩)
  · exact .inl ⟨hknown, resolve_of_unknown hknown⟩

/-- **Putting assets in order loses nothing.**  Assets of one name are taken for one, which has the first one's fields and
dependencies and, behind these, the new dependencies of the others.  They are refused for a dependency that names no
asset, if there is one; else for a circle of dependencies, if there is one; and else each name comes out exactly once, as
the one asset of that name, behind all that it depends on. -/
theorem resolve_lossless (assets : List Asset) :
    ((∃ fault, resolve assets = .error fault ∧ fault.code = "asset.dependency.notfound") ↔
      ∃ x y, Requires assets x y ∧ y ∉ assets.map (·.name)) ∧
    ((∃ fault, resolve assets = .error fault ∧ fault.code = "asset.graph.circulardep") ↔
      AllKnown assets ∧ ∃ x, TransGen (Requires assets) x x) ∧
    ((∃ out, resolve assets = .ok out) ↔ AllKnown assets ∧ ∀ x, ¬ TransGen (Requires assets) x x) ∧
    ∀ out, resolve assets = .ok out →
      (out.map (·.name)).Nodup ∧ (∀ x, x ∈ out.map (·.name) ↔ x ∈ assets.map (·.name)) ∧
      (∀ a ∈ out, united? assets a.name = some a) ∧
      ∀ before a behind, out = before ++ a :: behind → ∀ d ∈ a.dependencies, d ∈ before.map (·.name) := by
  have hunknown : (∃ x y, Requires assets x y ∧ y ∉ assets.map (·.name)) ↔ ¬ AllKnown assets := by
    simp only [AllKnown, not_forall, exists_prop]
  have hcircle : (∃ x, TransGen (Requires assets) x x) ↔ ¬ ∀ x, ¬ TransGen (Requires assets) x x := not_forall_not.symm
  rw [hunknown, hcircle, ← and_assoc, ← and_assoc]
  refine ⟨?_, fun out hout => ?_⟩
  · rcases resolve_outcome assets with ⟨hknown, fault, hfault, hcode⟩ | ⟨hknown, hcircle, fault, hfault, hcode⟩ |
      ⟨hknown, hacyclic, out, hout⟩
    · simp [hfault, hcode, hknown]
    · simp [hfault, hcode, hknown, hcircle]
    · simp [hout, hknown, hacyclic]
  · have hresolves := resolves_of_ok hout
    refine ⟨hresolves.nodup, fun x => ⟨fun hx => ?_, fun hx => ?_⟩, fun a ha => ?_, fun before a behind hsplit d hd => ?_⟩
    · obtain ⟨a, ha, rfl⟩ := List.mem_map.1 hx
      exact ((merges_mergeAll assets).names a.name).1 (mem_map_of_mem (hresolves.subset ha))
    · obtain ⟨a, ha, rfl⟩ := List.mem_map.1 hx
      exact hresolves.mem_names ha
    · exact united?_eq_some.2 ⟨hresolves.subset ha, rfl⟩
    · exact hresolves.mem_before hsplit hd

namespace Sample

/-- Scripts of which two have one name; the second of them depends on itself, on what the first one depends on, and on a
style sheet twice. -/
def doubled : List Asset :=
  [⟨"app()", "app", 5, "a", .javascript, ["base"], 0, none, none, none, none, none⟩,
   ⟨"base()", "base", 6, "b", .javascript, [], 0, none, none, none, none, none⟩,
   ⟨"later()", "app", 7, "c", .javascript, ["app", "base", "theme", "theme"], 5, none, none, none, none, some "/c.js"⟩,
   ⟨".x", "theme", 2, "d", .stylesheet, [], 1, none, none, none, none, none⟩]

end Sample

theorem resolve_lossless_united : ∃ out, resolve Sample.doubled = .ok out ∧ out.map (·.name) = ["theme", "base", "app"] ∧
    (out.map (·.name)).Nodup ∧ (∀ x, x ∈ out.map (·.name) ↔ x ∈ Sample.doubled.map (·.name)) ∧
    (∀ a ∈ out, united? Sample.doubled a.name = some a) ∧
    ∀ before a behind, out = before ++ a :: behind → ∀ d ∈ a.dependencies, d ∈ before.map (·.name) := by
  have hnames : (resolve Sample.doubled).toOption.map (fun out => out.map (·.name)) = some ["theme", "base", "app"] := by cbv
  cases hout : resolve Sample.doubled with
  | error fault =>
    rw [hout] at hnames
    cases hnames
  | ok out =>
    rw [hout] at hnames
    exact ⟨out, rfl, Option.some.inj hnames, (resolve_lossless Sample.doubled).2.2.2 out hout⟩

example : (united? Sample.doubled "app").map (fun a => (a.content, a.dependencies, a.priority, a.url)) =
    some ("app()", ["base", "theme"], 0, none) := by decide

end ReactiveTemplate.Asset
