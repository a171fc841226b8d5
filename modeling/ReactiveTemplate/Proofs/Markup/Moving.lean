import ReactiveTemplate.Proofs.Markup.Operations
/-!
# Moving — subtrees that get a document of their own

The trees of the chosen nodes are planted in a new document one by one, while the nodes leave the old one.
-/
set_option linter.all false

namespace ReactiveTemplate.Markup.Document
open List

variable {d : Document} {kids : Nat → List Nat} {id c x : Nat} {keep : Document → Nat → Bool}

/-! ## Where nodes leave -/

lemma Refines.not_mem_below (h : Refines d kids) (hx : x ∈ kids id) {y : Nat} (hy : y = x ∨ d.Ancestor x y) :
    y ≠ id := by
  have hup : d.Ancestor id x := .single (h.parent_iff.2 hx)
  rintro rfl
  rcases hy with rfl | hy
  · exact h.acyclic _ hup
  · exact h.acyclic _ (hy.trans hup)

lemma Refines.toTree_detach (h : Refines d kids) (hc : c ∈ kids id) (hx : x ∈ kids id) :
    x ≠ c → (d.detach c).toTree x = d.toTree x := by
  intro hne
  have hlists : ∀ {y}, (y = x ∨ d.Ancestor x y) → (d.detach c).children y = d.children y := by
    intro y hy
    rw [(h.detach c).linked.children_eq, h.linked.children_eq]
    refine erase_of_not_mem (fun hmem => h.not_mem_below hx hy (h.linked.parent_unique hmem hc))
  have hall : ∀ n y, (y = x ∨ d.Ancestor x y) → (d.detach c).treeTo n y = d.treeTo n y := by
    intro n
    induction n with
    | zero => intro y _; rw [treeTo, treeTo, kind_detach, position_detach]
    | succ n ih =>
      intro y hy
      rw [treeTo, kind_detach, position_detach, hlists hy]
      refine congrArg _ (map_congr_left (fun z hz => ih z (.inr ?_)))
      have hparent : d.parent z = some y := h.parent_iff.2 (h.linked.children_eq y ▸ hz)
      rcases hy with rfl | hy
      · exact .single hparent
      · exact .head hparent hy
  rw [toTree, size_detach]
  exact hall _ x (.inl rfl)

lemma takenTrees_eq : ∀ {cs : List Nat} {d : Document} {kids : Nat → List Nat}, Refines d kids → cs.Nodup →
    (∀ c ∈ cs, c ∈ kids id) → takenTrees keep d cs = (taken keep d cs).map d.toTree
  | [], _, _, _, _, _ => rfl
  | c :: cs, d, kids, h, hnodup, hkids => by
    obtain ⟨hc, hnodup⟩ := nodup_cons.1 hnodup
    rw [takenTrees, taken]
    split
    · have hrest : ∀ x ∈ cs, x ∈ takeKid kids c id := fun x hx =>
        (mem_erase_of_ne (fun heq : x = c => hc (heq ▸ hx))).2 (hkids x (.tail _ hx))
      rw [takenTrees_eq (h.detach c) hnodup hrest]
      refine congrArg _ (map_congr_left (fun x hx => ?_))
      have hmem := taken_subset keep _ cs hx
      exact h.toTree_detach (hkids c (.head _)) (hkids x (.tail _ hmem)) (fun heq => hc (heq ▸ hmem))
    · exact takenTrees_eq h hnodup (fun x hx => hkids x (.tail _ hx))

/-! ## Where they arrive -/

lemma toTree_plantAll (file : String) (ts : List Tree) :
    ((new file).plantAll root ts).toTree root = .node .document {} ts := by
  have hroot : root < (new file).size := Nat.zero_lt_one
  obtain ⟨kids, h⟩ := planted_plantAll (Linked.new file) nofun hroot ts
  obtain ⟨ids, hids, hread, hle⟩ := h.planted
  obtain ⟨n, hn⟩ := Nat.exists_eq_succ_of_ne_zero (Nat.ne_of_gt (Nat.lt_of_lt_of_le Nat.zero_lt_one h.size))
  rw [toTree, hn, treeTo, h.kind root hroot, h.position root hroot, h.linked.children_eq, hids,
    nil_append, map_treeTo_eq h.linked h.rising n hread (fun c hc => ?_)]
  · rfl
  · have hlt := h.linked.inside root c (hids ▸ mem_append_right _ hc)
    have hpos : 1 ≤ c := hle c hc
    omega

lemma kind_toTree (d : Document) (x : Nat) : (d.toTree x).kind = d.kind x := by
  rw [toTree]
  cases d.size <;> rfl

lemma renderIn_eq {t : Tree} {verbatim : Bool} (h : t.kind.text? = none ∨ verbatim = false) :
    t.renderIn verbatim = t.renderIn false := by
  obtain ⟨kind, position, children⟩ := t
  cases kind with
  | text s =>
    rcases h with h | rfl
    · cases h
    · rfl
  | _ => rfl

/-- A pair of documents that has the trees of chosen children of a node in the first and the other nodes in the second. -/
structure Moves (d : Document) (id : Nat) (chosen : List Nat) (out rest : Document) : Prop where
  tree : out.toTree root = .node .document {} (chosen.map d.toTree)
  parent : ∀ c p, rest.parent c = some p ↔ d.parent c = some p ∧ c ∉ chosen
  children : rest.children id = (d.children id).filter (fun c => !chosen.contains c)
  others : ∀ p ≠ id, rest.children p = d.children p
  node : ∀ x, rest.kind x = d.kind x ∧ rest.position x = d.position x
  render : (∀ c ∈ chosen, (d.kind c).text? = none ∨ (d.kind id).isVerbatim = false) →
    out.render root = String.join (chosen.map d.render)

lemma render_plantAll (h : Refines d kids) {chosen : List Nat} (hchosen : ∀ c ∈ chosen, c ∈ kids id)
    (htext : ∀ c ∈ chosen, (d.kind c).text? = none ∨ (d.kind id).isVerbatim = false) :
    ((new d.file).plantAll root (chosen.map d.toTree)).render root = String.join (chosen.map d.render) := by
  have hall : ∀ cs ⊆ chosen, Tree.renderAllIn false (cs.map d.toTree) = String.join (cs.map d.render) := by
    intro cs
    induction cs with
    | nil => exact fun _ => rfl
    | cons c cs ih =>
      intro hcs
      obtain ⟨hc, hcs⟩ := cons_subset.1 hcs
      have hparent : d.parent c = some id := h.parent_iff.2 (hchosen c hc)
      have hone : d.render c = (d.toTree c).renderIn false := by
        rw [render, hparent]
        exact renderIn_eq (by rw [kind_toTree]; exact htext c hc)
      rw [map_cons, map_cons, Tree.renderAllIn, ih hcs, hone, String.join_cons]
  rw [render, toTree_plantAll]
  exact hall chosen (List.Subset.refl _)

lemma node_foldl_detach : ∀ (cs : List Nat) (d : Document) (x : Nat),
    (cs.foldl detach d).kind x = d.kind x ∧ (cs.foldl detach d).position x = d.position x
  | [], _, _ => ⟨rfl, rfl⟩
  | c :: cs, d, x => by
    have hrest := node_foldl_detach cs (d.detach c) x
    rwa [kind_detach, position_detach] at hrest

lemma moves_of_refines (h : Refines d kids) {chosen : List Nat} (hchosen : ∀ c ∈ chosen, c ∈ kids id) :
    Moves d id chosen ((new d.file).plantAll root (chosen.map d.toTree)) (chosen.foldl detach d) := by
  have hrest := h.detachAll chosen
  refine ⟨toTree_plantAll _ _, fun c p => ?_, ?_, fun p hp => ?_, node_foldl_detach chosen d, render_plantAll h hchosen⟩
  · rw [hrest.parent_iff, h.parent_iff, dropKids]
    simp
  · rw [hrest.children_eq, h.children_eq, dropKids]
  · rw [hrest.children_eq, h.children_eq]
    exact dropKids_of_disjoint (fun c hc hmem => hp (h.linked.parent_unique hc (hchosen c hmem)))

/-- **Extraction moves the chosen nodes and nothing else.**  The new document has their trees, node for node and in their
order, the old one loses them and keeps every other link, kind and position; and the new one reads as they did, if none
of them is text of an element of plain text. -/
theorem extract_moves (h : Refines d d.children) (id : Nat) :
    (∀ parent, d.parent id = some parent → Moves d parent [id] (d.extract id).1 (d.extract id).2) ∧
      ∀ keep, Moves d id (taken keep d (d.children id)) (d.extractChildrenWhere id keep).1
        (d.extractChildrenWhere id keep).2 := by
  refine ⟨fun parent hparent => ?_, fun keep => ?_⟩
  · exact moves_of_refines h (List.forall_mem_singleton.2 (h.parent_iff.1 hparent))
  · rw [extractChildrenWhere_fst, extractChildrenWhere_snd, takenTrees_eq h (h.linked.nodup id) (fun c hc => hc)]
    exact moves_of_refines h (fun c hc => taken_subset keep d _ hc)

/-- The second item of the list is moved. -/
theorem extract_moves_item : Refines listAndParagraph listAndParagraph.children ∧
    (listAndParagraph.extractChildrenWhere 1 (fun _ c => c == 3)).1.toTree root =
      .node .document {} [.node (.element ⟨"li", []⟩) ⟨1, 14⟩ []] ∧
    (listAndParagraph.extractChildrenWhere 1 (fun _ c => c == 3)).1.render root = "<li></li>" ∧
    (listAndParagraph.extractChildrenWhere 1 (fun _ c => c == 3)).2.children 1 = [2] := by
  have hreached : Reached listAndParagraph :=
    .parsed (show Document.parse "<ul><li></li><li></li></ul><p></p>" "" = .ok listAndParagraph by rfl)
  have hmoves := (extract_moves hreached.refines 1).2 (fun _ c => c == 3)
  exact ⟨hreached.refines, hmoves.tree.trans rfl, (hmoves.render (by decide)).trans (by decide),
    hmoves.children.trans (by decide)⟩

end ReactiveTemplate.Markup.Document
