import ReactiveTemplate.Proofs.Template.Steps
/-!
# Slots — where the children of an element go

A map of slots takes the children of an element tag by tag, each in its order, and leaves the others to the default slot.
A slot that two tags name keeps the children of the last of them only (`transclude_slots`).
-/
set_option linter.all false

namespace ReactiveTemplate.Compile
open List
open Markup (Tree)

variable {compileNode : NodeCompiler} {entries : List (String × String)} {ks : List Compiled} {k : Compiled}
  {slots : List (String × Compiled)}

def tagged (ts : List Tree) (e : String × String) : List Tree := ts.filter (fun t => t.tag? == some e.1)

def untagged (entries : List (String × String)) (ts : List Tree) : List Tree :=
  ts.filter (fun t => entries.all (fun e => t.tag? != some e.1))

def fillSlots (slots : List (String × Compiled)) (xs : List ((String × String) × Compiled)) : List (String × Compiled) :=
  xs.foldl (fun slots x => placeSlot x.1.2 x.2 slots) slots

/-- The slots that a map fills with the templates of its tags, and with that of the other children. -/
def slotsOf (entries : List (String × String)) (ks : List Compiled) (k : Compiled) : List (String × Compiled) :=
  let placed := fillSlots [] (entries.zip ks)
  if placed.any (fun s => s.1 == defaultSlot) then placed else placed ++ [(defaultSlot, k)]

/-! ## The groups of the children -/

lemma tagged_filter {e e' : String × String} (h : e'.1 ≠ e.1) (ts : List Tree) :
    tagged (ts.filter (fun t => t.tag? != some e.1)) e' = tagged ts e' := by
  rw [tagged, filter_filter]
  refine filter_congr (fun t _ => ?_)
  by_cases ht : t.tag? = some e'.1 <;> simp [ht, h]

lemma untagged_nil (ts : List Tree) : untagged [] ts = ts := filter_eq_self.2 (fun _ _ => rfl)

lemma untagged_cons (e : String × String) (entries : List (String × String)) (ts : List Tree) :
    untagged (e :: entries) ts = untagged entries (ts.filter (fun t => t.tag? != some e.1)) := by
  rw [untagged, untagged, filter_filter]
  refine filter_congr (fun t _ => ?_)
  rw [all_cons, Bool.and_comm]

lemma ne_of_mem {e e' : String × String} (he : e.1 ∉ entries.map (·.1)) (he' : e' ∈ entries) : e'.1 ≠ e.1 :=
  fun heq => he (heq ▸ mem_map_of_mem he')

lemma perm_groups : ∀ {entries : List (String × String)}, (entries.map (·.1)).Nodup → ∀ ts : List Tree,
    (entries.flatMap (tagged ts) ++ untagged entries ts).Perm ts
  | [], _, ts => by
    rw [untagged_nil]
    exact .refl ts
  | e :: entries, h, ts => by
    obtain ⟨he, h⟩ := nodup_cons.1 h
    have hgroups : entries.map (tagged ts) = entries.map (tagged (ts.filter (fun t => t.tag? != some e.1))) :=
      map_congr_left (fun e' he' => (tagged_filter (ne_of_mem he he') ts).symm)
    rw [flatMap_cons, untagged_cons, flatMap_def, hgroups, ← flatMap_def, append_assoc]
    exact ((perm_groups h _).append_left _).trans (filter_append_perm _ ts)

lemma distinctSlots_of_nodup (h : (entries.map (·.1)).Nodup) : distinctSlots entries = entries := by
  have hfold : ∀ (es kept : List (String × String)), ((kept ++ es).map (·.1)).Nodup →
      es.foldl (fun kept entry => if kept.any (fun k => k.1 == entry.1) then
        kept.map (fun k => if k.1 == entry.1 then entry else k) else kept ++ [entry]) kept = kept ++ es := by
    intro es
    induction es with
    | nil => exact fun kept _ => (append_nil kept).symm
    | cons e es ih =>
      intro kept hkept
      have hnew : kept.any (fun k => k.1 == e.1) = false := by
        rw [map_append, nodup_append] at hkept
        exact any_eq_false.2 (fun x hx heq =>
          hkept.2.2 x.1 (mem_map_of_mem hx) e.1 (mem_map_of_mem (.head _)) (beq_iff_eq.1 heq))
      rw [foldl_cons, hnew, if_neg Bool.false_ne_true, ih _ (by simpa using hkept), append_assoc, singleton_append]
  exact hfold entries [] h

lemma foldlM_takeSlot (ts : List Tree) : ∀ {entries : List (String × String)} (w : Work), (entries.map (·.1)).Nodup →
    (∀ e ∈ entries, tagged w.tree.children e = tagged ts e) → entries.foldlM (takeSlot compileNode) w = (do
      let ks ← entries.mapM (fun e => document compileNode none (tagged ts e))
      return { w with
        tree := w.tree.withChildren (untagged entries w.tree.children), slots := fillSlots w.slots (entries.zip ks) })
  | [], w, _, _ => by
    have htree : w.tree.withChildren (untagged [] w.tree.children) = w.tree := by
      rw [untagged_nil]
      cases w.tree
      rfl
    rw [htree]
    rfl
  | e :: entries, w, h, hts => by
    obtain ⟨he, h⟩ := nodup_cons.1 h
    have hrest : ∀ e' ∈ entries, tagged (w.tree.children.filter (fun t => t.tag? != some e.1)) e' = tagged ts e' :=
      fun e' he' => (tagged_filter (ne_of_mem he he') _).trans (hts e' (.tail _ he'))
    have htake : takeSlot compileNode w e = (do
        let compiled ← document compileNode none (tagged ts e)
        return { w with
          tree := w.tree.withChildren (w.tree.children.filter (fun t => t.tag? != some e.1))
          slots := placeSlot e.2 compiled w.slots }) := by
      rw [← hts e (.head _), takeSlot, partition_eq_filter_filter]
      rfl
    rw [foldlM_cons, htake, mapM_cons]
    simp only [bind_assoc]
    refine congrArg _ (funext fun compiled => ?_)
    rw [untagged_cons]
    exact foldlM_takeSlot ts { w with
      tree := w.tree.withChildren (w.tree.children.filter (fun t => t.tag? != some e.1))
      slots := placeSlot e.2 compiled w.slots } h hrest

/-! ## The slots -/

lemma lookup_placeSlot (name : String) (k : Compiled) (s : String) : ∀ slots : List (String × Compiled),
    (placeSlot name k slots).lookup s = if s = name then some k else slots.lookup s
  | [] => by
    by_cases hs : s = name
    · simp [placeSlot, hs]
    · simp [placeSlot, hs]
  | (n, c) :: slots => by
    rw [placeSlot]
    by_cases hn : n = name
    · by_cases hs : s = name
      · simp [hn, hs]
      · simp [hn, hs, lookup_cons, beq_false_of_ne hs]
    · by_cases hs : s = n
      · simp [hn, hs]
      · simp [hn, lookup_cons, beq_false_of_ne hs, lookup_placeSlot name k s slots]

lemma isSome_lookup (s : String) : ∀ slots : List (String × Compiled),
    (slots.lookup s).isSome = slots.any (fun x => x.1 == s)
  | [] => rfl
  | (n, c) :: slots => by
    by_cases hs : s = n
    · simp [hs]
    · simp [lookup_cons, beq_false_of_ne hs, Ne.symm hs, isSome_lookup s slots]

lemma placeSlot_of_not_mem {name : String} (k : Compiled) : ∀ {slots : List (String × Compiled)},
    name ∉ slots.map (·.1) → placeSlot name k slots = slots ++ [(name, k)]
  | [], _ => rfl
  | x :: slots, h => by
    obtain ⟨hx, h⟩ := not_or.1 (mt mem_cons.2 h)
    rw [placeSlot, if_neg (fun heq => hx (beq_iff_eq.1 heq).symm), placeSlot_of_not_mem k h, cons_append]

lemma lookup_fillSlots (s : String) : ∀ (xs : List ((String × String) × Compiled)) (slots : List (String × Compiled)),
    (fillSlots slots xs).lookup s = ((xs.reverse.find? (fun x => x.1.2 == s)).map (·.2)).or (slots.lookup s)
  | [], slots => rfl
  | x :: xs, slots => by
    rw [fillSlots, foldl_cons, ← fillSlots, lookup_fillSlots s xs, lookup_placeSlot, reverse_cons, find?_append]
    cases xs.reverse.find? (fun x => x.1.2 == s) with
    | some y => rfl
    | none => by_cases hs : s = x.1.2 <;> simp [hs, Ne.symm]

lemma fillSlots_of_nodup : ∀ (entries : List (String × String)) (ks : List Compiled) (slots : List (String × Compiled)),
    (slots.map (·.1) ++ entries.map (·.2)).Nodup →
      fillSlots slots (entries.zip ks) = slots ++ (entries.map (·.2)).zip ks
  | [], _, slots, _ => (append_nil slots).symm
  | _ :: _, [], slots, _ => (append_nil slots).symm
  | e :: entries, k :: ks, slots, h => by
    have hnew : e.2 ∉ slots.map (·.1) := fun hmem => (nodup_append.1 h).2.2 _ hmem _ (.head _) rfl
    rw [zip_cons_cons, fillSlots, foldl_cons, ← fillSlots, placeSlot_of_not_mem k hnew,
      fillSlots_of_nodup entries ks _ (by simpa using h), append_assoc, map_cons, zip_cons_cons, singleton_append]

lemma lookup_slotsOf (entries : List (String × String)) (ks : List Compiled) (k : Compiled) (s : String) :
    (slotsOf entries ks k).lookup s = (((entries.zip ks).reverse.find? (fun x => x.1.2 == s)).map (·.2)).or
      (if s = defaultSlot then some k else none) := by
  have hplaced := lookup_fillSlots s (entries.zip ks) []
  rw [lookup_nil, Option.or_none] at hplaced
  rw [← hplaced, slotsOf]
  split
  · rename_i hany
    obtain ⟨k', hk'⟩ := Option.isSome_iff_exists.1 ((isSome_lookup defaultSlot _).trans hany)
    by_cases hs : s = defaultSlot
    · rw [hs, hk', Option.some_or]
    · rw [if_neg hs, Option.or_none]
  · rw [lookup_append]
    by_cases hs : s = defaultSlot
    · simp [hs]
    · simp [hs, lookup_cons, beq_false_of_ne hs]

variable {d : Directive} {w : Work}

/-- **What a map of slots does with the children of an element.**  Each child is in one group, that of its tag or that of
the children without an entry, in the order of the source; the groups are compiled one after the other.  A slot gets the
template of the last group that is named after it, and the default slot that of the others if no tag names it.  So nothing
is lost if no two tags name one slot and none names the default slot. -/
theorem transclude_slots (hd : d.transclude = .slots entries) (htags : (entries.map (·.1)).Nodup) (hw : w.slots = []) :
    transclude compileNode d w = (do
      let ks ← entries.mapM (fun e => document compileNode none (tagged w.tree.children e))
      let k ← document compileNode none (untagged entries w.tree.children)
      return { w with tree := w.tree.withChildren [], slots := slotsOf entries ks k, isTranscluded := true }) ∧
    (entries.flatMap (tagged w.tree.children) ++ untagged entries w.tree.children).Perm w.tree.children ∧
    (∀ ks k s, (slotsOf entries ks k).lookup s = (((entries.zip ks).reverse.find? (fun x => x.1.2 == s)).map (·.2)).or
      (if s = defaultSlot then some k else none)) ∧
    ((entries.map (·.2)).Nodup → defaultSlot ∉ entries.map (·.2) → ∀ ks k, ks.length = entries.length →
      slotsOf entries ks k = (entries.map (·.2)).zip ks ++ [(defaultSlot, k)]) := by
  refine ⟨?_, perm_groups htags _, lookup_slotsOf entries, fun hnodup hdefault ks k hlength => ?_⟩
  · rw [transclude, hd]
    simp only [distinctSlots_of_nodup htags, foldlM_takeSlot w.tree.children w htags (fun _ _ => rfl), bind_assoc,
      pure_bind, hw]
    rfl
  · rw [slotsOf, fillSlots_of_nodup entries ks [] hnodup, nil_append]
    refine if_neg (fun hany => ?_)
    obtain ⟨x, hx, hname⟩ := List.any_eq_true.1 hany
    exact hdefault (beq_iff_eq.1 hname ▸ (List.of_mem_zip hx).1)

def tabs : Work where
  tree := .node (.element ⟨"tabs", []⟩) {}
    [.node (.element ⟨"a", []⟩) {} [], .node (.element ⟨"b", []⟩) {} [], .node (.text "c") {} []]

def filling (entries : List (String × String)) : Option (List (String × List String)) :=
  ((transclude (fun _ _ t => pure t) { name := "tabs", transclude := .slots entries } tabs).run
    (.new .standard {})).1.toOption.map (fun w => w.slots.map (fun s => (s.1, s.2.statics)))

/-- Two tags with slots of their own: every child is in a slot. -/
theorem transclude_slots_apart :
    filling [("a", "s"), ("b", "t")] = some [("s", ["<a></a>"]), ("t", ["<b></b>"]), ("*", ["c"])] ∧
      ∀ ks k, ks.length = 2 → slotsOf [("a", "s"), ("b", "t")] ks k = ["s", "t"].zip ks ++ [("*", k)] :=
  have hmap := @transclude_slots (fun _ _ t => pure t) [("a", "s"), ("b", "t")]
    { name := "tabs", transclude := .slots [("a", "s"), ("b", "t")] } tabs rfl (by decide) rfl
  ⟨by decide +kernel, hmap.2.2.2 (by decide) (by decide)⟩

/-- Children are lost where two tags name one slot, and where a tag names the default slot. -/
theorem transclude_slots_shared : filling [("a", "s"), ("b", "s")] = some [("s", ["<b></b>"]), ("*", ["c"])] ∧
    filling [("a", "*")] = some [("*", ["<a></a>"])] := by
  decide +kernel

end ReactiveTemplate.Compile
