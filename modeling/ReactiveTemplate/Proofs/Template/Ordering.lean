import ReactiveTemplate.Proofs.Template.Candidates
/-!
# Ordering — which directives run on an element, and in which order

Each match of a directive has a place: the numbers that lead to it through the element and the registry.  Sorting keeps
the order of places among directives that rank alike (`pairwise_mergeSort`).
-/
set_option linter.all false

namespace ReactiveTemplate.Candidate
open List

abbrev Placed (α : Type) := List Nat × α

variable {α β : Type}

/-- Numbers what comes from each item of a list by the position of the item. -/
def indexed (f : α → List (Placed β)) (l : List α) : List (Placed β) :=
  l.zipIdx.flatMap (fun (a, i) => (f a).map (fun (place, b) => (i :: place, b)))

lemma map_snd_indexed (f : α → List (Placed β)) (l : List α) :
    (indexed f l).map Prod.snd = l.flatMap (fun a => (f a).map Prod.snd) := by
  have hplain : l.flatMap (fun a => (f a).map Prod.snd) =
      (l.zipIdx.map Prod.fst).flatMap (fun a => (f a).map Prod.snd) := by rw [zipIdx_map_fst]
  rw [hplain, flatMap_map, indexed, map_flatMap]
  simp [Function.comp_def]

lemma mem_indexed {f : α → List (Placed β)} {l : List α} {place : List Nat} {b : β} :
    (place, b) ∈ indexed f l ↔ ∃ i rest a, place = i :: rest ∧ l[i]? = some a ∧ (rest, b) ∈ f a := by
  simp only [indexed, mem_flatMap, mem_map, Prod.exists, Prod.mk.injEq, mem_zipIdx_iff_getElem?]
  constructor
  · rintro ⟨a, i, ha, rest, b, hb, rfl, rfl⟩
    exact ⟨i, rest, a, rfl, ha, hb⟩
  · rintro ⟨i, rest, a, rfl, ha, hb⟩
    exact ⟨a, i, ha, rest, b, hb, rfl, rfl⟩

lemma pairwise_indexed {f : α → List (Placed β)} {l : List α} (h : ∀ a ∈ l, (f a).Pairwise (·.1 < ·.1)) :
    (indexed f l).Pairwise (·.1 < ·.1) := by
  rw [indexed, pairwise_flatMap]
  constructor
  · rintro ⟨a, i⟩ ha
    have hrow := h a (mem_of_getElem? (mem_zipIdx_iff_getElem?.1 ha))
    exact pairwise_map.2 (hrow.imp (fun hlt => cons_lt_cons_iff.2 (.inr ⟨rfl, hlt⟩)))
  · have hindex : l.zipIdx.Pairwise (·.2 < ·.2) := by
      rw [← pairwise_map (f := Prod.snd), zipIdx_map_snd]
      exact pairwise_lt_range'
    refine hindex.imp (fun hlt x hx y hy => ?_)
    obtain ⟨p, -, rfl⟩ := mem_map.1 hx
    obtain ⟨q, -, rfl⟩ := mem_map.1 hy
    exact cons_lt_cons_iff.2 (.inl hlt)

/-! ## The matches of an element -/

/-- The directives of a registry that match, by level and position. -/
def registered (r : Registry) (p : Directive → Bool) (attr : Option Markup.Attribute) : List (Placed Candidate) :=
  indexed (indexed (fun d => if p d then [([], ⟨d, attr⟩)] else [])) r.levels

def matchesAt (r : Registry) (a : Markup.Attribute) : List (List (Placed Candidate)) :=
  [registered r (fun d => d.onAttribute && d.name == a.name) (some a),
   if Interpolation.hasMarkers a.value then [([], ⟨Directive.interpolate, some a⟩)] else []]

/-- Every match of an element with its place. -/
def placed (r : Registry) (e : Markup.Element) : List (Placed Candidate) :=
  indexed id [registered r (fun d => d.onElement && d.name == e.tag) none,
    indexed (fun a => indexed id (matchesAt r a)) e.attributes]

/-- A match of an element: a directive registered for its tag or for one of its attributes, or the one that every
attribute with markers has.  Its place is first that of what is matched, then the level and the position of the
directive. -/
inductive Matches (r : Registry) (e : Markup.Element) : List Nat → Candidate → Prop
  | element {i j : Nat} {level : List Directive} {d : Directive} (hlevel : r.levels[i]? = some level)
      (hd : level[j]? = some d) (hon : d.onElement = true) (hname : d.name = e.tag) : Matches r e [0, i, j] ⟨d, none⟩
  | attribute {k i j : Nat} {a : Markup.Attribute} {level : List Directive} {d : Directive}
      (ha : e.attributes[k]? = some a) (hlevel : r.levels[i]? = some level) (hd : level[j]? = some d)
      (hon : d.onAttribute = true) (hname : d.name = a.name) : Matches r e [1, k, 0, i, j] ⟨d, some a⟩
  | markers {k : Nat} {a : Markup.Attribute} (ha : e.attributes[k]? = some a)
      (hmarkers : Interpolation.hasMarkers a.value = true) : Matches r e [1, k, 1] ⟨.interpolate, some a⟩

variable {r : Registry} {e : Markup.Element} {place : List Nat} {c : Candidate} {d : Directive} {p : Directive → Bool}

lemma map_snd_registered (r : Registry) (p : Directive → Bool) (attr : Option Markup.Attribute) :
    (registered r p attr).map Prod.snd = (r.directives.filter p).map (fun d => ⟨d, attr⟩) := by
  simp only [registered, map_snd_indexed, apply_ite (map Prod.snd), map_cons, map_nil, flatMap_ite, Registry.directives]
  rw [filter_flatten, map_flatten, flatMap_def, map_map]
  rfl

lemma map_snd_placed (r : Registry) (e : Markup.Element) : (placed r e).map Prod.snd = all r e := by
  simp [placed, matchesAt, map_snd_indexed, map_snd_registered, all, Registry.forElement, apply_ite (map Prod.snd)]
  rfl

lemma mem_ite_singleton {q : Bool} {x y : β} : x ∈ (if q then [y] else []) ↔ q = true ∧ x = y := by
  cases q <;> simp

lemma mem_registered {attr : Option Markup.Attribute} : (place, c) ∈ registered r p attr ↔
    ∃ i j level d, place = [i, j] ∧ c = ⟨d, attr⟩ ∧ r.levels[i]? = some level ∧ level[j]? = some d ∧ p d = true := by
  simp only [registered, mem_indexed, mem_ite_singleton, Prod.mk.injEq]
  constructor
  · rintro ⟨i, _, level, rfl, hlevel, j, _, d, rfl, hd, hp, rfl, rfl⟩
    exact ⟨i, j, level, d, rfl, rfl, hlevel, hd, hp⟩
  · rintro ⟨i, j, level, d, rfl, rfl, hlevel, hd, hp⟩
    exact ⟨i, _, level, rfl, hlevel, j, _, d, rfl, hd, hp, rfl, rfl⟩

lemma mem_indexed_pair {x y : List (Placed β)} {b : β} : (place, b) ∈ indexed id [x, y] ↔
    ∃ rest, (place = 0 :: rest ∧ (rest, b) ∈ x) ∨ (place = 1 :: rest ∧ (rest, b) ∈ y) := by
  rw [mem_indexed]
  constructor
  · rintro ⟨i, rest, l, rfl, hl, hmem⟩
    match i, hl with
    | 0, rfl => exact ⟨rest, .inl ⟨rfl, hmem⟩⟩
    | 1, rfl => exact ⟨rest, .inr ⟨rfl, hmem⟩⟩
  · rintro ⟨rest, ⟨rfl, hmem⟩ | ⟨rfl, hmem⟩⟩
    · exact ⟨0, rest, x, rfl, rfl, hmem⟩
    · exact ⟨1, rest, y, rfl, rfl, hmem⟩

lemma mem_placed : (place, c) ∈ placed r e ↔ Matches r e place c := by
  simp only [placed, mem_indexed_pair, mem_registered, matchesAt, mem_indexed (l := e.attributes), Bool.and_eq_true,
    beq_iff_eq, mem_ite_singleton, Prod.mk.injEq]
  constructor
  · rintro ⟨_, ⟨rfl, i, j, level, d, rfl, rfl, hlevel, hd, hon, hname⟩ | ⟨rfl, k, _, a, rfl, ha, _, hmatch⟩⟩
    · exact .element hlevel hd hon hname
    · obtain ⟨rfl, i, j, level, d, rfl, rfl, hlevel, hd, hon, hname⟩ | ⟨rfl, hmarkers, rfl, rfl⟩ := hmatch
      · exact .attribute ha hlevel hd hon hname
      · exact .markers ha hmarkers
  · rintro (⟨hlevel, hd, hon, hname⟩ | ⟨ha, hlevel, hd, hon, hname⟩ | ⟨ha, hmarkers⟩)
    · exact ⟨_, .inl ⟨rfl, _, _, _, _, rfl, rfl, hlevel, hd, hon, hname⟩⟩
    · exact ⟨_, .inr ⟨rfl, _, _, _, rfl, ha, _, .inl ⟨rfl, _, _, _, _, rfl, rfl, hlevel, hd, hon, hname⟩⟩⟩
    · exact ⟨_, .inr ⟨rfl, _, _, _, rfl, ha, _, .inr ⟨rfl, hmarkers, rfl, rfl⟩⟩⟩

lemma pairwise_placed (r : Registry) (e : Markup.Element) : (placed r e).Pairwise (·.1 < ·.1) := by
  have hone (q : Bool) (m : Placed Candidate) : (if q then [m] else []).Pairwise (·.1 < ·.1) := by cases q <;> simp
  have hregistered (p : Directive → Bool) (attr : Option Markup.Attribute) :
      (registered r p attr).Pairwise (·.1 < ·.1) :=
    pairwise_indexed (fun level _ => pairwise_indexed (fun d _ => hone _ _))
  have hattribute (a : Markup.Attribute) : (indexed id (matchesAt r a)).Pairwise (·.1 < ·.1) :=
    pairwise_indexed (forall_mem_cons.2 ⟨hregistered _ _, forall_mem_singleton.2 (hone _ _)⟩)
  exact pairwise_indexed
    (forall_mem_cons.2 ⟨hregistered _ _, forall_mem_singleton.2 (pairwise_indexed (fun a _ => hattribute a))⟩)

/-! ## The order -/

/-- What directives are sorted by: the priority, terminal ones last. -/
def key (c : Candidate) : List Nat := [c.directive.priority, c.directive.isTerminal.toNat]

def runsBefore (a b : Placed Candidate) : Prop := a.2.key ++ a.1 < b.2.key ++ b.1

lemma precedes_iff (a b : Candidate) : a.directive.precedes b.directive = true ↔ a.key < b.key ∨ a.key = b.key := by
  simp only [Directive.precedes, key, Bool.or_eq_true, decide_eq_true_eq, Bool.and_eq_true, beq_iff_eq, cons_lt_cons_iff,
    cons.injEq, and_true, not_lt_nil, and_false, or_false]
  cases a.directive.isTerminal <;> cases b.directive.isTerminal <;> simp <;> omega

lemma pairwise_sorted {ms : List (Placed Candidate)} (h : ms.Pairwise (·.1 < ·.1)) :
    (ms.mergeSort (fun a b => a.2.directive.precedes b.2.directive)).Pairwise runsBefore := by
  refine pairwise_iff_forall_sublist.2 (fun {a b} hab => ?_)
  have hsorted := pairwise_mergeSort (fun a b c => Directive.precedes_trans a.2.directive b.2.directive c.2.directive)
    (fun a b => Directive.precedes_total a.2.directive b.2.directive) ms
  rcases (precedes_iff a.2 b.2).1 (pairwise_iff_forall_sublist.1 hsorted hab) with hlt | heq
  · simp only [key, cons_lt_cons_iff, not_lt_nil, and_false, or_false] at hlt
    simp only [runsBefore, key, cons_append, cons_lt_cons_iff]
    omega
  · -- the two stand in the list in this order already
    have hgroup : (ms.filter (fun m => m.2.key = a.2.key)).Pairwise
        (fun a b => a.2.directive.precedes b.2.directive = true) := by
      refine pairwise_of_forall_mem_list (fun x hx y hy => ?_)
      simp only [mem_filter, decide_eq_true_eq] at hx hy
      exact (precedes_iff _ _).2 (.inr (hx.2.trans hy.2.symm))
    have hpair := hab.filter (fun m => m.2.key = a.2.key)
    rw [filter_mergeSort (f := fun m : Placed Candidate => m.2.directive) hgroup] at hpair
    simp only [filter_cons, decide_true, if_true, ← heq, filter_nil] at hpair
    rw [runsBefore, heq]
    exact append_left_lt (pairwise_iff_forall_sublist.1 h (hpair.trans filter_sublist))

lemma isBelow_iff {limit : Option Nat} {n : Nat} : isBelow limit n = true ↔ ∀ l ∈ limit, n < l := by
  cases limit <;> simp [isBelow]

lemma cutOff_le_iff {cs : List Candidate} {n : Nat} :
    cutOff cs ≤ n ↔ ∀ c ∈ cs, c.directive.isTerminal = true → c.directive.priority ≤ n := by
  constructor
  · intro h c hc hterminal
    refine Nat.le_trans (le_foldl_max _ _ _ (.inr ?_)) h
    exact mem_map.2 ⟨c, mem_filter.2 ⟨hc, hterminal⟩, rfl⟩
  · intro h
    refine foldl_max_le _ _ (fun n hn => ?_) (Nat.zero_le _)
    obtain ⟨c, hc, rfl⟩ := mem_map.1 hn
    exact h c (mem_filter.1 hc).1 (mem_filter.1 hc).2

/-- The matches that run on an element, in order. -/
def running (r : Registry) (limit : Option Nat) (e : Markup.Element) : List (Placed Candidate) :=
  let found := (placed r e).filter (fun m => isBelow limit m.2.directive.priority)
  (found.mergeSort (fun a b => a.2.directive.precedes b.2.directive)).filter
    (fun m => decide (cutOff (found.map Prod.snd) ≤ m.2.directive.priority))

lemma map_snd_running (r : Registry) (limit : Option Nat) (e : Markup.Element) :
    (running r limit e).map Prod.snd = select r limit e := by
  have hfound : ((placed r e).filter (fun m => isBelow limit m.2.directive.priority)).map Prod.snd =
      (all r e).filter (fun c => isBelow limit c.directive.priority) := by
    rw [← map_snd_placed, filter_map]
    rfl
  have hsorted (l : List (Placed Candidate)) := map_mergeSort (r := fun a b => a.2.directive.precedes b.2.directive)
    (s := fun a b => a.directive.precedes b.directive) (f := Prod.snd) (l := l) (fun _ _ _ _ => rfl)
  unfold running select
  simp only [← hfound, ← hsorted, filter_map, cutOff_perm ((mergeSort_perm _ _).map Prod.snd)]
  rfl

lemma select_perm (r : Registry) (limit : Option Nat) (e : Markup.Element) :
    let found := (all r e).filter (fun c => isBelow limit c.directive.priority)
    (select r limit e).Perm (found.filter (fun c => decide (cutOff found ≤ c.directive.priority))) := by
  simp only [select, cutOff_perm (mergeSort_perm _ _)]
  exact (mergeSort_perm _ _).filter _

/-- **The directives of an element** are its matches below the limit that no terminal one shuts out.  They run by priority,
terminal ones last, and by place among those that rank alike; so another order of the attributes changes the order of the
directives only among these. -/
theorem select_runs (r : Registry) (limit : Option Nat) (e : Markup.Element) :
    (∃ ms : List (List Nat × Candidate), select r limit e = ms.map Prod.snd ∧
      ms.Pairwise (fun a b => a.2.key ++ a.1 < b.2.key ++ b.1) ∧
      ∀ place c, (place, c) ∈ ms ↔ Matches r e place c ∧ (∀ l ∈ limit, c.directive.priority < l) ∧
        ∀ place' c', Matches r e place' c' → (∀ l ∈ limit, c'.directive.priority < l) →
          c'.directive.isTerminal = true → c'.directive.priority ≤ c.directive.priority) ∧
    ∀ e' : Markup.Element, e'.tag = e.tag → e'.attributes.Perm e.attributes →
      (select r limit e').Perm (select r limit e) ∧ (select r limit e').map key = (select r limit e).map key := by
  refine ⟨⟨running r limit e, (map_snd_running r limit e).symm, ?_, fun place c => ?_⟩, fun e' htag hattributes => ?_⟩
  · exact (pairwise_sorted ((pairwise_placed r e).sublist filter_sublist)).sublist filter_sublist
  · simp only [running, mem_filter, mem_mergeSort, mem_placed, decide_eq_true_eq, cutOff_le_iff, isBelow_iff,
      forall_mem_map, Prod.forall, and_imp, and_assoc]
  · have hall : (all r e').Perm (all r e) := by
      rw [all, all, htag]
      exact (hattributes.flatMap_right _).append_left _
    have hfound := hall.filter (fun c => isBelow limit c.directive.priority)
    have hperm : (select r limit e').Perm (select r limit e) := by
      refine (select_perm r limit e').trans ?_
      rw [cutOff_perm hfound]
      exact (hfound.filter _).trans (select_perm r limit e).symm
    have hkeys (e : Markup.Element) : ((select r limit e).map key).Pairwise (fun k k' => k < k' ∨ k = k') := by
      refine pairwise_map.2 (Pairwise.imp (fun h => (precedes_iff _ _).1 h) (Pairwise.sublist filter_sublist
        (pairwise_mergeSort (fun a b c => Directive.precedes_trans a.directive b.directive c.directive)
          (fun a b => Directive.precedes_total a.directive b.directive) _)))
    refine ⟨hperm, (hperm.map key).eq_of_pairwise (fun k k' _ _ h h' => ?_) (hkeys e') (hkeys e)⟩
    exact h.elim (fun hlt => h'.elim (fun hlt' => absurd hlt' (List.lt_asymm hlt)) Eq.symm) id

end ReactiveTemplate.Candidate
