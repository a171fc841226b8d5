import ReactiveTemplate.Proofs.Markup.Forest
import ReactiveTemplate.Proofs.Markup.Nesting
/-!
# Operations — what the operations on a document do to its lists of children

`Operation.lists` says what each operation that links nodes does to the lists of children.
-/
set_option linter.all false

namespace ReactiveTemplate.Markup.Document
open List

variable {d : Document} {kids : Nat → List Nat}

/-! ## Changes of the lists -/

def swapKid (kids : Nat → List Nat) (id replacement : Nat) : Nat → List Nat :=
  fun p => (kids p).map (fun c => if c = id then replacement else c)

def dropKids (kids : Nat → List Nat) (gone : List Nat) : Nat → List Nat :=
  fun p => (kids p).filter (fun c => !gone.contains c)

def clearKids (kids : Nat → List Nat) (parent : Nat) : Nat → List Nat :=
  fun p => if p = parent then [] else kids p

lemma swapKid_of_not_mem {id p : Nat} (h : id ∉ kids p) (replacement : Nat) : swapKid kids id replacement p = kids p := by
  refine (map_congr_left fun c hc => ?_).trans (map_id _)
  have hne : c ≠ id := fun heq => h (heq ▸ hc)
  rw [if_neg hne]
  rfl

lemma takeKid_of_not_mem {id p : Nat} (h : id ∉ kids p) : takeKid kids id p = kids p := erase_of_not_mem h

lemma placeKid_of_not_mem {reference p : Nat} (h : reference ∉ kids p) (child : Nat) :
    placeKid kids reference child p = kids p := flatMap_place_of_not_mem child (kids p) h

lemma dropKids_of_disjoint {gone : List Nat} {p : Nat} (h : ∀ c ∈ kids p, c ∉ gone) : dropKids kids gone p = kids p :=
  filter_eq_self.2 (fun c hc => by simp [h c hc])

lemma erase_place {id replacement : Nat} (hne : replacement ≠ id) : ∀ l : List Nat, l.Nodup →
    (l.flatMap (fun c => if c = id then [replacement, c] else [c])).erase id =
      l.map (fun c => if c = id then replacement else c)
  | [], _ => rfl
  | c :: l, hnodup => by
    obtain ⟨hc, hl⟩ := nodup_cons.1 hnodup
    by_cases hid : c = id
    · subst hid
      have hsame : swapKid (fun _ => l) c replacement 0 = l := swapKid_of_not_mem hc replacement
      rw [swapKid] at hsame
      simp [hne, hsame, flatMap_place_of_not_mem replacement l hc]
    · simp [hid, erase_place hne l hl]

lemma takeKid_placeKid {id replacement : Nat} (hnodup : ∀ p, (kids p).Nodup) (hne : replacement ≠ id) :
    takeKid (placeKid kids id replacement) id = swapKid kids id replacement :=
  funext fun p => erase_place hne (kids p) (hnodup p)

lemma dropKids_takeKid (hnodup : ∀ p, (kids p).Nodup) (id : Nat) (gone : List Nat) :
    dropKids (takeKid kids id) gone = dropKids kids (id :: gone) := by
  funext p
  rw [dropKids, takeKid, (hnodup p).erase_eq_filter, filter_filter]
  refine filter_congr fun c _ => ?_
  by_cases hc : c = id <;> simp [hc]

lemma Linked.dropKids_kids (h : Linked d kids) (id : Nat) : dropKids kids (kids id) = clearKids kids id := by
  funext p
  unfold clearKids
  split
  · rename_i hp
    subst hp
    exact filter_eq_nil_iff.2 (fun c hc => by simp [hc])
  · rename_i hp
    exact dropKids_of_disjoint (fun c hc hmem => hp (h.parent_unique hc hmem))

/-! ## Changes of the links -/

namespace Refines

lemma not_ancestor_of_leaf (h : Refines d kids) {a : Nat} (ha : kids a = []) (c : Nat) : ¬ d.Ancestor a c := by
  intro hac
  obtain ⟨x, -, hx⟩ := Relation.TransGen.tail'_iff.1 hac
  have := h.parent_iff.1 hx
  rw [ha] at this
  cases this

lemma takeKid_fresh (h : Refines d kids) : takeKid kids d.size = kids :=
  funext fun p => takeKid_of_not_mem (fun hmem => Nat.lt_irrefl _ (h.linked.inside p _ hmem))

lemma append_fresh (h : Refines d kids) {parent : Nat} (hparent : parent < d.size) (kind : Kind)
    (position : Position) : Refines ((d.create kind position).2.append parent d.size) (pushKid kids parent d.size) := by
  have h' := h.create kind position
  have hfree := h'.not_ancestor_of_leaf (h.linked.kids_of_le (Nat.le_refl d.size)) parent
  have hsize : d.size < (d.create kind position).2.size := by simp
  have happend := h'.append (Nat.lt_trans hparent hsize) hsize (Nat.ne_of_gt hparent) hfree
  rwa [h.takeKid_fresh] at happend

lemma replace (h : Refines d kids) {parent id replacement : Nat} (hid : d.parent id = some parent)
    (hreplacement : replacement < d.size) (hne : replacement ≠ id) (hfree : ¬ d.Ancestor replacement id) :
    Refines (d.replace id replacement) (swapKid (takeKid kids replacement) id replacement) := by
  have h' := (h.insertBefore hid hreplacement hne hfree).detach id
  have hnodup : ∀ p, (takeKid kids replacement p).Nodup := fun p => (h.linked.nodup p).erase replacement
  rwa [takeKid_placeKid hnodup hne] at h'

lemma detachAll (h : Refines d kids) (gone : List Nat) : Refines (gone.foldl Document.detach d) (dropKids kids gone) := by
  induction gone generalizing d kids with
  | nil =>
    have hkids : dropKids kids [] = kids := funext fun p => dropKids_of_disjoint (fun c _ hc => by cases hc)
    rwa [hkids]
  | cons id gone ih =>
    rw [← dropKids_takeKid h.linked.nodup]
    exact ih (h.detach id)

end Refines

lemma replace_of_orphan {id : Nat} (h : d.parent id = none) (replacement : Nat) : d.replace id replacement = d := by
  have hinsert : d.insertBefore id replacement = d := by rw [Document.insertBefore, h]
  rw [Document.replace, hinsert]
  exact detach_of_orphan h

/-- The nodes of a list that a choice takes, each out of a document without those taken before. -/
def taken (keep : Document → Nat → Bool) : Document → List Nat → List Nat
  | _, [] => []
  | d, c :: cs => if keep d c then c :: taken keep (d.detach c) cs else taken keep d cs

lemma taken_subset (keep : Document → Nat → Bool) : ∀ (d : Document) (cs : List Nat), taken keep d cs ⊆ cs
  | _, [] => fun _ hc => hc
  | d, c :: cs => by
    rw [taken]
    split
    · exact cons_subset_cons c (taken_subset keep (d.detach c) cs)
    · exact subset_cons_of_subset c (taken_subset keep d cs)

lemma taken_all : ∀ (d : Document) (cs : List Nat), taken (fun _ _ => true) d cs = cs
  | _, [] => rfl
  | d, c :: cs => by rw [taken, if_pos rfl, taken_all (d.detach c) cs]

lemma extractChildrenWhere_snd (d : Document) (id : Nat) (keep : Document → Nat → Bool) :
    (d.extractChildrenWhere id keep).2 = (taken keep d (d.children id)).foldl detach d := by
  have hfold : ∀ (cs : List Nat) (out d : Document), (cs.foldl (fun (p : Document × Document) child =>
      if keep p.2 child then (p.1.plant root (p.2.toTree child), p.2.detach child) else (p.1, p.2)) (out, d)).2 =
        (taken keep d cs).foldl detach d := by
    intro cs
    induction cs with
    | nil => exact fun _ _ => rfl
    | cons c cs ih =>
      intro out d
      rw [foldl_cons, taken]
      by_cases hkeep : keep d c
      · rw [if_pos hkeep, if_pos hkeep, ih, foldl_cons]
      · rw [if_neg hkeep, if_neg hkeep, ih]
  exact hfold (d.children id) (new d.file) d

/-! ## Documents grown from the document node -/

def Grown (d : Document) : Prop := 0 < d.size ∧ ∃ kids, d.Linked kids ∧ ∀ p, ∀ c ∈ kids p, p < c

lemma Grown.new (file : String) : Grown (new file) :=
  ⟨Nat.zero_lt_one, _, Linked.new file, fun _ _ hc => by cases hc⟩

lemma Grown.refines (h : Grown d) : ∃ kids, Refines d kids := by
  obtain ⟨-, kids, hlinked, hrising⟩ := h
  exact ⟨kids, .of_rising hlinked hrising⟩

lemma rising_pushKid {parent n : Nat} (h : ∀ p, ∀ c ∈ kids p, p < c) (hparent : parent < n) :
    ∀ p, ∀ c ∈ pushKid kids parent n p, p < c := by
  intro p c hc
  unfold pushKid at hc
  split at hc
  · rename_i hp
    rcases mem_append.1 hc with hc | hc
    · exact h p c hc
    · rw [mem_singleton.1 hc, hp]
      exact hparent
  · exact h p c hc

/-- Trees planted below a node are read off new nodes at the end of its list; everything else stays. -/
structure Planted (d d' : Document) (kids kids' : Nat → List Nat) (parent : Nat) (ts : List Tree) : Prop where
  linked : d'.Linked kids'
  rising : ∀ p, ∀ c ∈ kids' p, p < c
  size : d.size ≤ d'.size
  planted : ∃ ids, kids' parent = kids parent ++ ids ∧ d'.ReadAll kids' ts ids ∧ ∀ id ∈ ids, d.size ≤ id
  kind : ∀ x < d.size, d'.kind x = d.kind x
  position : ∀ x < d.size, d'.position x = d.position x
  lists : ∀ x < d.size, x ≠ parent → kids' x = kids x

mutual
theorem planted_plant {d : Document} {kids : Nat → List Nat} {parent : Nat} (h : d.Linked kids)
    (hrising : ∀ p, ∀ c ∈ kids p, p < c) (hparent : parent < d.size) :
    ∀ t : Tree, ∃ kids', Planted d (d.plant parent t) kids kids' parent [t]
  | .node kind position children => by
    have hsize : ((d.create kind position).2.append parent d.size).size = d.size + 1 := by
      rw [size_append, size_create]
    obtain ⟨kids', hp⟩ := planted_plantAll ((Refines.of_rising h hrising).append_fresh hparent kind position).linked
      (rising_pushKid hrising hparent) (by rw [hsize]; exact Nat.lt_succ_self _) children
    obtain ⟨ids, hids, hread, -⟩ := hp.planted
    have hbelow : ∀ {x}, x ≤ d.size → x < ((d.create kind position).2.append parent d.size).size := by
      omega
    have hkids : kids' d.size = ids := by
      rw [hids, pushKid_of_ne _ (Nat.ne_of_gt hparent), h.kids_of_le (Nat.le_refl _), nil_append]
    have hplant : d.plant parent (.node kind position children) =
        ((d.create kind position).2.append parent d.size).plantAll d.size children := by
      rfl
    rw [hplant]
    refine ⟨kids', hp.linked, hp.rising, Nat.le_trans (Nat.le_of_lt (hbelow (Nat.le_refl _))) hp.size,
      ⟨[d.size], ?_, ⟨d.size, [], rfl, ⟨?_, ?_, hkids ▸ hread⟩, rfl⟩, by simp⟩, fun x hx => ?_, fun x hx => ?_,
      fun x hx hne => ?_⟩
    · rw [hp.lists parent (hbelow (Nat.le_of_lt hparent)) (Nat.ne_of_lt hparent), pushKid, if_pos rfl]
    · rw [hp.kind _ (hbelow (Nat.le_refl _)), kind_append, kind_create, if_pos rfl]
    · rw [hp.position _ (hbelow (Nat.le_refl _)), position_append, position_create, if_pos rfl]
    · rw [hp.kind x (hbelow (Nat.le_of_lt hx)), kind_append, kind_create, if_neg (Nat.ne_of_lt hx)]
    · rw [hp.position x (hbelow (Nat.le_of_lt hx)), position_append, position_create, if_neg (Nat.ne_of_lt hx)]
    · rw [hp.lists x (hbelow (Nat.le_of_lt hx)) (Nat.ne_of_lt hx), pushKid_of_ne _ hne]

theorem planted_plantAll {d : Document} {kids : Nat → List Nat} {parent : Nat} (h : d.Linked kids)
    (hrising : ∀ p, ∀ c ∈ kids p, p < c) (hparent : parent < d.size) :
    ∀ ts : List Tree, ∃ kids', Planted d (d.plantAll parent ts) kids kids' parent ts
  | [] => ⟨kids, h, hrising, Nat.le_refl _, ⟨[], (append_nil _).symm, rfl, nofun⟩, fun _ _ => rfl, fun _ _ => rfl,
      fun _ _ _ => rfl⟩
  | t :: ts => by
    obtain ⟨kids₁, h₁⟩ := planted_plant h hrising hparent t
    obtain ⟨kids₂, h₂⟩ := planted_plantAll h₁.linked h₁.rising (Nat.lt_of_lt_of_le hparent h₁.size) ts
    obtain ⟨ids₁, hids₁, hread₁, hle₁⟩ := h₁.planted
    obtain ⟨ids₂, hids₂, hread₂, hle₂⟩ := h₂.planted
    have hagree : Agree (d.plant parent t) ((d.plant parent t).plantAll parent ts) kids₁ kids₂
        (fun x => d.size ≤ x ∧ x < (d.plant parent t).size) :=
      ⟨fun x hx => h₂.kind x hx.2, fun x hx => h₂.position x hx.2, fun x hx => h₂.lists x hx.2 (by omega),
        fun x hx y hy => ⟨Nat.le_trans hx.1 (Nat.le_of_lt (h₁.rising x y hy)), h₁.linked.inside x y hy⟩⟩
    have hfirst := ReadAll.mono hagree hread₁ (fun id hid =>
      ⟨hle₁ id hid, h₁.linked.inside parent id (hids₁ ▸ mem_append_right _ hid)⟩)
    have hlt : ∀ {x}, x < d.size → x < (d.plant parent t).size := fun hx => Nat.lt_of_lt_of_le hx h₁.size
    refine ⟨kids₂, h₂.linked, h₂.rising, Nat.le_trans h₁.size h₂.size, ⟨ids₁ ++ ids₂, ?_,
      readAll_append.2 ⟨ids₁, ids₂, rfl, hfirst, hread₂⟩, ?_⟩, fun x hx => (h₂.kind x (hlt hx)).trans (h₁.kind x hx),
      fun x hx => (h₂.position x (hlt hx)).trans (h₁.position x hx),
      fun x hx hne => (h₂.lists x (hlt hx) hne).trans (h₁.lists x hx hne)⟩
    · rw [hids₂, hids₁, append_assoc]
    · exact forall_mem_append.2 ⟨hle₁, fun id hid => Nat.le_trans h₁.size (hle₂ id hid)⟩
end

lemma Grown.plantAll (h : Grown d) {parent : Nat} (hparent : parent < d.size) (ts : List Tree) :
    Grown (d.plantAll parent ts) := by
  obtain ⟨hsize, kids, hlinked, hrising⟩ := h
  obtain ⟨kids', hplanted⟩ := planted_plantAll hlinked hrising hparent ts
  exact ⟨Nat.lt_of_lt_of_le hsize hplanted.size, kids', hplanted.linked, hplanted.rising⟩

/-- The trees of the nodes that a choice takes, each as it is when it is taken. -/
def takenTrees (keep : Document → Nat → Bool) : Document → List Nat → List Tree
  | _, [] => []
  | d, c :: cs => if keep d c then d.toTree c :: takenTrees keep (d.detach c) cs else takenTrees keep d cs

lemma extractChildrenWhere_fst (d : Document) (id : Nat) (keep : Document → Nat → Bool) :
    (d.extractChildrenWhere id keep).1 = (new d.file).plantAll root (takenTrees keep d (d.children id)) := by
  have hfold : ∀ (cs : List Nat) (out d : Document), (cs.foldl (fun (p : Document × Document) child =>
      if keep p.2 child then (p.1.plant root (p.2.toTree child), p.2.detach child) else (p.1, p.2)) (out, d)).1 =
        out.plantAll root (takenTrees keep d cs) := by
    intro cs
    induction cs with
    | nil => exact fun _ _ => rfl
    | cons c cs ih =>
      intro out d
      rw [foldl_cons, takenTrees]
      by_cases hkeep : keep d c
      · rw [if_pos hkeep, if_pos hkeep, ih, plantAll]
      · rw [if_neg hkeep, if_neg hkeep, ih]
  exact hfold (d.children id) (new d.file) d

lemma grown_extractChildrenWhere (d : Document) (id : Nat) (keep : Document → Nat → Bool) :
    Grown (d.extractChildrenWhere id keep).1 := by
  rw [extractChildrenWhere_fst]
  exact (Grown.new d.file).plantAll Nat.zero_lt_one _

lemma grown_of_parse {source file : String} (h : Document.parse source file = .ok d) : Grown d := by
  obtain ⟨b, hb, hclose⟩ := exists_of_ofTokens h
  obtain ⟨nest, kids, -, hrep⟩ := (Represents.new source file).takeAll hb
  rw [Builder.close] at hclose
  split at hclose
  · cases hclose
    exact ⟨Nat.lt_of_le_of_lt (Nat.zero_le _) hrep.current_lt, kids, hrep.linked, hrep.rising⟩
  · cases hclose

/-! ## Operations -/

inductive Operation where
  | create (kind : Kind) (position : Position)
  | append (parent child : Nat)
  | insertBefore (reference child : Nat)
  | detach (id : Nat)
  | replace (id replacement : Nat)
  | replaceWithRaw (id : Nat) (html : String)
  | neutralize (id : Nat)
  | appendText (parent : Nat) (s : String) (position : Position)
  | extract (id : Nat)
  | extractChildren (id : Nat)
  | extractChildrenWhere (id : Nat) (keep : Document → Nat → Bool)

namespace Operation

def run (d : Document) : Operation → Document
  | create kind position => (d.create kind position).2
  | append parent child => d.append parent child
  | insertBefore reference child => d.insertBefore reference child
  | detach id => d.detach id
  | replace id replacement => d.replace id replacement
  | replaceWithRaw id html => (d.replaceWithRaw id html).2
  | neutralize id => d.neutralize id
  | appendText parent s position => d.appendText parent s position
  | extract id => (d.extract id).2
  | extractChildren id => (d.extractChildren id).2
  | extractChildrenWhere id keep => (d.extractChildrenWhere id keep).2

def moved? (d : Document) : Operation → Option Document
  | extract id => some (d.extract id).1
  | extractChildren id => some (d.extractChildren id).1
  | extractChildrenWhere id keep => some (d.extractChildrenWhere id keep).1
  | _ => none

def nodes : Operation → List Nat
  | create _ _ => []
  | append parent child => [parent, child]
  | insertBefore reference child => [reference, child]
  | replace id replacement => [id, replacement]
  | detach id | replaceWithRaw id _ | neutralize id | appendText id _ _ | extract id | extractChildren id
  | extractChildrenWhere id _ => [id]

def link? : Operation → Option (Nat × Nat)
  | append parent child => some (child, parent)
  | insertBefore reference child => some (child, reference)
  | replace id replacement => some (replacement, id)
  | _ => none

def Allowed (d : Document) (op : Operation) : Prop :=
  (∀ id ∈ op.nodes, id < d.size) ∧
    ∀ linked target, op.link? = some (linked, target) → linked ≠ target ∧ ¬ d.Ancestor linked target

def lists (d : Document) (kids : Nat → List Nat) : Operation → Nat → List Nat
  | create _ _ => kids
  | append parent child => pushKid (takeKid kids child) parent child
  | insertBefore reference child =>
    -- beside a node that stands nowhere there is no place
    if d.parent reference = none then kids else placeKid (takeKid kids child) reference child
  | replace id replacement =>
    if d.parent id = none then kids else swapKid (takeKid kids replacement) id replacement
  | replaceWithRaw id _ => swapKid kids id d.size
  | appendText parent _ _ =>
    if (kids parent).getLast?.any (fun c => (d.kind c).text?.isSome) then kids else pushKid kids parent d.size
  | detach id | extract id => takeKid kids id
  | neutralize id | extractChildren id => clearKids kids id
  | extractChildrenWhere id keep => dropKids kids (taken keep d (kids id))

def parents (d : Document) : Operation → List (Option Nat)
  | create _ _ => []
  | append parent child => [some parent, d.parent child]
  | insertBefore id child | replace id child => [d.parent id, d.parent child]
  | detach id | extract id | replaceWithRaw id _ => [d.parent id]
  | neutralize id | extractChildren id | extractChildrenWhere id _ | appendText id _ _ => [some id]

end Operation

namespace Refines

lemma replaceWithRaw (h : Refines d kids) {id : Nat} (hid : id < d.size) (html : String) :
    Refines (d.replaceWithRaw id html).2 (swapKid kids id d.size) := by
  have h' := h.create (.raw html) (d.position id)
  have hparent : (d.create (.raw html) (d.position id)).2.parent id = d.parent id := by
    rw [parent, links_create]
    rfl
  cases hp : d.parent id with
  | none =>
    have hsame : swapKid kids id d.size = kids :=
      funext fun p => swapKid_of_not_mem (h.linked.not_mem_of_orphan hp p) _
    rw [hsame]
    show Refines ((d.create (.raw html) (d.position id)).2.replace id d.size) kids
    rwa [replace_of_orphan (by rw [hparent, hp])]
  | some p =>
    have hfree := h'.not_ancestor_of_leaf (h.linked.kids_of_le (Nat.le_refl d.size)) id
    have hreplace := h'.replace (by rw [hparent, hp]) (by rw [size_create]; omega) (Nat.ne_of_gt hid) hfree
    rwa [h.takeKid_fresh] at hreplace

lemma neutralize (h : Refines d kids) (id : Nat) : Refines (d.neutralize id) (clearKids kids id) := by
  have h' := h.detachAll (kids id)
  rw [h.linked.dropKids_kids] at h'
  rw [Document.neutralize, h.children_eq]
  exact h'.setKind id (.raw "")

lemma extractChildrenWhere (h : Refines d kids) (id : Nat) (keep : Document → Nat → Bool) :
    Refines (d.extractChildrenWhere id keep).2 (dropKids kids (taken keep d (kids id))) := by
  rw [extractChildrenWhere_snd, h.children_eq]
  exact h.detachAll _

lemma appendText (h : Refines d kids) {parent : Nat} (hparent : parent < d.size) (s : String) (position : Position) :
    Refines (d.appendText parent s position) ((Operation.appendText parent s position).lists d kids) := by
  have hfresh := h.append_fresh hparent (.text s) position
  rw [Operation.lists, Document.appendText, h.linked.last]
  cases (kids parent).getLast? with
  | none => exact hfresh
  | some last =>
    cases hkind : d.kind last with
    | text existing =>
      simp only [Option.map_some, hkind, Option.any_some]
      exact h.setKind last _
    | _ =>
      simp only [Option.map_some, hkind, Option.any_some]
      exact hfresh

lemma run (h : Refines d kids) {op : Operation} (hop : op.Allowed d) : Refines (op.run d) (op.lists d kids) := by
  obtain ⟨hnodes, hlink⟩ := hop
  cases op with
  | create kind position => exact h.create kind position
  | append parent child =>
    obtain ⟨hne, hfree⟩ := hlink child parent rfl
    exact h.append (hnodes parent (by simp [Operation.nodes])) (hnodes child (by simp [Operation.nodes])) hne hfree
  | insertBefore reference child =>
    obtain ⟨hne, hfree⟩ := hlink child reference rfl
    cases hp : d.parent reference with
    | none => simpa [Operation.run, Operation.lists, hp, Document.insertBefore] using h
    | some parent =>
      rw [Operation.lists, if_neg (by rw [hp]; exact Option.some_ne_none _)]
      exact h.insertBefore hp (hnodes child (by simp [Operation.nodes])) hne hfree
  | replace id replacement =>
    obtain ⟨hne, hfree⟩ := hlink replacement id rfl
    cases hp : d.parent id with
    | none => simpa [Operation.run, Operation.lists, hp, replace_of_orphan hp] using h
    | some parent =>
      rw [Operation.lists, if_neg (by rw [hp]; exact Option.some_ne_none _)]
      exact h.replace hp (hnodes replacement (by simp [Operation.nodes])) hne hfree
  | replaceWithRaw id html => exact h.replaceWithRaw (hnodes id (by simp [Operation.nodes])) html
  | appendText parent s position => exact h.appendText (hnodes parent (by simp [Operation.nodes])) s position
  | detach id => exact h.detach id
  | extract id => exact h.detach id
  | neutralize id => exact h.neutralize id
  | extractChildren id =>
    have h' := h.extractChildrenWhere id (fun _ _ => true)
    rwa [taken_all, h.linked.dropKids_kids] at h'
  | extractChildrenWhere id keep => exact h.extractChildrenWhere id keep

lemma lists_of_untouched (h : Refines d kids) {op : Operation} {p : Nat} (hp : some p ∉ op.parents d) :
    op.lists d kids p = kids p := by
  have hout : ∀ {c : Nat}, some p ≠ d.parent c → c ∉ kids p := fun hc hmem => hc (h.parent_iff.2 hmem).symm
  have htake : ∀ {c : Nat}, some p ≠ d.parent c → takeKid kids c p = kids p := fun hc => takeKid_of_not_mem (hout hc)
  cases op with
  | create kind position => rfl
  | append parent child =>
    simp only [Operation.parents, mem_cons, not_mem_nil, or_false, not_or, Option.some.injEq] at hp
    rw [Operation.lists, pushKid_of_ne _ hp.1, htake hp.2]
  | insertBefore reference child =>
    simp only [Operation.parents, mem_cons, not_mem_nil, or_false, not_or] at hp
    rw [Operation.lists]
    split
    · rfl
    · rw [placeKid_of_not_mem (by rw [htake hp.2]; exact hout hp.1), htake hp.2]
  | replace id replacement =>
    simp only [Operation.parents, mem_cons, not_mem_nil, or_false, not_or] at hp
    rw [Operation.lists]
    split
    · rfl
    · rw [swapKid_of_not_mem (by rw [htake hp.2]; exact hout hp.1), htake hp.2]
  | replaceWithRaw id html => exact swapKid_of_not_mem (hout (fun heq => hp (by rw [heq]; exact mem_singleton.2 rfl))) _
  | appendText parent s position =>
    have hne : p ≠ parent := fun heq => hp (by rw [heq]; exact mem_singleton.2 rfl)
    rw [Operation.lists]
    split
    · rfl
    · exact pushKid_of_ne _ hne
  | detach id => exact htake (fun heq => hp (by rw [heq]; exact mem_singleton.2 rfl))
  | extract id => exact htake (fun heq => hp (by rw [heq]; exact mem_singleton.2 rfl))
  | neutralize id => exact if_neg (fun heq => hp (by rw [heq]; exact mem_singleton.2 rfl))
  | extractChildren id => exact if_neg (fun heq => hp (by rw [heq]; exact mem_singleton.2 rfl))
  | extractChildrenWhere id keep =>
    have hne : p ≠ id := fun heq => hp (by rw [heq]; exact mem_singleton.2 rfl)
    exact dropKids_of_disjoint (fun c hc hmem => hne (h.linked.parent_unique hc (taken_subset keep d _ hmem)))

lemma next_iff_previous (h : Refines d kids) (a b : Nat) :
    (d.links a).next = some b ↔ (d.links b).previous = some a := by
  constructor
  · intro hab
    cases hp : (d.links a).parent with
    | none =>
      rw [(h.linked.orphan a hp).2] at hab
      cases hab
    | some p =>
      obtain ⟨before, after, hsplit⟩ := append_of_mem ((h.linked.parent p a).1 hp)
      rw [(h.linked.siblings p before a after hsplit).2] at hab
      obtain ⟨rest, rfl⟩ := head?_eq_some_iff.1 hab
      rw [(h.linked.siblings p (before ++ [a]) b rest (by simp [hsplit])).1]
      simp
  · intro hba
    cases hp : (d.links b).parent with
    | none =>
      rw [(h.linked.orphan b hp).1] at hba
      cases hba
    | some p =>
      obtain ⟨before, after, hsplit⟩ := append_of_mem ((h.linked.parent p b).1 hp)
      rw [(h.linked.siblings p before b after hsplit).1] at hba
      obtain ⟨rest, rfl⟩ := getLast?_eq_some_iff.1 hba
      rw [(h.linked.siblings p rest a (b :: after) (by simp [hsplit])).2]
      rfl

end Refines

/-! ## Documents that operations lead to -/

/-- The documents that operations lead to from an empty or a parsed one, those that nodes are moved into included. -/
inductive Reached : Document → Prop
  | new (file : String) : Reached (new file)
  | parsed {source file : String} {d : Document} (h : Document.parse source file = .ok d) : Reached d
  | run {d : Document} (op : Operation) (h : Reached d) (hop : op.Allowed d) : Reached (op.run d)
  | moved {d d' : Document} (op : Operation) (h : Reached d) (hop : op.Allowed d) (hmoved : op.moved? d = some d') :
    Reached d'

lemma Operation.grown_moved {op : Operation} {d' : Document} (h : op.moved? d = some d') : Grown d' := by
  cases op with
  | extract id =>
    cases h
    exact (Grown.new d.file).plantAll Nat.zero_lt_one [d.toTree id]
  | extractChildren id =>
    cases h
    exact grown_extractChildrenWhere d id _
  | extractChildrenWhere id keep =>
    cases h
    exact grown_extractChildrenWhere d id keep
  | _ => cases h

lemma Reached.refines (h : Reached d) : Refines d d.children := by
  have hsome : ∃ kids, Refines d kids := by
    induction h with
    | new file => exact (Grown.new file).refines
    | parsed h => exact (grown_of_parse h).refines
    | run op _ hop ih =>
      obtain ⟨kids, hkids⟩ := ih
      exact ⟨_, hkids.run hop⟩
    | moved op _ _ hmoved => exact (Operation.grown_moved hmoved).refines
  obtain ⟨kids, hkids⟩ := hsome
  rwa [hkids.children_eq]

/-- **Linked nodes are a forest of lists of children.**  In every document that operations lead to, the links are those
of the lists of children and no node stands below itself; every operation does to the lists what it says and leaves the
other lists alone; and the descendants of a node are the forest below it in document order, each node once. -/
theorem Reached.children_run (h : Reached d) :
    Refines d d.children ∧ (∀ a b, (d.links a).next = some b ↔ (d.links b).previous = some a) ∧
      (∀ op : Operation, op.Allowed d → (op.run d).children = op.lists d d.children ∧
        ∀ p, some p ∉ op.parents d → (op.run d).children p = d.children p) ∧
      ∀ id, Preorder d.children (d.children id) (d.descendants id) ∧ (d.descendants id).Nodup := by
  have hd := h.refines
  refine ⟨hd, hd.next_iff_previous, fun op hop => ?_, fun id => ⟨hd.preorder id, hd.nodup_descendants id⟩⟩
  have hrun := (hd.run hop).children_eq
  refine ⟨hrun, fun p hp => ?_⟩
  rw [hrun, hd.lists_of_untouched hp]

def listAndParagraph : Document := ⟨"", [⟨.document, {}, { first := some 1, last := some 4 }⟩,
  ⟨.element ⟨"ul", []⟩, ⟨1, 1⟩, { parent := some 0, first := some 2, last := some 3, next := some 4 }⟩,
  ⟨.element ⟨"li", []⟩, ⟨1, 5⟩, { parent := some 1, next := some 3 }⟩,
  ⟨.element ⟨"li", []⟩, ⟨1, 14⟩, { parent := some 1, previous := some 2 }⟩,
  ⟨.element ⟨"p", []⟩, ⟨1, 28⟩, { parent := some 0, previous := some 1 }⟩]⟩

/-- The paragraph is put in the place of the first item of the list. -/
theorem Reached.children_run_moved : Reached listAndParagraph ∧ (Operation.replace 2 4).Allowed listAndParagraph ∧
    (listAndParagraph.replace 2 4).children root = [1] ∧ (listAndParagraph.replace 2 4).children 1 = [4, 3] ∧
      (listAndParagraph.descendants root).Nodup := by
  have hreached : Reached listAndParagraph :=
    .parsed (show Document.parse "<ul><li></li><li></li></ul><p></p>" "" = .ok listAndParagraph by rfl)
  obtain ⟨hrefines, -, hrun, hdescendants⟩ := hreached.children_run
  have hallowed : (Operation.replace 2 4).Allowed listAndParagraph := by
    refine ⟨by decide, fun linked target hlink => ?_⟩
    cases hlink
    exact ⟨by decide, hrefines.not_ancestor_of_leaf (by decide) 2⟩
  have hlists := (hrun _ hallowed).1
  exact ⟨hreached, hallowed, (congrFun hlists root).trans (by decide), (congrFun hlists 1).trans (by decide),
    (hdescendants root).2⟩

end ReactiveTemplate.Markup.Document
