import ReactiveTemplate.Markup.Document
import Mathlib.Data.List.Basic
import Mathlib.Data.List.Perm.Subperm
/-!
# Links — the links of a document as lists of children

`Linked d kids` says that the links of a document are those of the lists of children `kids`.
-/
set_option linter.all false

namespace ReactiveTemplate.Markup.Document
open List

variable {p id : Nat}

variable {d : Document}

/-! ## Changing one node -/

lemma size_modify (d : Document) (id : Nat) (f : Cell → Cell) : (d.modify id f).size = d.size := by
  simp [size, modify]

@[simp] lemma size_relink (d : Document) (id : Nat) (f : Links → Links) : (d.relink id f).size = d.size :=
  size_modify d id _

@[simp] lemma size_setKind (d : Document) (id : Nat) (kind : Kind) : (d.setKind id kind).size = d.size :=
  size_modify d id _

lemma cell_modify (hid : id < d.size) (f : Cell → Cell) (j : Nat) :
    (d.modify id f).cell j = if j = id then f (d.cell j) else d.cell j := by
  have hid' : id < d.cells.length := hid
  simp only [modify, cell, getElem?_modify]
  by_cases h : id = j
  · subst h
    simp [getElem?_eq_getElem hid']
  · have h' : j ≠ id := Ne.symm h
    cases d.cells[j]? <;> simp [h, h']

lemma of_cell_modify {α : Type} (part : Cell → α) {f : Cell → Cell} (hpart : ∀ c, part (f c) = part c)
    (d : Document) (id j : Nat) : part ((d.modify id f).cell j) = part (d.cell j) := by
  simp only [modify, cell, getElem?_modify]
  cases d.cells[j]? with
  | none => rfl
  | some c =>
    split
    · exact hpart c
    · rfl

lemma links_relink (hid : id < d.size) (f : Links → Links) (j : Nat) :
    (d.relink id f).links j = if j = id then f (d.links j) else d.links j := by
  simp only [links, relink, cell_modify hid]
  split <;> rfl

@[simp] lemma kind_relink (d : Document) (id : Nat) (f : Links → Links) (j : Nat) :
    (d.relink id f).kind j = d.kind j :=
  of_cell_modify Cell.kind (f := fun c => ⟨c.kind, c.position, f c.links⟩) (fun _ => rfl) d id j

@[simp] lemma position_relink (d : Document) (id : Nat) (f : Links → Links) (j : Nat) :
    (d.relink id f).position j = d.position j :=
  of_cell_modify Cell.position (f := fun c => ⟨c.kind, c.position, f c.links⟩) (fun _ => rfl) d id j

@[simp] lemma links_setKind (d : Document) (id : Nat) (kind : Kind) (j : Nat) :
    (d.setKind id kind).links j = d.links j :=
  of_cell_modify Cell.links (f := fun c => ⟨kind, c.position, c.links⟩) (fun _ => rfl) d id j

@[simp] lemma position_setKind (d : Document) (id : Nat) (kind : Kind) (j : Nat) :
    (d.setKind id kind).position j = d.position j :=
  of_cell_modify Cell.position (f := fun c => ⟨kind, c.position, c.links⟩) (fun _ => rfl) d id j

lemma kind_setKind (hid : id < d.size) (k : Kind) (j : Nat) :
    (d.setKind id k).kind j = if j = id then k else d.kind j := by
  simp only [kind, setKind, cell_modify hid]
  split <;> rfl

/-! ## New nodes -/

@[simp] lemma size_create (d : Document) (kind : Kind) (position : Position) :
    (d.create kind position).2.size = d.size + 1 := by
  simp [create, size]

lemma cell_create (d : Document) (kind : Kind) (position : Position) (j : Nat) :
    (d.create kind position).2.cell j = if j = d.size then ⟨kind, position, {}⟩ else d.cell j := by
  unfold create cell size
  rw [getElem?_append]
  by_cases h : j < d.cells.length
  · rw [if_pos h, if_neg (by omega)]
  · rw [if_neg h]
    by_cases heq : j = d.cells.length
    · rw [if_pos heq, heq, Nat.sub_self]
      rfl
    · have h1 : d.cells[j]? = none := getElem?_eq_none (by omega)
      have h2 : ([⟨kind, position, {}⟩] : List Cell)[j - d.cells.length]? = none :=
        getElem?_eq_none (by rw [length_singleton]; omega)
      rw [if_neg heq, h1, h2]

lemma cell_of_le {j : Nat} (h : d.size ≤ j) : d.cell j = ⟨.document, {}, {}⟩ := by
  rw [cell, getElem?_eq_none h]
  rfl

@[simp] lemma links_create (d : Document) (kind : Kind) (position : Position) (j : Nat) :
    (d.create kind position).2.links j = d.links j := by
  rw [links, cell_create, links]
  split
  · rename_i h
    rw [h, cell_of_le (Nat.le_refl _)]
  · rfl

lemma kind_create (d : Document) (k : Kind) (position : Position) (j : Nat) :
    (d.create k position).2.kind j = if j = d.size then k else d.kind j := by
  rw [kind, cell_create]
  split <;> rfl

lemma position_create (d : Document) (k : Kind) (p : Position) (j : Nat) :
    (d.create k p).2.position j = if j = d.size then p else d.position j := by
  rw [position, cell_create]
  split <;> rfl

lemma links_of_le {j : Nat} (h : d.size ≤ j) : d.links j = {} := by
  rw [links, cell_of_le h]

/-! ## Lists of children -/

structure Linked (d : Document) (kids : Nat → List Nat) : Prop where
  inside : ∀ p, ∀ c ∈ kids p, c < d.size
  nodup : ∀ p, (kids p).Nodup
  first : ∀ p, (d.links p).first = (kids p).head?
  last : ∀ p, (d.links p).last = (kids p).getLast?
  parent : ∀ p c, (d.links c).parent = some p ↔ c ∈ kids p
  siblings : ∀ p before c after, kids p = before ++ c :: after →
    (d.links c).previous = before.getLast? ∧ (d.links c).next = after.head?
  orphan : ∀ c, (d.links c).parent = none → (d.links c).previous = none ∧ (d.links c).next = none

def pushKid (kids : Nat → List Nat) (parent child : Nat) : Nat → List Nat :=
  fun p => if p = parent then kids p ++ [child] else kids p

lemma pushKid_self (kids : Nat → List Nat) (parent child : Nat) :
    pushKid kids parent child parent = kids parent ++ [child] := if_pos rfl

lemma pushKid_of_ne (kids : Nat → List Nat) {parent child : Nat} (h : p ≠ parent) :
    pushKid kids parent child p = kids p := if_neg h

namespace Linked

variable {kids : Nat → List Nat}

lemma new (file : String) : Linked (Document.new file) (fun _ => []) := by
  have hlinks : ∀ j, (Document.new file).links j = {} := by
    intro j
    rcases j with _ | j
    · rfl
    · exact links_of_le (by simp [size, Document.new])
  exact ⟨nofun, fun _ => nodup_nil, by simp [hlinks], by simp [hlinks], by simp [hlinks], by simp, by simp [hlinks]⟩

lemma of_links {d' : Document} (h : Linked d kids) (hsize : d.size ≤ d'.size) (hlinks : ∀ j, d'.links j = d.links j) :
    Linked d' kids := by
  have hlinks : d'.links = d.links := funext hlinks
  exact ⟨fun p c hc => Nat.lt_of_lt_of_le (h.inside p c hc) hsize, h.nodup, hlinks ▸ h.first, hlinks ▸ h.last,
    hlinks ▸ h.parent, hlinks ▸ h.siblings, hlinks ▸ h.orphan⟩

lemma create (h : Linked d kids) (kind : Kind) (position : Position) : Linked (d.create kind position).2 kids :=
  h.of_links (by simp) (links_create d kind position)

lemma setKind (h : Linked d kids) (id : Nat) (kind : Kind) : Linked (d.setKind id kind) kids :=
  h.of_links (by simp) (links_setKind d id kind)

lemma kids_of_le (h : Linked d kids) (hp : d.size ≤ p) : kids p = [] := by
  have := h.first p
  rw [links_of_le hp] at this
  exact head?_eq_none_iff.1 this.symm

lemma parent_unique (h : Linked d kids) {q c : Nat} (hp : c ∈ kids p) (hq : c ∈ kids q) : p = q := by
  have hp' := (h.parent p c).2 hp
  rw [(h.parent q c).2 hq] at hp'
  exact (Option.some.inj hp').symm

lemma siblings_eq (h : Linked d kids) (p : Nat) : ∀ (fuel : Nat) (before after : List Nat),
    kids p = before ++ after → after.length ≤ fuel → d.siblings fuel after.head? = after
  | fuel, before, [], _, _ => by cases fuel <;> rfl
  | 0, before, c :: after, _, hfuel => by simp at hfuel
  | fuel + 1, before, c :: after, heq, hfuel => by
    rw [head?_cons, Document.siblings, (h.siblings p before c after heq).2,
      siblings_eq h p fuel (before ++ [c]) after (by rw [heq]; simp) (by simpa using hfuel)]

lemma children_eq (h : Linked d kids) (p : Nat) : d.children p = kids p := by
  have hlength : (kids p).length ≤ d.size := by
    have hsub : kids p ⊆ range d.size := fun c hc => mem_range.2 (h.inside p c hc)
    simpa using (subperm_of_subset (h.nodup p) hsub).length_le
  rw [children, h.first]
  exact h.siblings_eq p d.size [] (kids p) rfl hlength

lemma lt_size (h : Linked d kids) {c : Nat} (hc : c ∈ kids p) : p < d.size := by
  by_contra hp
  rw [h.kids_of_le (by omega)] at hc
  cases hc

lemma not_mem_of_orphan (h : Linked d kids) {child : Nat} (horphan : (d.links child).parent = none) (p : Nat) :
    child ∉ kids p := by
  intro hmem
  rw [(h.parent p child).2 hmem] at horphan
  cases horphan

end Linked
end ReactiveTemplate.Markup.Document
