import ReactiveTemplate.Proofs.Markup.Links
import Mathlib.Data.List.Nodup
/-!
# Relinking — taking nodes out of lists of children and putting them in

Linking a node in opens a gap among children, and taking one out mends the links on both sides; `linkAhead` and
`linkBehind` write the one link that is there on a side.  Either way one node, or none, comes to stand between two lists
of children where one, or none, has stood (`Splices`).
-/
set_option linter.all false

namespace ReactiveTemplate.Markup
open List

variable {p : Nat}

def Links.unlinked (k : Links) : Links := { k with parent := none, previous := none, next := none }

/-- The links of node `j` once, among the children of `parent`, `new` stands between `previous` and `next` for `old`. -/
def Links.spliced (k : Links) (parent : Nat) (previous next old new : Option Nat) (j : Nat) : Links where
  parent := if old = some j then none else if new = some j then some parent else k.parent
  first := if previous = none ∧ j = parent then new <|> next else k.first
  last := if next = none ∧ j = parent then new <|> previous else k.last
  previous := if old = some j then none else if next = some j then new <|> previous
    else if new = some j then previous else k.previous
  next := if old = some j then none else if previous = some j then new <|> next
    else if new = some j then next else k.next

namespace Document

variable {d : Document}

/-! ## Either side of a place among children -/

def linkAhead (d : Document) (parent : Nat) (previous target : Option Nat) : Document :=
  match previous with
  | some p => d.relink p (fun k => { k with next := target })
  | none => d.relink parent (fun k => { k with first := target })

def linkBehind (d : Document) (parent : Nat) (next target : Option Nat) : Document :=
  match next with
  | some n => d.relink n (fun k => { k with previous := target })
  | none => d.relink parent (fun k => { k with last := target })

@[simp] lemma size_linkAhead (d : Document) (parent : Nat) (previous target : Option Nat) :
    (d.linkAhead parent previous target).size = d.size := by
  cases previous <;> simp [linkAhead]

@[simp] lemma size_linkBehind (d : Document) (parent : Nat) (next target : Option Nat) :
    (d.linkBehind parent next target).size = d.size := by
  cases next <;> simp [linkBehind]

lemma links_linkAhead {parent : Nat} (hparent : parent < d.size) {previous : Option Nat}
    (hprevious : ∀ p ∈ previous, p < d.size) (target : Option Nat) (j : Nat) :
    (d.linkAhead parent previous target).links j =
      { d.links j with
        first := if previous = none ∧ j = parent then target else (d.links j).first
        next := if previous = some j then target else (d.links j).next } := by
  cases previous with
  | none =>
    rw [linkAhead, links_relink hparent]
    by_cases hj : j = parent <;> simp [hj]
  | some p =>
    rw [linkAhead, links_relink (hprevious p rfl)]
    by_cases hj : j = p
    · simp [hj]
    · simp [hj, Ne.symm hj]

lemma links_linkBehind {parent : Nat} (hparent : parent < d.size) {next : Option Nat}
    (hnext : ∀ n ∈ next, n < d.size) (target : Option Nat) (j : Nat) :
    (d.linkBehind parent next target).links j =
      { d.links j with
        last := if next = none ∧ j = parent then target else (d.links j).last
        previous := if next = some j then target else (d.links j).previous } := by
  cases next with
  | none =>
    rw [linkBehind, links_relink hparent]
    by_cases hj : j = parent <;> simp [hj]
  | some n =>
    rw [linkBehind, links_relink (hnext n rfl)]
    by_cases hj : j = n
    · simp [hj]
    · simp [hj, Ne.symm hj]

lemma detach_of_orphan {id : Nat} (h : (d.links id).parent = none) : d.detach id = d := by
  simp [detach, h]

lemma detach_eq {id parent : Nat} (h : (d.links id).parent = some parent) :
    d.detach id = ((d.linkAhead parent (d.links id).previous (d.links id).next).linkBehind parent (d.links id).next
      (d.links id).previous).relink id Links.unlinked := by
  simp only [detach, h]
  rfl

lemma append_eq (parent : Nat) {child : Nat} (horphan : (d.links child).parent = none) :
    d.append parent child =
      ((d.relink child (fun k => { k with parent := some parent, previous := (d.links parent).last })).linkAhead
        parent (d.links parent).last (some child)).linkBehind parent none (some child) := by
  simp only [append, detach_of_orphan horphan]
  rfl

lemma insertBefore_eq {reference child parent : Nat} (h : d.parent reference = some parent)
    (horphan : (d.links child).parent = none) :
    d.insertBefore reference child =
      ((d.relink child (fun k =>
        { k with parent := some parent, previous := (d.links reference).previous, next := some reference })).linkBehind
          parent (some reference) (some child)).linkAhead parent (d.links reference).previous (some child) := by
  simp only [insertBefore, h, detach_of_orphan horphan]
  rfl

section

variable {α : Type} (part : Document → α) (hpart : ∀ d id f, part (relink d id f) = part d)

include hpart

lemma of_detach (d : Document) (id : Nat) : part (d.detach id) = part d := by
  simp only [detach]
  split
  · rfl
  · split <;> split <;> simp only [hpart]

lemma of_append (d : Document) (parent child : Nat) : part (d.append parent child) = part d := by
  simp only [append]
  split <;> simp only [hpart, of_detach part hpart]

end

@[simp] lemma size_detach (d : Document) (id : Nat) : (d.detach id).size = d.size := of_detach size size_relink d id

@[simp] lemma kind_detach (d : Document) (id x : Nat) : (d.detach id).kind x = d.kind x :=
  of_detach (·.kind x) (fun d id f => kind_relink d id f x) d id

@[simp] lemma position_detach (d : Document) (id x : Nat) : (d.detach id).position x = d.position x :=
  of_detach (·.position x) (fun d id f => position_relink d id f x) d id

@[simp] lemma size_append (d : Document) (parent child : Nat) : (d.append parent child).size = d.size :=
  of_append size size_relink d parent child

@[simp] lemma kind_append (d : Document) (parent child x : Nat) : (d.append parent child).kind x = d.kind x :=
  of_append (·.kind x) (fun d id f => kind_relink d id f x) d parent child

@[simp] lemma position_append (d : Document) (parent child x : Nat) :
    (d.append parent child).position x = d.position x :=
  of_append (·.position x) (fun d id f => position_relink d id f x) d parent child

/-! ## Lists of children -/

def takeKid (kids : Nat → List Nat) (child : Nat) : Nat → List Nat := fun p => (kids p).erase child

def placeKid (kids : Nat → List Nat) (reference child : Nat) : Nat → List Nat :=
  fun p => (kids p).flatMap (fun x => if x = reference then [child, x] else [x])

lemma flatMap_place_of_not_mem {reference : Nat} (child : Nat) : ∀ l : List Nat, reference ∉ l →
    l.flatMap (fun x => if x = reference then [child, x] else [x]) = l
  | [], _ => rfl
  | x :: l, h => by
    have hx : x ≠ reference := fun he => h (he ▸ (.head _))
    rw [flatMap_cons, if_neg hx, flatMap_place_of_not_mem child l (fun hm => h (mem_cons_of_mem _ hm))]
    rfl

/-- What stands behind a node once the list ends differently: it is new only if the node was the last one kept. -/
lemma next_of_front {c : Nat} {bs rest : List Nat} (h : (bs ++ c :: rest).Nodup) (new old : List Nat) :
    (if (bs ++ c :: rest).getLast? = some c then new.head? else (rest ++ old).head?) = (rest ++ new).head? := by
  rcases eq_nil_or_concat' rest with rfl | ⟨rest, x, rfl⟩
  · simp
  · have hx : x ≠ c := by
      rintro rfl
      simp [nodup_append] at h
    have hlast : (bs ++ c :: (rest ++ [x])).getLast? = some x := by
      rw [← cons_append, ← append_assoc, getLast?_concat]
    rw [hlast, if_neg (by simpa using hx)]
    cases rest <;> simp

lemma not_mem_sides {id : Nat} {before after : List Nat} (h : (before ++ id :: after).Nodup) :
    id ∉ before ∧ id ∉ after := by
  obtain ⟨-, hcons, hdisjoint⟩ := nodup_append.1 h
  exact ⟨fun hm => hdisjoint _ hm _ (.head _) rfl, (nodup_cons.1 hcons).1⟩

lemma split_middle {before after bs as : List Nat} {middle : Option Nat} {c : Nat}
    (h : before ++ (middle.toList ++ after) = bs ++ c :: as) :
    (∃ rest, before = bs ++ c :: rest ∧ as = rest ++ (middle.toList ++ after)) ∨
      (middle = some c ∧ bs = before ∧ as = after) ∨
      ∃ rest, after = rest ++ c :: as ∧ bs = before ++ (middle.toList ++ rest) := by
  rcases append_eq_append_iff.1 h with ⟨rest, rfl, hcs⟩ | ⟨rest, rfl, hcs⟩
  · cases middle with
    | none => exact .inr (.inr ⟨rest, hcs, rfl⟩)
    | some x =>
      cases rest with
      | nil => simp_all
      | cons y rest => simp_all
  · cases rest with
    | nil => cases middle <;> simp_all
    | cons x rest =>
      obtain ⟨rfl, rfl⟩ := cons.inj hcs
      exact .inl ⟨rest, rfl, rfl⟩

/-- In a document `d'` the children of `parent` are those in `d` with `new` for `old`, and its links say so. -/
structure Splices (d d' : Document) (kids kids' : Nat → List Nat) (parent : Nat) (before after : List Nat)
    (old new : Option Nat) : Prop where
  size : d'.size = d.size
  links : ∀ j, d'.links j = (d.links j).spliced parent before.getLast? after.head? old new j
  was : kids parent = before ++ (old.toList ++ after)
  is : kids' parent = before ++ (new.toList ++ after)
  others : ∀ p ≠ parent, kids' p = kids p
  fresh : ∀ c ∈ new, c < d.size ∧ (d.links c).parent = none

namespace Splices

variable {d' : Document} {kids kids' : Nat → List Nat} {parent : Nat} {before after : List Nat} {old new : Option Nat}
  (hs : Splices d d' kids kids' parent before after old new) (h : Linked d kids)

include hs h

lemma mem_iff {c : Nat} : c ∈ kids' p ↔ (c ∈ kids p ∧ old ≠ some c) ∨ p = parent ∧ new = some c := by
  by_cases hp : p = parent
  · subst hp
    have hnodup := h.nodup p
    rw [hs.was] at hnodup
    rw [hs.is, hs.was]
    cases old with
    | none => simp; tauto
    | some x =>
      obtain ⟨hbefore, hafter⟩ : x ∉ before ∧ x ∉ after := not_mem_sides hnodup
      by_cases hx : x = c
      · subst hx
        simp [hbefore, hafter]
      · simp [hx, Ne.symm hx]
        tauto
  · have hold : c ∈ kids p → old ≠ some c := fun hc he => hp (h.parent_unique hc (by rw [hs.was, he]; simp))
    rw [hs.others p hp]
    simpa [hp] using hold

lemma nodup (p : Nat) : (kids' p).Nodup := by
  by_cases hp : p = parent
  · subst hp
    have hnodup : (before ++ after).Nodup := by
      have := h.nodup p
      rw [hs.was] at this
      exact this.sublist ((sublist_append_right _ _).append_left before)
    rw [hs.is]
    cases hnew : new with
    | none => exact hnodup
    | some c =>
      refine nodup_middle.2 (nodup_cons.2 ⟨fun hmem => ?_, hnodup⟩)
      refine h.not_mem_of_orphan (hs.fresh c hnew).2 p ?_
      rw [hs.was]
      simp_all
      tauto
  · rw [hs.others p hp]
    exact h.nodup p

omit h in
lemma apart {c : Nat} (hc : c ∉ kids parent) : after.head? ≠ some c ∧ before.getLast? ≠ some c := by
  rw [hs.was] at hc
  exact ⟨fun he => hc (by simp [mem_of_head? he]), fun he => hc (by simp [mem_of_getLast? he])⟩

lemma siblings (p : Nat) (bs : List Nat) (c : Nat) (as : List Nat) (heq : kids' p = bs ++ c :: as) :
    (d'.links c).previous = bs.getLast? ∧ (d'.links c).next = as.head? := by
  rw [hs.links]
  have hold : old ≠ some c := by
    rcases (hs.mem_iff h).1 (show c ∈ kids' p by rw [heq]; simp) with ⟨-, hne⟩ | ⟨-, hnew⟩
    · exact hne
    · exact fun he => h.not_mem_of_orphan (hs.fresh c hnew).2 parent (by rw [hs.was, he]; simp)
  obtain ⟨hbs, has⟩ := not_mem_sides (heq ▸ hs.nodup h p)
  by_cases hp : p = parent
  · subst hp
    have hnodup := h.nodup p
    rw [hs.was] at hnodup
    rw [hs.is] at heq
    rcases split_middle heq with ⟨rest, rfl, rfl⟩ | ⟨rfl, rfl, rfl⟩ | ⟨rest, rfl, rfl⟩
    · have hhead : after.head? ≠ some c := fun he => has (by simp [mem_of_head? he])
      have hnew : new ≠ some c := fun he => has (by simp [he])
      obtain ⟨hprevious, hnext⟩ := h.siblings p bs c (rest ++ (old.toList ++ after)) (by rw [hs.was]; simp)
      have hfront := next_of_front (nodup_append.1 hnodup).1 (new.toList ++ after) (old.toList ++ after)
      simp only [Links.spliced, hold, hhead, hnew, if_false, hprevious, hnext, true_and, ← hfront]
      cases new <;> simp
    · have hhead : as.head? ≠ some c := fun he => has (mem_of_head? he)
      have hlast : bs.getLast? ≠ some c := fun he => hbs (mem_of_getLast? he)
      simp [Links.spliced, hold, hhead, hlast]
    · have hlast : before.getLast? ≠ some c := fun he => hbs (by simp [mem_of_getLast? he])
      have hnew : new ≠ some c := fun he => hbs (by simp [he])
      obtain ⟨hprevious, hnext⟩ := h.siblings p (before ++ (old.toList ++ rest)) c as (by rw [hs.was]; simp)
      simp only [Links.spliced, hold, hlast, hnew, if_false, hprevious, hnext, and_true]
      cases rest with
      | nil => cases new <;> simp
      | cons x rest =>
        have hx : x ≠ c := fun he => hbs (by simp [he])
        simp [hx, getLast?_cons, getLast?_append]
  · rw [hs.others p hp] at heq
    have hmem : c ∈ kids p := by rw [heq]; simp
    obtain ⟨hhead, hlast⟩ := hs.apart (fun hm => hp (h.parent_unique hmem hm))
    have hnew : new ≠ some c := fun he => h.not_mem_of_orphan (hs.fresh c he).2 p hmem
    simp only [Links.spliced, hold, hhead, hlast, hnew, if_false]
    exact h.siblings p bs c as heq

lemma linked : Linked d' kids' := by
  refine ⟨fun p c hc => ?_, hs.nodup h, fun p => ?_, fun p => ?_, fun p c => ?_, hs.siblings h, fun c hc => ?_⟩
  · rw [hs.size]
    rcases (hs.mem_iff h).1 hc with ⟨hc, -⟩ | ⟨-, hnew⟩
    · exact h.inside p c hc
    · exact (hs.fresh c hnew).1
  · rw [hs.links, Links.spliced]
    by_cases hp : p = parent
    · subst hp
      simp only [h.first, hs.was, hs.is]
      cases before <;> cases new <;> simp
    · simp [hp, hs.others p hp, h.first]
  · rw [hs.links, Links.spliced]
    by_cases hp : p = parent
    · subst hp
      simp only [h.last, hs.was, hs.is]
      cases after <;> cases new <;> simp [getLast?_cons]
    · simp [hp, hs.others p hp, h.last]
  · rw [hs.links, hs.mem_iff h, ← h.parent, Links.spliced]
    by_cases hnew : new = some c
    · have horphan := (hs.fresh c hnew).2
      have hold : old ≠ some c := fun he => h.not_mem_of_orphan horphan parent (by rw [hs.was, he]; simp)
      simp [hnew, hold, horphan, eq_comm]
    · by_cases hold : old = some c <;> simp [hnew, hold]
  · rw [hs.links, Links.spliced] at hc ⊢
    by_cases hold : old = some c
    · simp [hold]
    · have hnew : new ≠ some c := fun he => by simp [hold, he] at hc
      have horphan : (d.links c).parent = none := by simpa [hold, hnew] using hc
      obtain ⟨hhead, hlast⟩ := hs.apart (h.not_mem_of_orphan horphan parent)
      simpa [hold, hnew, hhead, hlast] using h.orphan c horphan

end Splices

/-! ## The operations -/

namespace Linked

variable {kids : Nat → List Nat} {parent : Nat} {before after : List Nat}

lemma append {child : Nat} (h : Linked d kids) (hparent : parent < d.size) (hchild : child < d.size)
    (horphan : (d.links child).parent = none) : Linked (d.append parent child) (pushKid kids parent child) := by
  suffices hs : Splices d (d.append parent child) kids (pushKid kids parent child) parent (kids parent) [] none child from
    hs.linked h
  refine ⟨by simp, fun j => ?_, by simp, by simp [pushKid_self], fun p hp => pushKid_of_ne kids hp,
    by simpa using ⟨hchild, horphan⟩⟩
  have hlast : ∀ l ∈ (kids parent).getLast?, l < d.size := fun l hl => h.inside parent l (mem_of_getLast? hl)
  rw [append_eq parent horphan, h.last, links_linkBehind (by simpa using hparent) (by simp),
    links_linkAhead (by simpa using hparent) (by simpa using hlast), links_relink hchild, Links.spliced]
  by_cases hj : j = child
  · subst hj
    simp [(h.orphan j horphan).2]
  · simp [hj, Ne.symm hj]

section

variable {id : Nat} (h : Linked d kids) (heq : kids parent = before ++ id :: after)

include h heq

lemma takeKid_parent : takeKid kids id parent = before ++ after := by
  have hbefore := (not_mem_sides (heq ▸ h.nodup parent)).1
  rw [takeKid, heq, erase_append_right _ hbefore, erase_cons_head]

lemma takeKid_of_ne (hp : p ≠ parent) : takeKid kids id p = kids p :=
  erase_of_not_mem (fun hm => hp (h.parent_unique hm (by rw [heq]; simp)))

lemma placeKid_parent (child : Nat) : placeKid kids id child parent = before ++ child :: id :: after := by
  obtain ⟨hbefore, hafter⟩ := not_mem_sides (heq ▸ h.nodup parent)
  rw [placeKid, heq, flatMap_append, flatMap_cons, if_pos rfl, flatMap_place_of_not_mem child _ hbefore,
    flatMap_place_of_not_mem child _ hafter]
  rfl

lemma placeKid_of_ne (hp : p ≠ parent) (child : Nat) : placeKid kids id child p = kids p :=
  flatMap_place_of_not_mem child _ (fun hm => hp (h.parent_unique hm (by rw [heq]; simp)))

lemma sides_lt : (∀ p ∈ before.getLast?, p < d.size) ∧ ∀ n ∈ after.head?, n < d.size :=
  ⟨fun p hp => h.inside parent p (by rw [heq]; simp [mem_of_getLast? hp]),
    fun n hn => h.inside parent n (by rw [heq]; simp [mem_of_head? hn])⟩

lemma insertBefore {child : Nat} (hchild : child < d.size) (horphan : (d.links child).parent = none) :
    Linked (d.insertBefore id child) (placeKid kids id child) := by
  have hmem : id ∈ kids parent := by rw [heq]; simp
  have hparent : parent < d.size := h.lt_size hmem
  have hid : id < d.size := h.inside parent id hmem
  have hinsert := insertBefore_eq ((h.parent parent id).2 hmem) horphan
  rw [(h.siblings parent before id after heq).1] at hinsert
  suffices hs : Splices d (d.insertBefore id child) kids (placeKid kids id child) parent before (id :: after) none child
    from hs.linked h
  refine ⟨by rw [hinsert]; simp, fun j => ?_, heq, h.placeKid_parent heq child, fun p hp => h.placeKid_of_ne heq hp child,
    by simpa using ⟨hchild, horphan⟩⟩
  rw [hinsert, links_linkAhead (by simpa using hparent) (by simpa using (h.sides_lt heq).1),
    links_linkBehind (by simpa using hparent) (by simpa using hid), links_relink hchild, Links.spliced]
  by_cases hj : j = child
  · subst hj
    simp
  · simp [hj, Ne.symm hj]

end

lemma detach (h : Linked d kids) (id : Nat) : Linked (d.detach id) (takeKid kids id) := by
  cases hparent : (d.links id).parent with
  | none =>
    have hkids : takeKid kids id = kids := funext fun p => erase_of_not_mem (h.not_mem_of_orphan hparent p)
    rwa [detach_of_orphan hparent, hkids]
  | some parent =>
    have hmem := (h.parent parent id).1 hparent
    obtain ⟨before, after, heq⟩ := append_of_mem hmem
    obtain ⟨hbefore, hafter⟩ := h.sides_lt heq
    suffices hs : Splices d (d.detach id) kids (takeKid kids id) parent before after id none from hs.linked h
    refine ⟨by simp, fun j => ?_, heq, h.takeKid_parent heq, fun p hp => h.takeKid_of_ne heq hp, by simp⟩
    obtain ⟨hprevious, hnext⟩ := h.siblings parent before id after heq
    have hlt : parent < d.size := h.lt_size hmem
    rw [detach_eq hparent, hprevious, hnext, links_relink (by simpa using h.inside parent id hmem),
      links_linkBehind (by simpa using hlt) (by simpa using hafter), links_linkAhead hlt hbefore, Links.spliced]
    by_cases hj : j = id
    · subst hj
      simp [Links.unlinked]
    · simp [hj, Ne.symm hj]

end Linked
end Document
end ReactiveTemplate.Markup
