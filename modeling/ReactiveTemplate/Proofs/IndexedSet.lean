import ReactiveTemplate.IndexedSet
import Mathlib.Data.List.Nodup
/-!
# IndexedSet — numbers stay

Inserting an item adds it at the end or changes nothing, so a set only grows at its end (`Extends`), and a number that
was given once stands for the same item in every later set.
-/
set_option linter.all false

namespace ReactiveTemplate.IndexedSet
open List

variable {i : Nat}

variable {α : Type}

def Extends (s t : IndexedSet α) : Prop := s.items <+: t.items

namespace Extends

variable {s t u : IndexedSet α}

lemma refl (s : IndexedSet α) : s.Extends s := prefix_rfl

lemma trans (h : s.Extends t) (h' : t.Extends u) : s.Extends u := List.IsPrefix.trans h h'

lemma get? (h : s.Extends t) {a : α} (hi : s.get? i = some a) : t.get? i = some a := by
  obtain ⟨more, hmore⟩ := h
  rw [IndexedSet.get?, ← hmore, getElem?_append_left (List.getElem?_eq_some_iff.1 hi).1]
  exact hi

lemma size_le (h : s.Extends t) : s.size ≤ t.size := h.length_le

lemma lt_size (h : s.Extends t) (hi : i < s.size) : i < t.size := Nat.lt_of_lt_of_le hi h.size_le

lemma get?_eq (h : s.Extends t) (hi : i < s.size) : t.get? i = s.get? i := by
  rw [h.get? (getElem?_eq_getElem hi)]
  exact (getElem?_eq_getElem hi).symm

end Extends

lemma lt_size_of_get? {s : IndexedSet α} {a : α} (h : s.get? i = some a) : i < s.size :=
  (List.getElem?_eq_some_iff.1 h).1

lemma mem_of_get? {s : IndexedSet α} {a : α} (h : s.get? i = some a) : a ∈ s.items :=
  mem_of_getElem? h

lemma get?_inj {s : IndexedSet α} (hs : s.items.Nodup) {j : Nat} {a : α} (hi : s.get? i = some a)
    (hj : s.get? j = some a) : i = j :=
  (getElem?_inj (lt_size_of_get? hi) hs).1 (hi.trans hj.symm)

section

variable [BEq α] [LawfulBEq α]

lemma get?_of_indexOf? {s : IndexedSet α} {a : α} (h : s.indexOf? a = some i) : s.get? i = some a := by
  obtain ⟨hlt, hbeq, -⟩ := findIdx?_eq_some_iff_getElem.1 h
  rw [get?, getElem?_eq_getElem hlt, eq_of_beq hbeq]

lemma insert_cases (s : IndexedSet α) (a : α) :
    (∃ i, s.insert a = (i, s) ∧ s.get? i = some a) ∨ (a ∉ s.items ∧ s.insert a = (s.size, ⟨s.items ++ [a]⟩)) := by
  unfold insert
  split
  · rename_i i hi
    exact .inl ⟨i, rfl, get?_of_indexOf? hi⟩
  · rename_i hnone
    refine .inr ⟨fun hmem => ?_, rfl⟩
    have := findIdx?_eq_none_iff.1 hnone a hmem
    simp at this

lemma extends_insert (s : IndexedSet α) (a : α) : s.Extends (s.insert a).2 := by
  rcases s.insert_cases a with ⟨i, heq, -⟩ | ⟨-, heq⟩
  · rw [heq]
    exact .refl s
  · rw [heq]
    exact prefix_append _ _

lemma get?_insert (s : IndexedSet α) (a : α) : (s.insert a).2.get? (s.insert a).1 = some a := by
  rcases s.insert_cases a with ⟨i, heq, hget⟩ | ⟨-, heq⟩
  · rw [heq]
    exact hget
  · rw [heq]
    exact getElem?_concat_length

lemma fst_insert_lt (s : IndexedSet α) (a : α) : (s.insert a).1 < (s.insert a).2.size :=
  lt_size_of_get? (s.get?_insert a)

lemma mem_insert {s : IndexedSet α} {a b : α} : b ∈ (s.insert a).2.items ↔ b ∈ s.items ∨ b = a := by
  rcases s.insert_cases a with ⟨i, heq, hget⟩ | ⟨-, heq⟩
  · rw [heq]
    refine ⟨.inl, fun h => h.elim id (fun hb => ?_)⟩
    rw [hb]
    exact mem_of_get? hget
  · rw [heq]
    simp

lemma nodup_insert {s : IndexedSet α} (h : s.items.Nodup) (a : α) : (s.insert a).2.items.Nodup := by
  rcases s.insert_cases a with ⟨i, heq, -⟩ | ⟨hnew, heq⟩
  · rw [heq]
    exact h
  · rw [heq]
    exact nodup_append.2 ⟨h, nodup_singleton a, fun b hb c hc => by
      rw [mem_singleton.1 hc]
      exact fun hba => hnew (hba ▸ hb)⟩

end

end ReactiveTemplate.IndexedSet
