import Mathlib.Data.List.Sort
import ReactiveTemplate.Reactive.Edit
/-!
# Edits — what a source becomes

Edits that are strictly in order are applied as they stand, whatever order they are given in (`apply_of_perm`).
-/
set_option linter.all false

namespace ReactiveTemplate.Edit
open List

variable {a b : Edit}

lemma rank_inj {k l : EditKind} (h : k.rank = l.rank) : k = l := by
  cases k <;> cases l <;> first | rfl | cases h

lemma precedes_iff : a.precedes b = true ↔ a.start < b.start ∨
    (a.start = b.start ∧ (a.kind.rank < b.kind.rank ∨ (a.kind.rank = b.kind.rank ∧ b.extent ≤ a.extent))) := by
  unfold precedes
  by_cases hstart : a.start = b.start
  · by_cases hkind : a.kind = b.kind
    · simp [hstart, hkind]
    · have hrank : a.kind.rank ≠ b.kind.rank := fun h => hkind (rank_inj h)
      simp [hstart, hkind, hrank]
  · simp [hstart]

lemma precedes_trans (a b c : Edit) (hab : a.precedes b = true) (hbc : b.precedes c = true) : a.precedes c = true := by
  rw [precedes_iff] at hab hbc ⊢
  omega

lemma precedes_total (a b : Edit) : (a.precedes b || b.precedes a) = true := by
  rw [Bool.or_eq_true, precedes_iff, precedes_iff]
  omega

def Before (a b : Edit) : Prop := a.precedes b = true ∧ b.precedes a = false

instance (a b : Edit) : Decidable (a.Before b) := inferInstanceAs (Decidable (_ ∧ _))

lemma before_iff : a.Before b ↔ a.start < b.start ∨
    (a.start = b.start ∧ (a.kind.rank < b.kind.rank ∨ (a.kind.rank = b.kind.rank ∧ b.extent < a.extent))) := by
  unfold Before
  rw [← Bool.not_eq_true, precedes_iff, precedes_iff]
  omega

lemma eq_of_pairwise_before : ∀ {ms : List Edit}, ms.Pairwise Before → a ∈ ms → b ∈ ms →
    a.precedes b = true → b.precedes a = true → a = b
  | m :: ms, h, ha, hb, hab, hba => by
    obtain ⟨hfirst, hrest⟩ := pairwise_cons.1 h
    rcases mem_cons.1 ha with rfl | hams
    · rcases mem_cons.1 hb with rfl | hbms
      · rfl
      · exact absurd (hba.symm.trans (hfirst b hbms).2) (by decide)
    · rcases mem_cons.1 hb with rfl | hbms
      · exact absurd (hab.symm.trans (hfirst a hams).2) (by decide)
      · exact eq_of_pairwise_before hrest hams hbms hab hba

lemma mergeSort_eq {es ms : List Edit} (hperm : es.Perm ms) (hms : ms.Pairwise Before) : es.mergeSort precedes = ms := by
  have hsorted := pairwise_mergeSort precedes_trans precedes_total es
  refine List.Perm.eq_of_pairwise ?_ hsorted (hms.imp (fun h => h.1)) ((mergeSort_perm es precedes).trans hperm)
  intro a b ha hb
  have ha : a ∈ ms := (((mergeSort_perm es precedes).trans hperm).mem_iff).1 ha
  exact eq_of_pairwise_before hms ha hb

lemma apply_of_perm {source : String} {es ms : List Edit} (hperm : es.Perm ms) (hms : ms.Pairwise Before) :
    apply source es = String.ofList (splice source.toList 0 ms) := by
  rw [apply, mergeSort_eq hperm hms]

section Splice

variable {source text rest : List Char} {cursor : Nat} {es : List Edit}

lemma splice_advance (h : source.drop cursor = text ++ rest) (hes : ∀ m ∈ es.head?, cursor + text.length ≤ m.start) :
    splice source cursor es = text ++ splice source (cursor + text.length) es := by
  have hdrop : source.drop (cursor + text.length) = rest := by
    rw [← drop_drop, h, drop_left]
  cases es with
  | nil => rw [splice, splice, h, hdrop]
  | cons m es =>
    have hm : cursor + text.length ≤ m.start := hes m rfl
    have htake : (text ++ rest).take (m.start - cursor) = text ++ rest.take (m.start - (cursor + text.length)) := by
      rw [take_append, take_of_length_le (by omega), Nat.sub_sub]
    rw [splice, splice, h, hdrop, htake, show max (cursor + text.length) m.start = max cursor m.start by omega]
    simp [append_assoc]

lemma splice_insert {m : Edit} (hstart : m.start = cursor) (hstop : m.stop = cursor) :
    splice source cursor (m :: es) = m.text.toList ++ splice source cursor es := by
  rw [splice, hstart, hstop]
  simp

end Splice

end ReactiveTemplate.Edit
