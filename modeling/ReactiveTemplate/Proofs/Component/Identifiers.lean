import ReactiveTemplate.Proofs.Interpolation.Cutting
import ReactiveTemplate.Proofs.Template.Artifacts
/-!
# Identifiers — where the classes of bound elements come from

The class of an element is made from a number of the sequence or the name of a reference.
-/
set_option linter.all false

namespace ReactiveTemplate
open List

/-- What the class of a bound element is made from: a number of the sequence, for an interpolation in a text or for an
element, or the name of a reference. -/
inductive Identifier where
  | placeholder (n : Nat)
  | element (n : Nat)
  | reference (name : String)

namespace Identifier

def handle (salt : String) : Identifier → String
  | placeholder n => "_i_" ++ (Sequence.new salt).hashAt n
  | element n => "_ref_" ++ (Sequence.new salt).hashAt n
  | reference name => (Sequence.new salt).referenceHandle name

def number? : Identifier → Option Nat
  | placeholder n | element n => some n
  | reference _ => none

def name? : Identifier → Option String
  | placeholder _ | element _ => none
  | reference name => some name

def hashes (salt : String) (names : List String) (count : Nat) : List String :=
  (range count).map (Sequence.new salt).hashAt ++ names.map (fun name => Digest.short (salt ++ "#" ++ name))

lemma nodup_handles {salt : String} {count : Nat} {ids : List Identifier}
    (hhashes : (hashes salt (ids.filterMap name?) count).Nodup) (hnumbers : (ids.filterMap number?).Nodup)
    (hcount : ∀ n ∈ ids.filterMap number?, n < count) : (ids.map (handle salt)).Nodup := by
  obtain ⟨hdrawn, hnamed, hapart⟩ := nodup_append.1 hhashes
  have hnumber : ∀ {a : Identifier} {n}, a ∈ ids → a.number? = some n → n < count := fun ha hn =>
    hcount _ (mem_filterMap.2 ⟨_, ha, hn⟩)
  have hsame : ∀ {n m}, n < count → m < count → (Sequence.new salt).hashAt n = (Sequence.new salt).hashAt m → n = m :=
    fun hn hm heq => inj_on_of_nodup_map hdrawn (mem_range.2 hn) (mem_range.2 hm) heq
  have hother : ∀ {a : Identifier} {n name}, n < count → a ∈ ids → a.name? = some name →
      (Sequence.new salt).hashAt n ≠ Digest.short (salt ++ "#" ++ name) := fun hn ha hname =>
    hapart _ (mem_map_of_mem (mem_range.2 hn)) _
      (mem_map.2 ⟨_, mem_filterMap.2 ⟨_, ha, hname⟩, rfl⟩)
  have hstart : ∀ {start x y : String}, start ++ x = start ++ y → x = y := fun {start x y} heq => by
    have := congrArg String.toList heq
    simpa [← String.toList_inj] using this
  have hkind : ∀ {x y : String}, "_i_" ++ x ≠ "_ref_" ++ y := fun {x y} heq => by
    have := congrArg String.toList heq
    simp at this
  rw [List.Nodup, pairwise_map]
  refine ((pairwise_filterMap.1 hnumbers).and (pairwise_filterMap.1 (List.Nodup.of_map _ hnamed))).imp_of_mem ?_
  rintro a a' ha ha' ⟨hn, hm⟩ heq
  cases a with
  | placeholder n =>
    cases a' with
    | placeholder m => exact hn n rfl m rfl (hsame (hnumber ha rfl) (hnumber ha' rfl) (hstart heq))
    | element m => exact hkind heq
    | reference name => exact hkind heq
  | element n =>
    cases a' with
    | placeholder m => exact hkind heq.symm
    | element m => exact hn n rfl m rfl (hsame (hnumber ha rfl) (hnumber ha' rfl) (hstart heq))
    | reference name => exact hother (hnumber ha rfl) ha' rfl (hstart heq)
  | reference name =>
    cases a' with
    | placeholder m => exact hkind heq.symm
    | element m => exact hother (hnumber ha' rfl) ha rfl (hstart heq.symm)
    | reference name' =>
      refine hm name rfl name' rfl (inj_on_of_nodup_map hnamed ?_ ?_ (hstart heq))
      · exact mem_filterMap.2 ⟨_, ha, rfl⟩
      · exact mem_filterMap.2 ⟨_, ha', rfl⟩

end Identifier

namespace Sequence

open Identifier (number?)

/-- A sequence after some identifiers have been drawn from it, which have different numbers, in order. -/
structure Draws (s s' : Sequence) (ids : List Identifier) : Prop where
  salt : s'.salt = s.salt
  counter : s.counter ≤ s'.counter
  numbers : (ids.filterMap number?).Sublist (range' s.counter (s'.counter - s.counter))

namespace Draws

variable {s s' s'' : Sequence} {ids ids' : List Identifier}

lemma refl (s : Sequence) : Draws s s [] := ⟨rfl, Nat.le_refl _, nil_sublist _⟩

lemma trans (h : Draws s s' ids) (h' : Draws s' s'' ids') : Draws s s'' (ids ++ ids') := by
  refine ⟨h'.salt.trans h.salt, Nat.le_trans h.counter h'.counter, ?_⟩
  have hrange : range' s.counter (s''.counter - s.counter) =
      range' s.counter (s'.counter - s.counter) ++ range' s'.counter (s''.counter - s'.counter) := by
    have hle := h.counter
    have hle' := h'.counter
    have hmiddle : s'.counter = s.counter + 1 * (s'.counter - s.counter) := by omega
    have htotal : s''.counter - s.counter = (s'.counter - s.counter) + (s''.counter - s'.counter) := by omega
    rw [htotal, ← range'_append, ← hmiddle]
  rw [hrange, filterMap_append]
  exact h.numbers.append h'.numbers

lemma reference (s : Sequence) (name : String) : Draws s s [.reference name] := ⟨rfl, Nat.le_refl _, nil_sublist _⟩

lemma elementHandle (s : Sequence) : Draws s s.elementHandle.2 [.element s.counter] := by
  refine ⟨rfl, Nat.le_succ _, ?_⟩
  have hone : s.elementHandle.2.counter - s.counter = 1 := Nat.add_sub_cancel_left s.counter 1
  rw [hone]
  exact .refl _

lemma nodup (h : Draws s s' ids) : (ids.filterMap number?).Nodup := h.numbers.nodup nodup_range'

lemma lt (h : Draws s s' ids) : ∀ n ∈ ids.filterMap number?, n < s'.counter := fun n hn => by
  have hmem := mem_range'_1.1 (h.numbers.subset hn)
  omega

end Draws
end Sequence

/-! ## The placeholders of a text -/

def Piece.placeholder? : Piece → Option String
  | .literal _ => none
  | .expression found => some found.placeholder

lemma Scan.placeholders_cut : ∀ (found : List Interpolation) (rest : List Char),
    ((cut found rest).filterMap Piece.placeholder?).Sublist (found.map (·.placeholder))
  | [], rest => by
    rw [cut]
    split
    · exact .refl _
    · exact .refl _
  | i :: more, rest => by
    rw [cut]
    split
    · rename_i before behind _
      have ih := placeholders_cut more behind
      split
      · exact ih.cons_cons _
      · exact ih.cons_cons _
    · exact (placeholders_cut more rest).cons _

namespace Interpolation

lemma map_placeholder_markFull (text : List Char) (found : List Interpolation) :
    (markFull text found).map (·.placeholder) = found.map (·.placeholder) := by
  unfold markFull
  split <;> rfl

lemma placeholders_distinct (found : List Interpolation) :
    ((distinct found).map (·.placeholder)).Sublist (found.map (·.placeholder)) := by
  have honto : ∀ found kept : List Interpolation, ((found.foldl enter kept).map (·.placeholder)).Sublist
      ((kept ++ found).map (·.placeholder)) := by
    intro found
    induction found with
    | nil => exact fun kept => by rw [append_nil, foldl_nil]
    | cons i found ih =>
      intro kept
      refine (ih _).trans ?_
      rw [map_append, map_append, placeholders_enter]
      split
      · exact (List.Sublist.refl _).append ((sublist_cons_self _ _).map _)
      · rw [append_assoc, singleton_append, map_cons]
  exact honto found []

end Interpolation

lemma draws_scan (text : String) (s : Sequence) : ∃ ids, s.Draws (scan text s).2 ids ∧
    ids.filterMap Identifier.name? = [] ∧
    (scan text s).1.parts.filterMap Piece.placeholder? = ids.map (Identifier.handle s.salt) := by
  have hcounter := counter_scan text s
  unfold scan at hcounter ⊢
  split
  · rename_i hmarkers
    rw [if_pos hmarkers] at hcounter
    have hsub : ∀ (found : List Interpolation) (out : List Char),
        ((Scan.cut (Interpolation.markFull out (Interpolation.distinct found)) out).filterMap Piece.placeholder?).Sublist
          (found.map (·.placeholder)) := by
      intro found out
      refine (Scan.placeholders_cut _ _).trans ?_
      rw [Interpolation.map_placeholder_markFull]
      exact Interpolation.placeholders_distinct found
    have hplaced := hsub (Interpolation.place (Interpolation.segmentsOf text) s).2.1
      (Interpolation.place (Interpolation.segmentsOf text) s).1
    rw [(Interpolation.map_placeholder_place _ s).1] at hplaced
    obtain ⟨numbers, hnumbers, heq⟩ := sublist_map_iff.1 hplaced
    have hids : (numbers.map Identifier.placeholder).filterMap Identifier.number? = numbers := by
      rw [filterMap_map]
      exact filterMap_some
    refine ⟨numbers.map .placeholder, ⟨Interpolation.salt_place _ s, hcounter, ?_⟩, ?_, ?_⟩
    · rw [hids]
      exact hnumbers
    · rw [filterMap_map]
      exact filterMap_eq_nil_iff.2 (fun n _ => rfl)
    · simp only [Scan.parts, String.toList_ofList]
      refine heq.trans ?_
      rw [map_map]
      rfl
  · exact ⟨[], .refl s, rfl, rfl⟩

end ReactiveTemplate
