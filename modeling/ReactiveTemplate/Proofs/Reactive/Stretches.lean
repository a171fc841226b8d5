import ReactiveTemplate.Proofs.Reactive.Calls
import ReactiveTemplate.Proofs.Reactive.Edits
/-!
# Stretches — a source cut into pieces

A stretch of a source is a list of pieces: characters that stay, and calls that open and close.
-/
set_option linter.all false

namespace ReactiveTemplate
open List

open Script (Span)

/-- An edit of something that lies between two offsets: a wrapper that opens or closes, or characters that give way. -/
def Edit.Within (start stop : Nat) (m : Edit) : Prop :=
  match m.kind with
  | .opening => m.stop = m.start ∧ start ≤ m.start ∧ m.start < m.extent ∧ m.extent ≤ stop
  | .replacing => m.stop = m.extent ∧ start ≤ m.start ∧ m.start < m.extent ∧ m.extent ≤ stop
  | .closing => m.stop = m.start ∧ start ≤ m.extent ∧ m.extent < m.start ∧ m.start ≤ stop

namespace Edit.Within

variable {m m' : Edit} {a b c d : Nat}

lemma mono (h : m.Within b c) (hab : a ≤ b) (hcd : c ≤ d) : m.Within a d := by
  unfold Within at h ⊢
  cases hkind : m.kind <;> simp only [hkind] at h ⊢ <;> omega

lemma start_le (h : m.Within a b) : a ≤ m.start := by
  unfold Within at h
  split at h <;> omega

lemma before (h : m.Within a b) (h' : m'.Within c d) (hbc : b ≤ c) : m.Before m' := by
  unfold Within at h h'
  rw [Edit.before_iff]
  cases hkind : m.kind <;> cases hkind' : m'.kind <;> simp only [hkind, hkind', EditKind.rank] at h h' ⊢ <;> omega

end Edit.Within

namespace Invalidation

variable {source : List Char} {a b c : Nat}

inductive Piece where
  | kept (text : List Char)
  | opened (call : Call)
  | closed (call : Call)
  deriving DecidableEq

namespace Piece

def edit? : Piece → Option Edit
  | kept _ => none
  | opened call => some call.opening
  | closed call => some call.closing

def chars : Piece → List Char
  | kept text => text
  | opened call => call.front.toList
  | closed call => call.back.toList

end Piece

def edits (ps : List Piece) : List Edit := ps.filterMap Piece.edit?

def text (ps : List Piece) : List Char := ps.flatMap Piece.chars

structure Covers (source : List Char) (start stop : Nat) (ps : List Piece) : Prop where
  le : start ≤ stop
  within : ∀ m ∈ edits ps, m.Within start stop
  sorted : (edits ps).Pairwise Edit.Before
  splice_eq : ∀ es : List Edit, (∀ m ∈ es.head?, stop ≤ m.start) →
    Edit.splice source start (edits ps ++ es) = text ps ++ Edit.splice source stop es

lemma covers_text {rest t : List Char} (h : source.drop a = t ++ rest) : Covers source a (a + t.length) [.kept t] where
  le := Nat.le_add_right _ _
  within := nofun
  sorted := .nil
  splice_eq es hes := by
    rw [text, flatMap_singleton]
    exact Edit.splice_advance h hes

variable {ps qs : List Piece}

lemma edits_append : edits (ps ++ qs) = edits ps ++ edits qs := filterMap_append

lemma text_append : text (ps ++ qs) = text ps ++ text qs := flatMap_append

lemma Covers.append (h : Covers source a b ps) (h' : Covers source b c qs) : Covers source a c (ps ++ qs) where
  le := Nat.le_trans h.le h'.le
  within m hm := by
    rcases mem_append.1 (edits_append ▸ hm) with hm | hm
    · exact (h.within m hm).mono (Nat.le_refl _) h'.le
    · exact (h'.within m hm).mono h.le (Nat.le_refl _)
  sorted := by
    rw [edits_append]
    exact pairwise_append.2 ⟨h.sorted, h'.sorted, fun m hm m' hm' =>
      (h.within m hm).before (h'.within m' hm') (Nat.le_refl b)⟩
  splice_eq es hes := by
    rw [edits_append, append_assoc, h.splice_eq, h'.splice_eq es hes, text_append, append_assoc]
    intro m hm
    cases hqs : edits qs with
    | nil =>
      rw [hqs] at hm
      exact Nat.le_trans h'.le (hes m hm)
    | cons m' ms =>
      rw [hqs] at hm
      cases hm
      exact (h'.within m (hqs ▸ (.head _))).start_le

/-- A call around pieces for a stretch, none of which belongs to the whole of it. -/
lemma Covers.wrap {call : Call} (h : Covers source a b ps) (hspan : call.use.span = ⟨a, b⟩) (hlt : a < b)
    (hps : ∀ m ∈ edits ps, m.kind ≠ .replacing ∧ (m.start ≠ a ∨ m.extent ≠ b) ∧ (m.start ≠ b ∨ m.extent ≠ a)) :
    Covers source a b (.opened call :: ps ++ [.closed call]) := by
  have hopening : call.opening = ⟨a, a, .opening, b, call.front⟩ := by rw [Call.opening, hspan]
  have hclosing : call.closing = ⟨b, b, .closing, a, call.back⟩ := by rw [Call.closing, hspan]
  have hedits : edits (.opened call :: ps ++ [.closed call]) = call.opening :: (edits ps ++ [call.closing]) := by
    simp [edits, Piece.edit?]
  have hinside : ∀ m ∈ edits ps, call.opening.Before m ∧ m.Before call.closing := by
    intro m hm
    have hwithin := h.within m hm
    obtain ⟨hkind, hopen, hclose⟩ := hps m hm
    unfold Edit.Within at hwithin
    rw [hopening, hclosing, Edit.before_iff, Edit.before_iff]
    cases hk : m.kind <;> simp only [hk, EditKind.rank, true_and] at hkind hwithin ⊢ <;>
      first | exact absurd rfl hkind | omega
  refine ⟨h.le, ?_, ?_, fun es hes => ?_⟩
  · rw [hedits]
    intro m hm
    simp only [mem_cons, mem_append, not_mem_nil, or_false] at hm
    rcases hm with rfl | hm | rfl
    · simp [hopening, Edit.Within, hlt]
    · exact h.within m hm
    · simp [hclosing, Edit.Within, hlt]
  · rw [hedits]
    refine pairwise_cons.2 ⟨fun m hm => ?_, pairwise_append.2 ⟨h.sorted, pairwise_singleton _ _, ?_⟩⟩
    · rcases mem_append.1 hm with hm | hm
      · exact (hinside m hm).1
      · rw [mem_singleton.1 hm, hopening, hclosing, Edit.before_iff]
        exact .inl hlt
    · intro m hm m' hm'
      rw [mem_singleton.1 hm']
      exact (hinside m hm).2
  · have hlast : ∀ m ∈ (call.closing :: es).head?, b ≤ m.start := by
      intro m hm
      cases hm
      rw [hclosing]
    rw [hedits, cons_append, append_assoc, Edit.splice_insert (by rw [hopening]) (by rw [hopening]),
      singleton_append, h.splice_eq _ hlast, Edit.splice_insert (by rw [hclosing]) (by rw [hclosing]), hopening,
      hclosing]
    simp [text, Piece.chars]

lemma Covers.apply_eq {source : String} {es : List Edit} (h : Covers source.toList 0 source.toList.length ps)
    (hperm : es.Perm (edits ps)) : Edit.apply source es = String.ofList (text ps) := by
  have hsplice := h.splice_eq [] nofun
  rw [append_nil, Edit.splice, drop_length, append_nil] at hsplice
  rw [Edit.apply_of_perm hperm h.sorted, hsplice]

end Invalidation
end ReactiveTemplate
