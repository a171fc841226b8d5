import ReactiveTemplate.Text.Search
import Mathlib.Data.List.Basic
/-!
# Search — what a first occurrence is

`cut?` splits a text around an occurrence of what is looked for, and no occurrence starts before it.
-/
set_option linter.all false

namespace ReactiveTemplate.Text
open List

variable {needle : List Char}

attribute [local simp] cut?

lemma append_of_cut? : ∀ {cs before after : List Char},
    cut? needle cs = some (before, after) → cs = before ++ (needle ++ after)
  | [], before, after, h => by
    unfold cut? at h
    split at h
    · rename_i hempty
      obtain ⟨rfl, rfl⟩ := h
      simpa using hempty
    · cases h
  | c :: cs, before, after, h => by
    unfold cut? at h
    split at h
    · rename_i rest hrest
      obtain ⟨rfl, rfl⟩ := h
      exact (isPrefixOf?_eq_some_iff_append_eq.1 hrest).symm
    · obtain ⟨⟨before', after'⟩, h', hmk⟩ := Option.map_eq_some_iff.1 h
      obtain ⟨rfl, rfl⟩ := hmk
      rw [append_of_cut? h']
      rfl

lemma length_le_of_cut? : ∀ {cs before after : List Char},
    cut? needle cs = some (before, after) → ∀ pre post, cs = pre ++ (needle ++ post) → before.length ≤ pre.length
  | [], before, after, h, pre, post, heq => by
    have := congrArg length (append_of_cut? h)
    simp only [length_nil, length_append] at this
    omega
  | c :: cs, before, after, h, pre, post, heq => by
    unfold cut? at h
    split at h
    · obtain ⟨rfl, rfl⟩ := h
      exact Nat.zero_le _
    · rename_i hprefix
      obtain ⟨⟨before', after'⟩, h', hmk⟩ := Option.map_eq_some_iff.1 h
      obtain ⟨rfl, rfl⟩ := hmk
      cases pre with
      | nil =>
        rw [nil_append] at heq
        rw [isPrefixOf?_eq_some_iff_append_eq.2 heq.symm] at hprefix
        cases hprefix
      | cons d pre =>
        rw [cons_append, cons.injEq] at heq
        exact Nat.succ_le_succ (length_le_of_cut? h' pre post heq.2)

lemma cut?_of_first {after : List Char} (hne : needle ≠ []) : ∀ {before : List Char},
    (∀ pre post, before ++ (needle ++ after) = pre ++ (needle ++ post) → before.length ≤ pre.length) →
    cut? needle (before ++ (needle ++ after)) = some (before, after)
  | [], _ => by
    obtain ⟨c, cs, rfl⟩ := exists_cons_of_ne_nil hne
    have hprefix : (c :: cs).isPrefixOf? (c :: (cs ++ after)) = some after :=
      isPrefixOf?_eq_some_iff_append_eq.2 rfl
    rw [nil_append, cons_append, cut?, hprefix]
  | c :: before, h => by
    have hprefix : needle.isPrefixOf? (c :: (before ++ (needle ++ after))) = none := by
      refine Option.eq_none_iff_forall_ne_some.2 (fun post hpost => ?_)
      have := h [] post (isPrefixOf?_eq_some_iff_append_eq.1 hpost).symm
      simp at this
    have hrest := cut?_of_first hne (fun pre post heq => by
      have := h (c :: pre) post (by rw [cons_append, cons_append, heq])
      simpa using this : ∀ pre post, before ++ (needle ++ after) = pre ++ (needle ++ post) →
        before.length ≤ pre.length)
    rw [cons_append, cut?, hprefix, hrest]
    rfl

lemma cut?_ne_none : ∀ (pre post : List Char), cut? needle (pre ++ (needle ++ post)) ≠ none
  | [], post => by
    cases needle with
    | nil => cases post <;> simp [isPrefixOf?]
    | cons c needle =>
      have hprefix : (c :: needle).isPrefixOf? (c :: (needle ++ post)) = some post :=
        isPrefixOf?_eq_some_iff_append_eq.2 rfl
      rw [nil_append, cons_append, cut?, hprefix]
      simp
  | c :: pre, post => by
    rw [cons_append, cut?]
    split
    · simp
    · exact fun h => cut?_ne_none pre post (Option.map_eq_none_iff.1 h)

lemma not_infix_of_contains {s needle : String} (h : contains s needle = false) : ¬ needle.toList <:+: s.toList := by
  rintro ⟨pre, post, heq⟩
  rw [contains, Option.isSome_eq_false_iff, Option.isNone_iff_eq_none, ← heq, append_assoc] at h
  exact cut?_ne_none pre post h

end ReactiveTemplate.Text
