import ReactiveTemplate.Text.Blank
import Mathlib.Data.List.DropRight
/-!
# Words — words behind a text

A word that is put behind a text and a blank is one of its words, and trimming takes off blanks and nothing else.
-/
set_option linter.all false

namespace ReactiveTemplate.Text
open List

variable {c : Char}

section

variable {p : Char → Bool}

lemma runs_of_pos (hc : p c = true) (cs : List Char) : runs p (c :: cs) = runs p cs := by
  cases cs with
  | nil => simp [runs, hc]
  | cons d ds => rw [runs, if_pos hc]

lemma runs_of_neg (hc : p c = false) (d : Char) (ds : List Char) : runs p (c :: d :: ds) =
    if p d then [c] :: runs p (d :: ds)
    else
      match runs p (d :: ds) with
      | [] => [[c]]
      | w :: ws => (c :: w) :: ws := by
  have hne : ¬ p c = true := by simp [hc]
  exact if_neg hne

lemma runs_singleton (hc : p c = false) : runs p [c] = [[c]] := by
  rw [runs, if_neg (by simp [hc])]

lemma runs_ne_nil (hc : p c = false) (cs : List Char) : runs p (c :: cs) ≠ [] := by
  cases cs with
  | nil => simp [runs_singleton hc]
  | cons d ds =>
    rw [runs_of_neg hc]
    split
    · simp
    · split <;> simp

lemma runs_append {b : Char} (hb : p b = true) (ys : List Char) : ∀ xs : List Char,
    runs p (xs ++ b :: ys) = runs p xs ++ runs p ys
  | [] => runs_of_pos hb ys
  | c :: cs => by
    have ih := runs_append hb ys cs
    rw [cons_append]
    by_cases hc : p c = true
    · rw [runs_of_pos hc, ih, runs_of_pos hc]
    · rw [Bool.not_eq_true] at hc
      cases cs with
      | nil => rw [nil_append, runs_of_neg hc, if_pos hb, runs_of_pos hb, runs_singleton hc, singleton_append]
      | cons d ds =>
        rw [cons_append] at ih ⊢
        rw [runs_of_neg hc, runs_of_neg hc]
        by_cases hd : p d = true
        · rw [if_pos hd, if_pos hd, ih, cons_append]
        · rw [if_neg hd, if_neg hd, ih]
          rw [Bool.not_eq_true] at hd
          obtain ⟨w, ws, hrun⟩ := exists_cons_of_ne_nil (runs_ne_nil hd ds)
          rw [hrun]
          rfl

lemma runs_blanks : ∀ {cs : List Char}, (∀ c ∈ cs, p c = true) → runs p cs = []
  | [], _ => rfl
  | c :: cs, h => by
    rw [runs_of_pos (h c mem_cons_self), runs_blanks (fun d hd => h d (mem_cons_of_mem _ hd))]

lemma runs_blanks_append {before : List Char} (h : ∀ c ∈ before, p c = true) (cs : List Char) :
    runs p (before ++ cs) = runs p cs := by
  induction before with
  | nil => rfl
  | cons c before ih =>
    rw [cons_append, runs_of_pos (h c mem_cons_self), ih (fun d hd => h d (mem_cons_of_mem _ hd))]

lemma runs_append_blanks {behind : List Char} (h : ∀ c ∈ behind, p c = true) (cs : List Char) :
    runs p (cs ++ behind) = runs p cs := by
  cases behind with
  | nil => rw [append_nil]
  | cons c behind =>
    rw [runs_append (h c mem_cons_self), runs_blanks (fun d hd => h d (mem_cons_of_mem _ hd)), append_nil]

lemma runs_of_forall : ∀ {cs : List Char}, cs ≠ [] → (∀ c ∈ cs, p c = false) → runs p cs = [cs]
  | [], h, _ => absurd rfl h
  | [c], _, hcs => runs_singleton (hcs c (.head _))
  | c :: d :: ds, _, hcs => by
    have ih := runs_of_forall (cons_ne_nil d ds) (fun x hx => hcs x (.tail _ hx))
    have hd := hcs d (.tail _ (.head _))
    rw [runs_of_neg (hcs c mem_cons_self), if_neg (by simp [hd]), ih]

end

def IsWord (s : String) : Prop := s.toList ≠ [] ∧ ∀ c ∈ s.toList, isBlank c = false

lemma IsWord.words_eq {w : String} (h : IsWord w) : words w = [w] := by
  rw [words, runs_of_forall h.1 h.2, map_singleton, String.ofList_toList]

lemma IsWord.words_append {w : String} (h : IsWord w) (s : String) : words (s ++ " " ++ w) = words s ++ [w] := by
  have hchars : (s ++ " " ++ w).toList = s.toList ++ ' ' :: w.toList := by simp
  rw [words, hchars, runs_append (by decide), runs_of_forall h.1 h.2]
  simp [words]

lemma exists_trimChars (cs : List Char) : ∃ before behind, cs = before ++ trimChars cs ++ behind ∧
    (∀ c ∈ before, isBlank c = true) ∧ ∀ c ∈ behind, isBlank c = true := by
  refine ⟨cs.takeWhile isBlank, (cs.dropWhile isBlank).rtakeWhile isBlank, ?_, ?_, ?_⟩
  · show cs = cs.takeWhile isBlank ++ (cs.dropWhile isBlank).rdropWhile isBlank ++ _
    rw [append_assoc, rdropWhile_append_rtakeWhile, takeWhile_append_dropWhile]
  · exact fun c hc => mem_takeWhile_imp hc
  · exact fun c hc => mem_rtakeWhile_imp hc

lemma words_trim (s : String) : words (trim s) = words s := by
  obtain ⟨before, behind, hchars, hbefore, hbehind⟩ := exists_trimChars s.toList
  have hruns : runs isBlank s.toList = runs isBlank (trimChars s.toList) := by
    conv_lhs => rw [hchars]
    rw [runs_append_blanks hbehind, runs_blanks_append hbefore]
  rw [words, words, trim, String.toList_ofList, hruns]

end ReactiveTemplate.Text
