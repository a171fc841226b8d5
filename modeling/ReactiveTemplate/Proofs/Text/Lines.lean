import ReactiveTemplate.Text.Position
import Mathlib.Data.List.DropRight
import Mathlib.Data.Prod.Lex
/-!
# Lines — the line and column of an offset

The lines that start by an offset are the first of the index, and the last of them is the line of the offset
(`getElem?_lineAt`). Between characters its column counts characters, so the index gives the position behind the text
before the offset (`locate_bytes`).
-/
set_option linter.all false

namespace ReactiveTemplate
open List Text

variable {cs : List Char} {n : Nat}

/-! ## Bytes -/

@[simp] lemma bytes_cons (c : Char) (cs : List Char) : bytes (c :: cs) = c.utf8Size + bytes cs := rfl

lemma bytes_append (a b : List Char) : bytes (a ++ b) = bytes a + bytes b := by
  induction a with
  | nil => exact (Nat.zero_add _).symm
  | cons c a ih => rw [cons_append, bytes_cons, bytes_cons, ih, Nat.add_assoc]

lemma bytes_pos (h : cs ≠ []) : 0 < bytes cs := by
  obtain ⟨c, cs, rfl⟩ := exists_cons_of_ne_nil h
  exact Nat.add_pos_left c.utf8Size_pos _

lemma splitBytes?_append (a b : List Char) : splitBytes? (bytes a) (a ++ b) = some (a, b) := by
  induction a with
  | nil => exact splitBytes?.eq_1 b
  | cons c a ih =>
    have hpos := bytes_pos (cons_ne_nil c a)
    rw [cons_append, splitBytes?.eq_3 _ _ _ (Nat.ne_of_gt hpos), bytes_cons, if_pos (Nat.le_add_right _ _),
      Nat.add_sub_cancel_left, ih]
    rfl

lemma slice?_append (a cs b : List Char) : slice? (bytes a) (bytes (a ++ cs)) (a ++ cs ++ b) = some cs := by
  have hinside : bytes (a ++ cs) - bytes a = bytes cs := by rw [bytes_append, Nat.add_sub_cancel_left]
  simp only [slice?, append_assoc a, splitBytes?_append, hinside, Option.bind_eq_bind, Option.bind_some]
  exact if_pos (bytes_append a cs ▸ Nat.le_add_right _ _)

/-! ## The starts of lines -/

namespace LineIndex

lemma startsFrom_append (n : Nat) (a b : List Char) :
    startsFrom n (a ++ b) = startsFrom n a ++ startsFrom (n + bytes a) b := by
  induction a generalizing n with
  | nil => rfl
  | cons c a ih =>
    rw [cons_append, startsFrom, startsFrom, ih, bytes_cons, Nat.add_assoc]
    split <;> rfl

lemma startsFrom_concat (n : Nat) (cs : List Char) (c : Char) :
    startsFrom n (cs ++ [c]) = startsFrom n cs ++ if c = '\n' then [n + bytes cs + c.utf8Size] else [] :=
  startsFrom_append n cs [c]

lemma mem_startsFrom {start : Nat} (h : start ∈ startsFrom n cs) : n < start ∧ start ≤ n + bytes cs := by
  induction cs generalizing n with
  | nil => cases h
  | cons c cs ih =>
    have hpos := c.utf8Size_pos
    rw [bytes_cons]
    unfold startsFrom at h
    split at h
    · rcases mem_cons.1 h with rfl | h
      · omega
      · have := ih h
        omega
    · have := ih h
      omega

lemma length_startsFrom (n : Nat) (cs : List Char) : (startsFrom n cs).length = cs.count '\n' := by
  induction cs generalizing n with
  | nil => rfl
  | cons c cs ih =>
    unfold startsFrom
    split
    · rename_i hc
      rw [length_cons, ih, hc, count_cons_self]
    · rename_i hc
      rw [ih, count_cons_of_ne hc]

lemma pairwise_startsFrom (n : Nat) (cs : List Char) : (startsFrom n cs).Pairwise (· < ·) := by
  induction cs generalizing n with
  | nil => exact .nil
  | cons c cs ih =>
    unfold startsFrom
    split
    · exact .cons (fun start h => (mem_startsFrom h).1) (ih _)
    · exact ih _

/-- The last line of a text starts behind its last line feed. -/
lemma getLast_startsFrom (cs : List Char) :
    (0 :: startsFrom 0 cs).getLast? = some (bytes (cs.rdropWhile (· != '\n'))) := by
  induction cs using reverseRecOn with
  | nil => rfl
  | append_singleton cs c ih =>
    rw [startsFrom_concat, ← cons_append, Nat.zero_add]
    by_cases hc : c = '\n'
    · rw [if_pos hc, getLast?_concat, rdropWhile_concat_neg _ _ _ (by simp [hc]), bytes_append]
      rfl
    · rw [if_neg hc, append_nil, ih, rdropWhile_concat_pos _ _ _ (by simp [hc])]

lemma takeWhile_starts (a b : List Char) :
    (ofSource (a ++ b)).starts.takeWhile (· ≤ bytes a) = 0 :: startsFrom 0 a := by
  have hbefore : ∀ start ∈ 0 :: startsFrom 0 a, decide (start ≤ bytes a) = true := fun start h => by
    rcases mem_cons.1 h with rfl | h
    · exact decide_eq_true (Nat.zero_le _)
    · exact decide_eq_true (Nat.zero_add (bytes a) ▸ (mem_startsFrom h).2)
  have hbehind : (startsFrom (bytes a) b).takeWhile (· ≤ bytes a) = [] := by
    rw [takeWhile_eq_nil_iff]
    intro hpos
    have := (mem_startsFrom (getElem_mem hpos)).1
    simpa using this
  rw [ofSource, startsFrom_append, ← cons_append, takeWhile_append_of_pos hbefore, Nat.zero_add, hbehind, append_nil]

/-- The line of an offset is the last of those that start by it. -/
lemma getElem?_lineAt (cs : List Char) (offset : Nat) : (ofSource cs).starts[(ofSource cs).lineAt offset - 1]? =
    ((ofSource cs).starts.takeWhile (· ≤ offset)).getLast? := by
  obtain ⟨rest, hrest⟩ := takeWhile_prefix (l := (ofSource cs).starts) (fun start => decide (start ≤ offset))
  have hfirst : 0 < (ofSource cs).lineAt offset := by simp [lineAt, ofSource]
  have hin : (ofSource cs).lineAt offset - 1 < ((ofSource cs).starts.takeWhile (· ≤ offset)).length :=
    Nat.sub_one_lt_of_lt hfirst
  rw [getLast?_eq_getElem?, ← lineAt, ← getElem?_append_left hin, hrest]

end LineIndex

/-! ## Positions -/

/-- The position behind the text before it. -/
def Position.behind (before : List Char) : Position :=
  ⟨1 + before.count '\n', 1 + (before.rtakeWhile (· != '\n')).length⟩

def Position.key (p : Position) : Nat ×ₗ Nat := toLex (p.line, p.column)

lemma Position.key_behind_concat (before : List Char) (c : Char) :
    (behind before).key < (behind (before ++ [c])).key := by
  rw [key, key, Prod.Lex.toLex_lt_toLex]
  by_cases hc : c = '\n'
  · simp [behind, hc]
  · simp [behind, hc]

lemma Position.key_behind_append (before : List Char) (h : cs ≠ []) :
    (behind before).key < (behind (before ++ cs)).key := by
  induction cs using reverseRecOn with
  | nil => exact absurd rfl h
  | append_singleton cs c ih =>
    have hstep := key_behind_concat (before ++ cs) c
    rw [← append_assoc]
    by_cases hcs : cs = []
    · subst hcs
      rwa [append_nil] at hstep ⊢
    · exact (ih hcs).trans hstep

namespace LineIndex

lemma locate_bytes (a b : List Char) : (ofSource (a ++ b)).locate (bytes a) = .behind a := by
  have hmin : min (bytes a) (bytes (a ++ b)) = bytes a := Nat.min_eq_left (by rw [bytes_append]; omega)
  have hline : (ofSource (a ++ b)).lineAt (bytes a) = 1 + a.count '\n' := by
    rw [lineAt, takeWhile_starts, length_cons, length_startsFrom, Nat.add_comm]
  have hstart := getElem?_lineAt (a ++ b) (bytes a)
  rw [takeWhile_starts, getLast_startsFrom] at hstart
  have hslice := slice?_append (a.rdropWhile (· != '\n')) (a.rtakeWhile (· != '\n')) b
  rw [rdropWhile_append_rtakeWhile] at hslice
  have hsource : (ofSource (a ++ b)).source = a ++ b := rfl
  simp only [locate, hsource, hmin, getD_eq_getElem?_getD, hstart, Option.getD_some, hslice]
  rw [hline, Nat.add_comm _ 1]
  rfl

lemma locate_min (index : LineIndex) (offset : Nat) :
    index.locate (min offset (bytes index.source)) = index.locate offset := by
  simp only [locate, Nat.min_assoc, Nat.min_self]

end LineIndex
end ReactiveTemplate
