import Mathlib.Data.List.Infix
import ReactiveTemplate.Proofs.Script.Numbers
/-!
# Lexemes — a token is read the same in front of another text

A word or a number is the same in front of any text that starts with no character of a word, a punctuator in front of any
text whose first character does not make a longer punctuator or a comment of it (`meets`).
-/
set_option linter.all false

namespace ReactiveTemplate.Script
open List

/-! ## Words -/

variable {c : Char} {cs : List Char}

lemma wordChar?_cons (h : c ≠ '\\') : wordChar? (c :: cs) = some (c, false, cs) := by
  unfold wordChar?
  split
  · rename_i heq
    exact absurd (cons.inj heq).1 h
  · rename_i heq
    exact absurd (cons.inj heq).1 h
  · rename_i heq
    cases heq
    rfl
  · rename_i heq
    cases heq

lemma ne_backslash_of_isWordPart (h : Text.isWordPart c = true) : c ≠ '\\' := by
  rintro rfl
  exact absurd h (by decide)

lemma readWord_append {rest : List Char} (hrest : stops rest = true) : ∀ {w : List Char} {fuel : Nat} {acc : List Char},
    w.all Text.isWordPart = true → acc ≠ [] → w.length < fuel →
      readWord fuel acc false (w ++ rest) = some (String.ofList (acc.reverse ++ w), false, rest)
  | [], fuel + 1, acc, _, hacc, _ => by
    have hnil : acc.isEmpty = false := isEmpty_eq_false_iff.2 hacc
    rw [nil_append, append_nil]
    cases rest with
    | nil => rfl
    | cons c cs =>
      simp only [stops, Bool.and_eq_true, Bool.not_eq_true', bne_iff_ne] at hrest
      rw [readWord, wordChar?_cons hrest.1.2]
      simp [hnil, hrest.1.1]
  | c :: w, fuel + 1, acc, hw, hacc, hfuel => by
    simp only [all_cons, Bool.and_eq_true] at hw
    have hnil : acc.isEmpty = false := isEmpty_eq_false_iff.2 hacc
    rw [cons_append, readWord, wordChar?_cons (ne_backslash_of_isWordPart hw.1)]
    simp only [hnil, hw.1, Bool.or_self]
    rw [readWord_append hrest hw.2 (by simp) (Nat.lt_of_succ_lt_succ hfuel)]
    simp

lemma lexeme_wordStart (h : Text.isWordStart c = true) : lexeme false (c :: cs) = wordLexeme (c :: cs) := by
  unfold lexeme
  split
  all_goals rename_i heq
  · cases heq
  all_goals cases heq
  all_goals first | exact absurd h (by decide) | skip
  rw [isDigit_of_isWordStart h]
  simp [h]

lemma lexeme_word {w rest : List Char} (hw : isWordText w = true) (hrest : stops rest = true) :
    lexeme false (w ++ rest) = ⟨.word (String.ofList w) false, rest, true⟩ := by
  cases w with
  | nil => cases hw
  | cons c w =>
    simp only [isWordText, Bool.and_eq_true] at hw
    have hpart := isWordPart_of_isWordStart hw.1
    rw [cons_append, lexeme_wordStart hw.1, wordLexeme, readWord, wordChar?_cons (ne_backslash_of_isWordPart hpart)]
    simp only [hw.1, Bool.or_self]
    rw [readWord_append hrest hw.2 (by simp) (by simp only [length_append, length_cons]; omega)]
    simp

/-! ## Punctuators -/

def operators : List String :=
  ["(", ")", ","] ++ stepOperators ++ signOperators ++ plainOperators ++ assignmentOperators

def joins (s : String) (c : Char) : Bool := punctuators.any (fun q => (s.toList ++ [c]).isPrefixOf q.toList)

def meets (s : String) : List Char → Bool
  | [] => true
  | c :: _ => !joins s c && !(s == "/" && (c == '/' || c == '*'))

def startsPunct (c : Char) : Bool :=
  !c.isDigit && !Text.isWordStart c && !(['#', '"', '\'', '\x60', '.', '\\', ' '].contains c)

lemma lexeme_punctStart (h : startsPunct c = true) : lexeme false (c :: cs) = punctLexeme (c :: cs) := by
  unfold lexeme
  split
  all_goals rename_i heq
  · cases heq
  all_goals cases heq
  all_goals first | exact absurd h (by decide) | skip
  simp only [startsPunct, Bool.and_eq_true, Bool.not_eq_true'] at h
  have hslash : c ≠ '\\' := by
    rintro rfl
    exact absurd h.2 (by decide)
  rw [if_neg (by simp [h.1.1]), if_neg (by simp [h.1.2, hslash])]

def earlier (s : String) : List String := punctuators.takeWhile (· != s)

/-- A punctuator that its characters tell apart: no earlier one is a start of it, and of a longer one the start with one
more character is tried before it. -/
structure IsApart (s : String) : Prop where
  starts : s.toList.head?.any startsPunct = true
  mem : s ∈ punctuators ∧ s ≠ "?" ∧ s ≠ "?."
  earlier : ∀ q ∈ earlier s, q.toList.isPrefixOf s.toList = false
  longer : ∀ q ∈ punctuators, s.toList.isPrefixOf q.toList = true → s.toList.length < q.toList.length →
    String.ofList (q.toList.take (s.toList.length + 1)) ∈ Script.earlier s
  token : s ≠ "/" → s ≠ "/=" → s.toList.head?.any (fun c => c != '/' && !isGap c && c != '#') = true

lemma isApart_of_mem {s : String} (hs : s ∈ operators) : IsApart s := by
  -- one evaluation of the table for all five parts
  have hall : ∀ s ∈ operators, s.toList.head?.any startsPunct = true ∧ (s ∈ punctuators ∧ s ≠ "?" ∧ s ≠ "?.") ∧
      (∀ q ∈ earlier s, q.toList.isPrefixOf s.toList = false) ∧
      (∀ q ∈ punctuators, s.toList.isPrefixOf q.toList = true → s.toList.length < q.toList.length →
        String.ofList (q.toList.take (s.toList.length + 1)) ∈ earlier s) ∧
      (s ≠ "/" → s ≠ "/=" → s.toList.head?.any (fun c => c != '/' && !isGap c && c != '#') = true) := by
    decide +kernel
  obtain ⟨hstarts, hmem, hearlier, hlonger, htoken⟩ := hall s hs
  exact ⟨hstarts, hmem, hearlier, hlonger, htoken⟩

def behind? (cs : List Char) (q : String) : Option (String × List Char) :=
  (q.toList.isPrefixOf? cs).map (fun rest => (q, rest))

lemma behind?_eq_some {rest : List Char} {q s : String} :
    behind? cs q = some (s, rest) ↔ q = s ∧ q.toList ++ rest = cs := by
  unfold behind?
  rw [Option.map_eq_some_iff]
  constructor
  · rintro ⟨r, hr, heq⟩
    cases heq
    exact ⟨rfl, List.isPrefixOf?_eq_some_iff_append_eq.1 hr⟩
  · rintro ⟨rfl, h⟩
    exact ⟨rest, List.isPrefixOf?_eq_some_iff_append_eq.2 h, rfl⟩

lemma exists_earlier {s : String} (h : s ∈ punctuators) : ∃ l, punctuators = earlier s ++ s :: l := by
  have hwhole := (List.takeWhile_append_dropWhile (p := (· != s)) (l := punctuators)).symm
  cases hdrop : punctuators.dropWhile (· != s) with
  | nil =>
    rw [hdrop, List.append_nil] at hwhole
    have hall : punctuators.all (· != s) = true := hwhole ▸ List.all_takeWhile
    simpa using List.all_eq_true.1 hall s h
  | cons q l =>
    have hq := List.head?_dropWhile_not (· != s) punctuators
    rw [hdrop] at hq hwhole
    have heq : q = s := by simpa using hq
    exact ⟨l, heq ▸ hwhole⟩

variable {s : String} {rest : List Char}

lemma findSome?_of_meets (hs : s ∈ operators) (h : meets s rest = true) :
    punctuators.findSome? (behind? (s.toList ++ rest)) = some (s, rest) := by
  obtain ⟨l, hl⟩ := exists_earlier (isApart_of_mem hs).mem.1
  refine List.findSome?_eq_some_iff.2 ⟨earlier s, s, l, hl, behind?_eq_some.2 ⟨rfl, rfl⟩, ?_⟩
  intro q hq
  refine Option.eq_none_iff_forall_ne_some.2 (fun r hr => ?_)
  obtain ⟨p, after⟩ := r
  obtain ⟨rfl, hcs⟩ := behind?_eq_some.1 hr
  rcases List.append_eq_append_iff.1 hcs with ⟨t, ht, -⟩ | ⟨t, ht, hrest⟩
  · have hfront : q.toList.isPrefixOf s.toList = true := List.isPrefixOf_iff_prefix.2 ⟨t, ht.symm⟩
    exact absurd (hfront.symm.trans ((isApart_of_mem hs).earlier q hq)) (by decide)
  · cases t with
    | nil =>
      have hfront : q.toList.isPrefixOf s.toList = true := List.isPrefixOf_iff_prefix.2 ⟨[], by simp [ht]⟩
      exact absurd (hfront.symm.trans ((isApart_of_mem hs).earlier q hq)) (by decide)
    | cons c t =>
      -- a longer one would go on with the next character
      have hmem : q ∈ punctuators := (List.takeWhile_sublist _).subset hq
      have hjoins : joins s c = true := by
        refine List.any_eq_true.2 ⟨q, hmem, List.isPrefixOf_iff_prefix.2 ⟨t, ?_⟩⟩
        rw [ht, List.append_assoc, List.singleton_append]
      rw [hrest] at h
      simp [meets, hjoins] at h

lemma joins_of_findSome? (hs : s ∈ operators)
    (h : punctuators.findSome? (behind? (s.toList ++ c :: cs)) = some (s, c :: cs)) : joins s c = false := by
  cases hjoins : joins s c with
  | false => rfl
  | true =>
    obtain ⟨q, hq, hfront⟩ := List.any_eq_true.1 hjoins
    obtain ⟨t, ht⟩ := List.isPrefixOf_iff_prefix.1 hfront
    obtain ⟨before, a, after, hsplit, ha, hnone⟩ := List.findSome?_eq_some_iff.1 h
    rw [(behind?_eq_some.1 ha).1] at hsplit
    -- the punctuator with the next character is tried before, and is found
    have hearlier : String.ofList (s.toList ++ [c]) ∈ earlier s := by
      have hmem := (isApart_of_mem hs).longer q hq
        (List.isPrefixOf_iff_prefix.2 ⟨c :: t, by rw [← ht, List.append_assoc, List.singleton_append]⟩)
        (by rw [← ht]; simp)
      rwa [← ht, List.take_append_of_le_length (by simp), List.take_of_length_le (by simp)] at hmem
    have hmem : String.ofList (s.toList ++ [c]) ∈ before := by
      unfold earlier at hearlier
      rw [hsplit, List.takeWhile_append] at hearlier
      split at hearlier
      · simpa using hearlier
      · exact (List.takeWhile_sublist _).subset hearlier
    have hfound : behind? (s.toList ++ c :: cs) (String.ofList (s.toList ++ [c])) =
        some (String.ofList (s.toList ++ [c]), cs) := behind?_eq_some.2 ⟨rfl, by simp⟩
    rw [hnone _ hmem] at hfound
    cases hfound

lemma punctLexeme_eq (hs : s ∈ operators) : punctLexeme (s.toList ++ rest) = ⟨.punct s, rest, true⟩ ↔
    punctuators.findSome? (behind? (s.toList ++ rest)) = some (s, rest) := by
  obtain ⟨-, hquestion, hchain⟩ := (isApart_of_mem hs).mem
  have hfind : punctuators.findSome? (fun p => (p.toList.isPrefixOf? (s.toList ++ rest)).map (fun rest => (p, rest))) =
      punctuators.findSome? (behind? (s.toList ++ rest)) := rfl
  simp only [punctLexeme, hfind]
  generalize punctuators.findSome? (behind? (s.toList ++ rest)) = hit
  split
  · constructor
    · intro h
      split at h
      · cases h
        exact absurd rfl hquestion
      · cases h
        exact absurd rfl hchain
    · intro h
      cases h
      exact absurd rfl hchain
  · constructor <;> intro h <;> cases h <;> rfl
  · constructor <;> intro h <;> cases h

lemma lexeme_operator (hs : s ∈ operators) : lexeme false (s.toList ++ rest) = punctLexeme (s.toList ++ rest) := by
  have hstart := (isApart_of_mem hs).starts
  cases hlist : s.toList with
  | nil =>
    rw [hlist] at hstart
    cases hstart
  | cons c t =>
    rw [hlist] at hstart
    exact lexeme_punctStart hstart

lemma lexeme_punct (hs : s ∈ operators) (h : meets s rest = true) :
    lexeme false (s.toList ++ rest) = ⟨.punct s, rest, true⟩ := by
  rw [lexeme_operator hs]
  exact (punctLexeme_eq hs).2 (findSome?_of_meets hs h)

lemma meets_of_lexeme (hs : s ∈ operators) (h : lexeme false (s.toList ++ rest) = ⟨.punct s, rest, true⟩)
    (hstarts : startsToken (s.toList ++ rest) = true) : meets s rest = true := by
  cases rest with
  | nil => rfl
  | cons c cs =>
    rw [lexeme_operator hs, punctLexeme_eq hs] at h
    have hcomment : (s == "/" && (c == '/' || c == '*')) = false := by
      refine Bool.eq_false_iff.2 (fun hopens => ?_)
      simp only [Bool.and_eq_true, beq_iff_eq, Bool.or_eq_true] at hopens
      obtain ⟨rfl, rfl | rfl⟩ := hopens <;> cases hstarts
    simp [meets, joins_of_findSome? hs h, hcomment]

/-! ## Blanks -/

def gapPoints : List Nat :=
  List.range' 0x9 5 ++ [0x20, 0x85, 0xA0, 0x1680] ++ List.range' 0x2000 12 ++
    [0x2028, 0x2029, 0x202F, 0x205F, 0x3000, 0xFEFF]

lemma mem_gapPoints (h : isGap c = true) : c.toNat ∈ gapPoints := by
  simp only [isGap, isBlank, isLineEnd, Text.isBlank, Bool.or_eq_true, Bool.and_eq_true, decide_eq_true_eq, beq_iff_eq] at h
  simp only [gapPoints, List.mem_append, List.mem_range'_1, List.mem_cons]
  rcases h with ((⟨h, -⟩ | rfl) | rfl) | ((rfl | rfl) | rfl) | rfl
  · omega
  all_goals decide

lemma isWordPart_of_isGap (h : isGap c = true) : Text.isWordPart c = false := by
  have hall : ∀ n ∈ gapPoints, Text.isWordPart (Char.ofNat n) = false := by decide +kernel
  rw [← Char.ofNat_toNat c]
  exact hall _ (mem_gapPoints h)

lemma isGap_of_isWordPart (h : Text.isWordPart c = true) : isGap c = false := by
  cases hgap : isGap c with
  | false => rfl
  | true => exact h.symm.trans (isWordPart_of_isGap hgap)

def isPunctChar (c : Char) : Bool := punctuators.any (fun q => q.toList.contains c)

lemma meets_of_not_isPunctChar (h : isPunctChar c = false) : meets s (c :: cs) = true := by
  have hjoins : joins s c = false := by
    refine Bool.eq_false_iff.2 (fun hjoins => ?_)
    obtain ⟨q, hq, hfront⟩ := List.any_eq_true.1 hjoins
    obtain ⟨t, ht⟩ := List.isPrefixOf_iff_prefix.1 hfront
    have hmem : c ∈ q.toList := by
      rw [← ht]
      simp
    exact absurd (h.symm.trans (List.any_eq_true.2 ⟨q, hq, List.contains_iff_mem.2 hmem⟩)) (by decide)
  have hslash : c ≠ '/' := by
    rintro rfl
    exact absurd h (by decide)
  have hstar : c ≠ '*' := by
    rintro rfl
    exact absurd h (by decide)
  simp [meets, hjoins, hslash, hstar]

lemma stops_gap (h : isGap c = true) : stops (c :: cs) = true := by
  have hslash : c ≠ '\\' := by
    rintro rfl
    exact absurd h (by decide)
  have hpoint : c ≠ '.' := by
    rintro rfl
    exact absurd h (by decide)
  simp [stops, isWordPart_of_isGap h, hslash, hpoint]

/-! ## Chunks -/

lemma startsToken_cons (hslash : c ≠ '/') (hgap : isGap c = false) (hhash : c ≠ '#') :
    startsToken (c :: cs) = true := by
  have hcomment : opensNoComment (c :: cs) = true := by
    unfold opensNoComment
    split
    · rename_i heq
      exact absurd (List.cons.inj heq).1 hslash
    · rename_i heq
      exact absurd (List.cons.inj heq).1 hslash
    · rfl
  simp [startsToken, hcomment, hgap, hhash]

lemma startsToken_wordPart (h : Text.isWordPart c = true) : startsToken (c :: cs) = true := by
  refine startsToken_cons ?_ (isGap_of_isWordPart h) ?_ <;> rintro rfl <;> exact absurd h (by decide)

namespace Chunk

variable {gap : List Char}

lemma reads_word {x : String} (hgap : gap.all isGap = true) (hx : isName x = true) (h : stops rest = true) :
    (word gap x).Reads rest := by
  have hword : isWordText x.toList = true := by
    unfold isName at hx
    simp only [Bool.and_eq_true] at hx
    exact hx.1.1
  refine ⟨hgap, ?_, ?_⟩
  · show startsToken (x.toList ++ rest) = true
    cases hlist : x.toList with
    | nil =>
      rw [hlist] at hword
      cases hword
    | cons c t =>
      rw [hlist] at hword
      simp only [isWordText, Bool.and_eq_true] at hword
      exact startsToken_wordPart (isWordPart_of_isWordStart hword.1)
  · have hlexeme := lexeme_word hword h
    rwa [String.ofList_toList] at hlexeme

lemma reads_punct (hgap : gap.all isGap = true) (hs : s ∈ operators) (h : meets s rest = true) :
    (punct gap s).Reads rest := by
  refine ⟨hgap, ?_, lexeme_punct hs h⟩
  show startsToken (s.toList ++ rest) = true
  by_cases hslash : s = "/"
  · subst hslash
    cases rest with
    | nil => rfl
    | cons c cs =>
      simp only [Script.meets, Bool.and_eq_true, Bool.not_eq_true', beq_self_eq_true, Bool.true_and, Bool.or_eq_false_iff,
        beq_eq_false_iff_ne] at h
      have hcomment : opensNoComment ('/' :: c :: cs) = true := by simp [opensNoComment, h.2.1, h.2.2]
      show (opensNoComment ('/' :: c :: cs) && true && true) = true
      rw [hcomment]
      rfl
  · by_cases hassign : s = "/="
    · subst hassign
      rfl
    · have hhead := (isApart_of_mem hs).token hslash hassign
      cases hlist : s.toList with
      | nil =>
        rw [hlist] at hhead
        cases hhead
      | cons c t =>
        rw [hlist] at hhead
        simp only [head?_cons, Option.any_some, Bool.and_eq_true, bne_iff_ne, Bool.not_eq_true'] at hhead
        exact startsToken_cons hhead.1.1 hhead.1.2 hhead.2

lemma Reads.number {p : Chunk} {rest' : List Char} {bits : Nat} (h : p.Reads rest) (ht : p.token = .number bits)
    (hstops : stops rest' = true) : p.Reads rest' := by
  have htoken := h.token
  rw [ht] at htoken
  refine ⟨h.gap, ?_, ?_⟩
  · obtain ⟨_, t, _, htext, -, -, ⟨c, rfl, hc⟩ | ⟨d, rfl⟩⟩ := exists_of_lexeme_number htoken
    · rw [htext]
      exact startsToken_wordPart (isWordPart_of_isDigit hc)
    · rw [htext]
      exact startsToken_cons (by decide) (by decide) (by decide)
  · rw [ht]
    exact lexeme_number htoken hstops

lemma Reads.meets (h : (punct gap s).Reads rest) (hs : s ∈ operators) : meets s rest = true :=
  meets_of_lexeme hs h.token h.starts

end Chunk

end ReactiveTemplate.Script
