import Mathlib.Data.List.TakeWhile
import ReactiveTemplate.Proofs.Script.Lexemes
/-!
# Wrapping — calls around the writes of a phrase

`Phrase.wrap` puts a call around each write to a name that has a number.
-/
set_option linter.all false

namespace ReactiveTemplate.Script
open List
open Phrase

/-! ## Numbers of variables -/

def indexBits (k : Nat) : Nat := decimalBits (Nat.toDigits 10 k)

section Index

variable {k : Nat} {rest : List Char}

lemma head?_toDigits (hk : 0 < k) : (Nat.toDigits 10 k).head? ≠ some '0' := by
  induction k using Nat.strongRecOn with
  | _ k ih =>
    by_cases hlt : k < 10
    · have hdigit : ∀ k < 10, 0 < k → (Nat.toDigits 10 k).head? ≠ some '0' := by decide
      exact hdigit k hlt hk
    · have hle : 10 ≤ k := Nat.le_of_not_lt hlt
      rw [Nat.toDigits_of_base_le (by decide) hle, head?_append_of_ne_nil _ Nat.toDigits_ne_nil]
      exact ih (k / 10) (Nat.div_lt_self hk (by decide)) (Nat.div_pos hle (by decide))

lemma isDigit_toDigits : ∀ c ∈ Nat.toDigits 10 k, c.isDigit = true :=
  fun _ => Nat.isDigit_of_mem_toDigits (by decide) (by decide)

lemma separatorsFit_of_digits : ∀ {cs : List Char}, (∀ c ∈ cs, c.isDigit = true) → separatorsFit cs = true
  | [], _ => rfl
  | c :: cs, h => by
    have htail := separatorsFit_of_digits (fun d hd => h d (mem_cons_of_mem c hd))
    unfold separatorsFit
    split <;> simp_all

lemma spanDigits_digits {cs : List Char} (hcs : ∀ c ∈ cs, c.isDigit = true) :
    spanDigits Char.isDigit cs = (cs, [], true) := by
  have hunder : ∀ c ∈ cs, (c != '_') = true := by
    intro c hc
    refine bne_iff_ne.2 ?_
    rintro rfl
    exact absurd (hcs '_' hc) (by decide)
  have hhead : (cs.head? != some '_') = true := by
    cases cs with
    | nil => rfl
    | cons c cs => simpa using hunder c (.head _)
  have hrun : ∀ c ∈ cs, (c.isDigit || c == '_') = true := fun c hc => by simp [hcs c hc]
  unfold spanDigits
  rw [span_eq_takeWhile_dropWhile, takeWhile_eq_self_iff.2 hrun, dropWhile_eq_nil_iff.2 hrun]
  simp [filter_eq_self.2 hunder, hhead, separatorsFit_of_digits hcs]

lemma lexeme_index (h : stops rest = true) :
    lexeme false (Nat.toDigits 10 k ++ rest) = ⟨.number (indexBits k), rest, true⟩ := by
  have halone : lexeme false (Nat.toDigits 10 k ++ []) = ⟨.number (indexBits k), [], true⟩ := by
    rw [append_nil]
    rcases Nat.eq_zero_or_pos k with rfl | hk
    · rfl
    · obtain ⟨c, cs, hcs⟩ := exists_cons_of_ne_nil (Nat.toDigits_ne_nil)
      have hdigit := isDigit_toDigits (k := k)
      have hc : c ≠ '0' := by
        rintro rfl
        exact head?_toDigits hk (by rw [hcs]; rfl)
      unfold indexBits
      rw [hcs] at hdigit ⊢
      rw [lexeme_digit (hdigit c mem_cons_self), number, if_neg hc, nonzero, Reader.followed, spanDigits_digits hdigit]
      simp [integer, decimal, exponent, exponentPart, Reader.onHead, Reader.followed, Reader.ends, Lexeme.ofReading,
        endsNumber]
  exact lexeme_number halone h

end Index

namespace Phrase

/-! ## Calls -/

def index (k : Nat) : Phrase := .numeral [] (Nat.toDigits 10 k) (indexBits k)

def telling (gap : List Char) (k : Nat) (x : String) (write : Phrase) : Phrase :=
  .call gap "_$i" [] (.comma (index k) [] (.comma (.name [' '] x) [] write)) []

def wrap (number : String → Option Nat) : Phrase → Phrase
  | name gap x => name gap x
  | numeral gap text bits => numeral gap text bits
  | paren gap inner behind => paren gap (wrap number inner) behind
  | call gap callee opening arguments behind => call gap callee opening (wrap number arguments) behind
  | stepBefore gap operator inside x =>
    match number x with
    | some k => telling gap k x (stepBefore [' '] operator inside x)
    | none => stepBefore gap operator inside x
  | stepBehind gap x inside operator =>
    match number x with
    | some k => telling gap k x (paren [' '] (comma (stepBehind [] x inside operator) [] (name [' '] x)) [])
    | none => stepBehind gap x inside operator
  | sign gap operator operand => sign gap operator (wrap number operand)
  | binary left gap operator right => binary (wrap number left) gap operator (wrap number right)
  | assign gap x inside operator value =>
    match number x with
    | some k => telling gap k x (assign [' '] x inside operator (wrap number value))
    | none => assign gap x inside operator (wrap number value)
  | comma first gap rest => comma (wrap number first) gap (wrap number rest)

variable {number : String → Option Nat} {e : Phrase}

/-- A wrapped phrase is a call in place of a write, or it starts as the phrase does. -/
lemma wrap_cases (number : String → Option Nat) (e : Phrase) :
    ((e.wrap number).isItem = e.isItem ∧ (e.wrap number).isSign = e.isSign ∧
      ((e.wrap number).tightness = e.tightness ∨ (e.wrap number).tightness = 14)) ∧
    ∃ p ps ps', e.chunks = p :: ps ∧ ((e.wrap number).chunks = p :: ps' ∨ (e.wrap number).chunks = .word p.gap "_$i" :: ps') := by
  induction e with
  | stepBefore gap operator inside x =>
    unfold wrap
    cases number x with
    | none => exact ⟨⟨rfl, rfl, .inl rfl⟩, _, _, _, rfl, .inl rfl⟩
    | some k => exact ⟨⟨rfl, rfl, .inr rfl⟩, _, _, _, rfl, .inr rfl⟩
  | stepBehind gap x inside operator =>
    unfold wrap
    cases number x with
    | none => exact ⟨⟨rfl, rfl, .inl rfl⟩, _, _, _, rfl, .inl rfl⟩
    | some k => exact ⟨⟨rfl, rfl, .inr rfl⟩, _, _, _, rfl, .inr rfl⟩
  | assign gap x inside operator value =>
    unfold wrap
    cases number x with
    | none => exact ⟨⟨rfl, rfl, .inl rfl⟩, _, _, _, rfl, .inl rfl⟩
    | some k => exact ⟨⟨rfl, rfl, .inr rfl⟩, _, _, _, rfl, .inr rfl⟩
  | binary left gap operator right ih _ =>
    obtain ⟨p, ps, ps', hp, hwrap⟩ := ih.2
    refine ⟨⟨rfl, rfl, .inl rfl⟩, p, _, ps' ++ .punct gap operator :: (right.wrap number).chunks,
      by rw [chunks, hp, cons_append], ?_⟩
    rw [wrap, chunks]
    exact hwrap.imp (fun hwrap => by rw [hwrap, cons_append]) (fun hwrap => by rw [hwrap, cons_append])
  | comma first gap rest ih _ =>
    obtain ⟨p, ps, ps', hp, hwrap⟩ := ih.2
    refine ⟨⟨rfl, rfl, .inl rfl⟩, p, _, ps' ++ .punct gap "," :: (rest.wrap number).chunks,
      by rw [chunks, hp, cons_append], ?_⟩
    rw [wrap, chunks]
    exact hwrap.imp (fun hwrap => by rw [hwrap, cons_append]) (fun hwrap => by rw [hwrap, cons_append])
  | _ => exact ⟨⟨rfl, rfl, .inl rfl⟩, _, _, _, rfl, .inl rfl⟩

lemma isItem_wrap : (e.wrap number).isItem = e.isItem := (wrap_cases number e).1.1

lemma isSign_wrap : (e.wrap number).isSign = e.isSign := (wrap_cases number e).1.2.1

lemma tightness_wrap (e : Phrase) (number : String → Option Nat) :
    (e.wrap number).tightness = e.tightness ∨ (e.wrap number).tightness = 14 := (wrap_cases number e).1.2.2

lemma tightness_le_wrap : e.tightness ≤ (e.wrap number).tightness := by
  rcases e.tightness_wrap number with h | h
  · exact Nat.le_of_eq h.symm
  · exact h ▸ e.tightness_le

lemma fits_telling {gap : List Char} {k : Nat} {x : String} {write : Phrase} (hx : isName x = true)
    (hwrite : write.fits = true) : (telling gap k x write).fits = true := by
  have hcallee : isName "_$i" = true := by decide
  simp [telling, index, fits, isItem, hcallee, hx, hwrite]

lemma fits_wrap (h : e.fits = true) : (e.wrap number).fits = true := by
  induction e with
  | name gap x => exact h
  | numeral gap text bits => rfl
  | paren gap inner behind ih => exact ih h
  | call gap callee opening arguments behind ih =>
    simp only [fits, wrap, Bool.and_eq_true] at h ⊢
    exact ⟨h.1, ih h.2⟩
  | stepBefore gap operator inside x =>
    unfold wrap
    cases number x with
    | none => exact h
    | some k =>
      have hx := h
      simp only [fits, Bool.and_eq_true] at hx
      exact fits_telling hx.2 h
  | stepBehind gap x inside operator =>
    unfold wrap
    cases number x with
    | none => exact h
    | some k =>
      have hx := h
      simp only [fits, Bool.and_eq_true] at hx
      refine fits_telling hx.1.2 ?_
      simp only [fits, isItem, Bool.and_eq_true]
      exact ⟨⟨hx, trivial⟩, hx.1.2⟩
  | sign gap operator operand ih =>
    simp only [fits, wrap, Bool.and_eq_true, beq_iff_eq] at h ⊢
    refine ⟨⟨h.1.1, ih h.1.2⟩, ?_⟩
    rcases operand.tightness_wrap number with ht | ht
    · exact ht.trans h.2
    · exact ht
  | binary left gap operator right ihl ihr =>
    simp only [fits, wrap, Bool.and_eq_true, decide_eq_true_eq, isSign_wrap] at h ⊢
    obtain ⟨⟨⟨⟨⟨hop, hleft⟩, hright⟩, hpull⟩, hhold⟩, hsign⟩ := h
    exact ⟨⟨⟨⟨⟨hop, ihl hleft⟩, ihr hright⟩, Nat.le_trans hpull tightness_le_wrap⟩,
      Nat.lt_of_lt_of_le hhold tightness_le_wrap⟩, hsign⟩
  | assign gap x inside operator value ih =>
    simp only [fits, Bool.and_eq_true] at h
    have hassign : ∀ gap, (assign gap x inside operator (value.wrap number)).fits = true := by
      intro gap
      simp only [fits, Bool.and_eq_true, isItem_wrap]
      exact ⟨⟨h.1.1, ih h.1.2⟩, h.2⟩
    unfold wrap
    cases number x with
    | none => exact hassign gap
    | some k => exact fits_telling h.1.1.1 (hassign [' '])
  | comma first gap rest ihf ihr =>
    simp only [fits, wrap, Bool.and_eq_true, isItem_wrap] at h ⊢
    exact ⟨⟨ihf h.1.1, h.1.2⟩, ihr h.2⟩

end Phrase

/-! ## Wrapped phrases are read -/

section Reading

variable {s : String} {gap : List Char} {row row' : List Chunk} {number : String → Option Nat} {e : Phrase}

lemma meets_eq_of_head? {cs cs' : List Char} (h : cs.head? = cs'.head?) : meets s cs = meets s cs' := by
  cases cs <;> cases cs' <;> simp_all [meets]

lemma stops_operators : ∀ s ∈ operators, s.toList.head?.any (fun c => stops [c]) = true := by
  decide +kernel

lemma stops_punct (hgap : gap.all isGap = true) (hs : s ∈ operators) : stops (flat (.punct gap s :: row)) = true := by
  have hstops := stops_operators s hs
  cases gap with
  | cons c gap =>
    simp only [all_cons, Bool.and_eq_true] at hgap
    exact stops_gap hgap.1
  | nil =>
    rw [Chunk.punct]
    cases hlist : s.toList with
    | nil =>
      rw [hlist] at hstops
      cases hstops
    | cons c t =>
      rw [hlist] at hstops
      exact hstops

def closedOperators : List String := ["(", ")", ",", "++", "--"]

lemma meets_closed (hs : s ∈ closedOperators) (rest : List Char) : meets s rest = true := by
  cases rest with
  | nil => rfl
  | cons c cs =>
    have hlonger : ∀ s ∈ closedOperators, ∀ q ∈ punctuators, s.toList.isPrefixOf q.toList = true →
        q.toList.length ≤ s.toList.length := by decide +kernel
    have hslash : ∀ s ∈ closedOperators, (s == "/") = false := by decide
    have hjoins : joins s c = false := by
      refine Bool.eq_false_iff.2 (fun hjoins => ?_)
      obtain ⟨q, hq, hfront⟩ := any_eq_true.1 hjoins
      obtain ⟨t, ht⟩ := isPrefixOf_iff_prefix.1 hfront
      have hle := hlonger s hs q hq
        (List.isPrefixOf_iff_prefix.2 ⟨c :: t, by rw [← ht, append_assoc, singleton_append]⟩)
      rw [← ht] at hle
      simp only [length_append, length_cons] at hle
      omega
    simp [meets, hjoins, hslash s hs]

lemma mem_operators_of_closed : ∀ s ∈ closedOperators, s ∈ operators := by
  decide +kernel

lemma stops_closed (hgap : gap.all isGap = true) (hs : s ∈ closedOperators) :
    stops (flat (.punct gap s :: row)) = true :=
  stops_punct hgap (mem_operators_of_closed s hs)

lemma mem_closed_of_step : ∀ s ∈ stepOperators, s ∈ closedOperators := by
  decide

lemma reads_closed (hgap : gap.all isGap = true) (hs : s ∈ closedOperators) (rest : List Char) :
    (Chunk.punct gap s).Reads rest :=
  Chunk.reads_punct hgap (mem_operators_of_closed s hs) (meets_closed hs rest)

lemma allRead_telling {k : Nat} {x : String} {write : Phrase} (hgap : gap.all isGap = true) (hx : isName x = true)
    (h : AllRead (write.chunks ++ .punct [] ")" :: row')) : AllRead ((telling gap k x write).chunks ++ row') := by
  have hcomma : ∀ ps, stops (flat (.punct [] "," :: ps)) = true := fun ps => stops_closed rfl (by decide)
  have hindex : ∀ ps, (⟨[], Nat.toDigits 10 k, .number (indexBits k)⟩ : Chunk).Reads (flat (.punct [] "," :: ps)) := by
    intro ps
    obtain ⟨c, cs, hcs⟩ := exists_cons_of_ne_nil (Nat.toDigits_ne_nil)
    have hc : c.isDigit = true := isDigit_toDigits c (by rw [hcs]; exact (.head _))
    refine ⟨rfl, ?_, lexeme_index (hcomma ps)⟩
    rw [hcs]
    exact startsToken_wordPart (isWordPart_of_isDigit hc)
  simp only [telling, chunks, append_assoc]
  exact ⟨Chunk.reads_word hgap (by decide) (stops_closed rfl (by decide)), reads_closed rfl (by decide) _, hindex _,
    reads_closed rfl (by decide) _, Chunk.reads_word rfl hx (hcomma _), reads_closed rfl (by decide) _, h⟩

lemma Phrase.exists_first (hfits : e.fits = true) (h : AllRead (e.chunks ++ row)) :
    ∃ p ps, e.chunks = p :: ps ∧ p.text ≠ [] := by
  have hword : ∀ {x : String}, isName x = true → x.toList ≠ [] := by
    intro x hx hnil
    unfold isName at hx
    rw [hnil] at hx
    cases hx
  have hpunct : ∀ s ∈ operators, s.toList ≠ [] := by
    intro s hs hnil
    have hstops := stops_operators s hs
    rw [hnil] at hstops
    cases hstops
  induction e generalizing row with
  | name gap x => exact ⟨_, _, rfl, hword hfits⟩
  | numeral gap text bits =>
    refine ⟨_, _, rfl, ?_⟩
    obtain ⟨_, t, _, htext, -, -, ⟨c, rfl, -⟩ | ⟨d, rfl⟩⟩ := exists_of_lexeme_number h.1.token
    · exact ne_nil_of_length_pos (by rw [htext]; exact Nat.succ_pos _)
    · exact ne_nil_of_length_pos (by rw [htext]; exact Nat.succ_pos _)
  | paren gap inner behind => exact ⟨_, _, rfl, show "(".toList ≠ [] by decide⟩
  | call gap callee opening arguments behind =>
    simp only [fits, Bool.and_eq_true] at hfits
    exact ⟨_, _, rfl, hword hfits.1⟩
  | stepBefore gap operator inside x =>
    simp only [fits, Bool.and_eq_true, contains_iff_mem] at hfits
    exact ⟨_, _, rfl, hpunct operator (by simp [operators, hfits.1])⟩
  | stepBehind gap x inside operator =>
    simp only [fits, Bool.and_eq_true] at hfits
    exact ⟨_, _, rfl, hword hfits.1.2⟩
  | sign gap operator operand =>
    simp only [fits, Bool.and_eq_true, contains_iff_mem] at hfits
    exact ⟨_, _, rfl, hpunct operator (by simp [operators, hfits.1.1])⟩
  | binary left gap operator right ih _ =>
    simp only [fits, Bool.and_eq_true] at hfits
    rw [chunks, append_assoc] at h
    obtain ⟨p, ps, hp, htext⟩ := ih hfits.1.1.1.1.2 h
    exact ⟨p, _, by rw [chunks, hp, cons_append], htext⟩
  | assign gap x inside operator value =>
    simp only [fits, Bool.and_eq_true] at hfits
    exact ⟨_, _, rfl, hword hfits.1.1.1⟩
  | comma first gap rest ih _ =>
    simp only [fits, Bool.and_eq_true] at hfits
    rw [chunks, append_assoc] at h
    obtain ⟨p, ps, hp, htext⟩ := ih hfits.1.1 h
    exact ⟨p, _, by rw [chunks, hp, cons_append], htext⟩

lemma meets_wrap (hfits : e.fits = true) (h : AllRead (e.chunks ++ row)) (hmeets : meets s (flat (e.chunks ++ row)) = true) :
    meets s (flat ((e.wrap number).chunks ++ row')) = true := by
  obtain ⟨p, ps, hp, htext⟩ := exists_first hfits h
  obtain ⟨-, q, qs, qs', hq, hwrap⟩ := wrap_cases number e
  cases hp.symm.trans hq
  rw [hp] at hmeets
  have hchars : p.chars ≠ [] := append_ne_nil_of_right_ne_nil p.gap htext
  rcases hwrap with hwrap | hwrap
  · have hhead : (flat (p :: (qs' ++ row'))).head? = (flat (p :: (ps ++ row))).head? := by
      rw [flat_cons, flat_cons, head?_append_of_ne_nil _ hchars, head?_append_of_ne_nil _ hchars]
    rw [hwrap]
    exact (meets_eq_of_head? hhead).trans hmeets
  · rw [hwrap]
    cases hgap : p.gap with
    | nil => exact meets_of_not_isPunctChar (by decide +kernel)
    | cons c gap =>
      have hhead : (flat (.word (c :: gap) "_$i" :: (qs' ++ row'))).head? = (flat (p :: (ps ++ row))).head? := by
        simp [flat_cons, Chunk.chars, hgap, Chunk.word]
      exact (meets_eq_of_head? hhead).trans hmeets

lemma allRead_wrap (number : String → Option Nat) (e : Phrase) : ∀ {row row' : List Chunk}, e.fits = true →
    AllRead (e.chunks ++ row) → AllRead row' → stops (flat row') = true → AllRead ((e.wrap number).chunks ++ row') := by
  induction e with
  | name gap x =>
    intro row row' hfits h hrow' hstops
    exact ⟨Chunk.reads_word h.1.gap hfits hstops, hrow'⟩
  | numeral gap text bits =>
    intro row row' hfits h hrow' hstops
    exact ⟨h.1.number rfl hstops, hrow'⟩
  | paren gap inner behind ih =>
    intro row row' hfits h hrow' hstops
    simp only [wrap, chunks, append_assoc] at h ⊢
    have hbehind := h.2.right.1.gap
    exact ⟨reads_closed h.1.gap (by decide) _,
      ih hfits h.2 ⟨reads_closed hbehind (by decide) _, hrow'⟩ (stops_closed hbehind (by decide))⟩
  | call gap callee opening arguments behind ih =>
    intro row row' hfits h hrow' hstops
    simp only [fits, Bool.and_eq_true] at hfits
    simp only [wrap, chunks, append_assoc] at h ⊢
    have hbehind := h.2.2.right.1.gap
    exact ⟨Chunk.reads_word h.1.gap hfits.1 (stops_closed h.2.1.gap (by decide)), reads_closed h.2.1.gap (by decide) _,
      ih hfits.2 h.2.2 ⟨reads_closed hbehind (by decide) _, hrow'⟩ (stops_closed hbehind (by decide))⟩
  | stepBefore gap operator inside x =>
    intro row row' hfits h hrow' hstops
    simp only [fits, Bool.and_eq_true, contains_iff_mem] at hfits
    have hop : operator ∈ closedOperators := mem_closed_of_step operator hfits.1
    unfold wrap
    cases number x with
    | none => exact ⟨reads_closed h.1.gap hop _, Chunk.reads_word h.2.1.gap hfits.2 hstops, hrow'⟩
    | some k =>
      exact allRead_telling h.1.gap hfits.2 ⟨reads_closed (by decide) hop _,
        Chunk.reads_word h.2.1.gap hfits.2 (stops_closed rfl (by decide)), reads_closed rfl (by decide) _, hrow'⟩
  | stepBehind gap x inside operator =>
    intro row row' hfits h hrow' hstops
    simp only [fits, Bool.and_eq_true, contains_iff_mem] at hfits
    obtain ⟨⟨hop, hx⟩, -⟩ := hfits
    have hop : operator ∈ closedOperators := mem_closed_of_step operator hop
    have hstep : ∀ ps, stops (flat (.punct inside operator :: ps)) = true :=
      fun ps => stops_punct h.2.1.gap (mem_operators_of_closed operator hop)
    unfold wrap
    cases number x with
    | none => exact ⟨Chunk.reads_word h.1.gap hx (hstep _), reads_closed h.2.1.gap hop _, hrow'⟩
    | some k =>
      exact allRead_telling h.1.gap hx ⟨reads_closed (by decide) (by decide) _, Chunk.reads_word rfl hx (hstep _),
        reads_closed h.2.1.gap hop _, reads_closed rfl (by decide) _,
        Chunk.reads_word (by decide) hx (stops_closed rfl (by decide)), reads_closed rfl (by decide) _,
        reads_closed rfl (by decide) _, hrow'⟩
  | sign gap operator operand ih =>
    intro row row' hfits h hrow' hstops
    simp only [fits, Bool.and_eq_true, contains_iff_mem] at hfits
    have hop : operator ∈ operators := by simp [operators, hfits.1.1]
    exact ⟨Chunk.reads_punct h.1.gap hop (meets_wrap hfits.1.2 h.2 (h.1.meets hop)), ih hfits.1.2 h.2 hrow' hstops⟩
  | binary left gap operator right ihl ihr =>
    intro row row' hfits h hrow' hstops
    simp only [fits, Bool.and_eq_true, contains_iff_mem] at hfits
    obtain ⟨⟨⟨⟨⟨hop, hleft⟩, hright⟩, -⟩, -⟩, -⟩ := hfits
    have hop : operator ∈ operators := by simp [operators, hop]
    simp only [wrap, chunks, append_assoc] at h ⊢
    have hrest := h.right
    refine ihl hleft h ⟨?_, ihr hright hrest.2 hrow' hstops⟩ (stops_punct hrest.1.gap hop)
    exact Chunk.reads_punct hrest.1.gap hop (meets_wrap hright hrest.2 (hrest.1.meets hop))
  | assign gap x inside operator value ih =>
    intro row row' hfits h hrow' hstops
    simp only [fits, Bool.and_eq_true, contains_iff_mem] at hfits
    obtain ⟨⟨⟨hx, hop⟩, hvalue⟩, -⟩ := hfits
    have hop : operator ∈ operators := by simp [operators, hop]
    have hmeets : ∀ ps, meets operator (flat ((value.wrap number).chunks ++ ps)) = true :=
      fun ps => meets_wrap hvalue h.2.2 (h.2.1.meets hop)
    unfold wrap
    cases number x with
    | none =>
      exact ⟨Chunk.reads_word h.1.gap hx (stops_punct h.2.1.gap hop), Chunk.reads_punct h.2.1.gap hop (hmeets _),
        ih hvalue h.2.2 hrow' hstops⟩
    | some k =>
      exact allRead_telling h.1.gap hx ⟨Chunk.reads_word (by decide) hx (stops_punct h.2.1.gap hop),
        Chunk.reads_punct h.2.1.gap hop (hmeets _),
        ih hvalue h.2.2 ⟨reads_closed rfl (by decide) _, hrow'⟩ (stops_closed rfl (by decide))⟩
  | comma first gap rest ihf ihr =>
    intro row row' hfits h hrow' hstops
    simp only [fits, Bool.and_eq_true] at hfits
    simp only [wrap, chunks, append_assoc] at h ⊢
    have hrest := h.right
    exact ihf hfits.1.1 h ⟨reads_closed hrest.1.gap (by decide) _, ihr hfits.2 hrest.2 hrow' hstops⟩
      (stops_closed hrest.1.gap (by decide))

end Reading

end ReactiveTemplate.Script
