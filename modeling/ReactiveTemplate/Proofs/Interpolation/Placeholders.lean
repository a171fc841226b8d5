import ReactiveTemplate.Interpolation
import ReactiveTemplate.Proofs.Text.Search
/-!
# Placeholders — cutting a scanned text where it was put together

A scan writes placeholders into a text and cuts the text at them again.
-/
set_option linter.all false

namespace ReactiveTemplate
open List

variable {text : String} {s : Sequence} {i : Interpolation}

lemma Digest.base64Digit_ne (n : Nat) : Digest.base64Digit n ≠ '␣' := by
  have hmod : Digest.base64Digit n = Digest.base64Digit (n % 64) := by simp [Digest.base64Digit]
  have hall : ∀ m < 64, Digest.base64Digit m ≠ '␣' := by decide
  rw [hmod]
  exact hall _ (Nat.mod_lt n (by decide))

lemma Digest.not_mem_base64Url : ∀ bs : List UInt8, '␣' ∉ Digest.base64Url bs
  | a :: b :: c :: rest => by
    rw [Digest.base64Url]
    simp only [mem_cons, not_or]
    exact ⟨(base64Digit_ne _).symm, (base64Digit_ne _).symm, (base64Digit_ne _).symm, (base64Digit_ne _).symm,
      not_mem_base64Url rest⟩
  | [a, b] => by
    simp only [Digest.base64Url, mem_cons, not_mem_nil, or_false, not_or]
    exact ⟨(base64Digit_ne _).symm, (base64Digit_ne _).symm, (base64Digit_ne _).symm⟩
  | [a] => by
    simp only [Digest.base64Url, mem_cons, not_mem_nil, or_false, not_or]
    exact ⟨(base64Digit_ne _).symm, (base64Digit_ne _).symm⟩
  | [] => by simp [Digest.base64Url]

namespace Sequence

lemma toList_placeholder (s : Sequence) :
    s.placeholder.1.toList = '_' :: 'i' :: '_' :: (s.hashAt s.counter).toList := by
  simp [placeholder, nextHash, next]

lemma placeholder_ne_nil (s : Sequence) : s.placeholder.1.toList ≠ [] := by
  rw [toList_placeholder]
  exact cons_ne_nil _ _

lemma not_mem_placeholder (s : Sequence) : '␣' ∉ s.placeholder.1.toList := by
  rw [toList_placeholder]
  simp only [hashAt, Digest.short, String.toList_ofList, mem_cons, not_or]
  exact ⟨by decide, by decide, by decide, Digest.not_mem_base64Url _⟩

end Sequence

namespace Interpolation

/-- A literal run of a text, or an interpolation with whether it is escaped. -/
abbrev Segment := List Char ⊕ (Bool × List Char)

def segmentsOf (text : String) : List Segment := segments (text.toList.length + 1) text.toList

def isSign (c : Char) : Bool := c == '$' || c == '#'

def sign (isSafe : Bool) : Char := if isSafe then '$' else '#'

/-- A text cut into its characters and, at each marker, the expression behind it. -/
inductive Segmented : List Char → List Segment → Prop
  | nil : Segmented [] []
  | char {c : Char} {cs : List Char} {a : List Segment} : (isSign c = true → cs.head? ≠ some '\x7b') → Segmented cs a →
      Segmented (c :: cs) (.inl [c] :: a)
  | marker {cs : List Char} {a : List Segment} (isSafe : Bool) : Segmented (readExpression .code 0 [] cs).2 a →
      Segmented (sign isSafe :: '\x7b' :: cs) (.inr (isSafe, (readExpression .code 0 [] cs).1) :: a)

lemma readExpression_suffix (mode : Mode) (depth : Nat) (acc cs : List Char) :
    (readExpression mode depth acc cs).2 <:+ cs := by
  fun_induction readExpression mode depth acc cs with
  | case1 => exact suffix_rfl
  | case8 => exact suffix_cons _ _
  | case2 | case3 | case4 | case5 | case6 | case7 | case9 | case10 =>
    rename_i ih
    exact ih.trans (suffix_cons _ _)

lemma hasMarkersIn_cons (c : Char) (cs : List Char) :
    hasMarkersIn (c :: cs) = (isSign c && cs.head? == some '\x7b' || hasMarkersIn cs) := by
  conv_lhs => unfold hasMarkersIn
  split
  · rename_i heq
    cases heq
    rfl
  · rename_i heq
    cases heq
    rfl
  · rename_i d ds hdollar hhash heq
    cases heq
    have hfirst : (isSign c && cs.head? == some '\x7b') = false := by
      refine Bool.eq_false_iff.2 (fun h => ?_)
      simp only [isSign, Bool.and_eq_true, Bool.or_eq_true, beq_iff_eq, head?_eq_some_iff] at h
      obtain ⟨hsign, rest, rfl⟩ := h
      rcases hsign with rfl | rfl
      · exact hdollar rest rfl rfl
      · exact hhash rest rfl rfl
    rw [hfirst, Bool.false_or]
  · rename_i heq
    cases heq

lemma isSign_sign (isSafe : Bool) : isSign (sign isSafe) = true := by cases isSafe <;> rfl

lemma sign_inj {isSafe isSafe' : Bool} (h : sign isSafe = sign isSafe') : isSafe = isSafe' := by
  revert h
  cases isSafe <;> cases isSafe' <;> decide

lemma segmented_segments : ∀ (fuel : Nat) (cs : List Char), cs.length < fuel → Segmented cs (segments fuel cs)
  | 0, _, h => absurd h (Nat.not_lt_zero _)
  | fuel + 1, cs, h => by
    have hread : ∀ rest : List Char, rest.length + 2 < fuel + 1 →
        Segmented (readExpression .code 0 [] rest).2 (segments fuel (readExpression .code 0 [] rest).2) := fun rest hlt =>
      segmented_segments fuel _ (Nat.lt_of_le_of_lt (readExpression_suffix .code 0 [] rest).length_le (by omega))
    unfold segments
    split
    · contradiction
    · exact .nil
    · rename_i rest hfuel
      cases hfuel
      exact .marker true (hread rest h)
    · rename_i rest hfuel
      cases hfuel
      exact .marker false (hread rest h)
    · rename_i c rest hdollar hhash hfuel
      cases hfuel
      refine .char (fun hsign hhead => ?_) (segmented_segments fuel rest (Nat.lt_of_succ_lt_succ h))
      obtain ⟨more, rfl⟩ := head?_eq_some_iff.1 hhead
      simp only [isSign, Bool.or_eq_true, beq_iff_eq] at hsign
      rcases hsign with rfl | rfl
      · exact hdollar more rfl rfl
      · exact hhash more rfl rfl

lemma segmented_segmentsOf (text : String) : Segmented text.toList (segmentsOf text) :=
  segmented_segments _ _ (Nat.lt_succ_self _)

namespace Segmented

variable {cs : List Char} {a : List Segment}

lemma mem_of_mem_run (h : Segmented cs a) {run : List Char} (hrun : Sum.inl run ∈ a) : ∀ c ∈ run, c ∈ cs := by
  induction h with
  | nil => cases hrun
  | char _ _ ih =>
    intro x hx
    rcases mem_cons.1 hrun with heq | hrun
    · cases heq
      exact mem_singleton.1 hx ▸ (.head _)
    · exact mem_cons_of_mem _ (ih hrun x hx)
  | @marker cs _ isSafe _ ih =>
    intro x hx
    have hmem := ih ((mem_cons.1 hrun).resolve_left nofun) x hx
    exact mem_cons_of_mem _ (mem_cons_of_mem _ ((readExpression_suffix _ _ _ cs).subset hmem))

lemma isSafe_of_mem (h : Segmented cs a) (hno : ¬ ['#', '\x7b'] <:+: cs) {isSafe : Bool} {expression : List Char}
    (hmem : Sum.inr (isSafe, expression) ∈ a) : isSafe = true := by
  induction h with
  | nil => cases hmem
  | @char c cs _ _ _ ih =>
    exact ih (fun hin => hno (hin.trans (suffix_cons c cs).isInfix)) ((mem_cons.1 hmem).resolve_left nofun)
  | @marker cs _ isSafe' _ ih =>
    cases isSafe' with
    | false => exact absurd (prefix_append ['#', '\x7b'] cs).isInfix hno
    | true =>
      rcases mem_cons.1 hmem with heq | hmem
      · cases heq
        rfl
      · refine ih (fun hin => hno ?_) hmem
        exact hin.trans ((readExpression_suffix _ _ _ cs).isInfix.trans (suffix_append ['$', '\x7b'] cs).isInfix)

lemma eq_map (h : Segmented cs a) (hmarkers : hasMarkersIn cs = false) : a = cs.map (fun c => .inl [c]) := by
  induction h with
  | nil => rfl
  | char _ _ ih =>
    rw [hasMarkersIn_cons, Bool.or_eq_false_iff] at hmarkers
    rw [ih hmarkers.2, map_cons]
  | marker isSafe => cases isSafe <;> cases hmarkers

lemma unique (h : Segmented cs a) {b : List Segment} (h' : Segmented cs b) : a = b := by
  induction h generalizing b with
  | nil =>
    cases h'
    rfl
  | @char c cs _ hc _ ih =>
    cases h' with
    | char _ h' => rw [ih h']
    | marker isSafe => exact absurd rfl (hc (isSign_sign isSafe))
  | @marker cs _ isSafe _ ih =>
    generalize htext : sign isSafe :: '\x7b' :: cs = text at h'
    cases h' with
    | nil => cases htext
    | char hc _ =>
      cases htext
      exact absurd rfl (hc (isSign_sign isSafe))
    | marker isSafe' h' =>
      obtain ⟨hsign, htext⟩ := cons.inj htext
      cases htext
      cases sign_inj hsign
      rw [ih h']

end Segmented

lemma place_inr (isSafe : Bool) (expression : List Char) (rest : List Segment) (s : Sequence) :
    place (.inr (isSafe, expression) :: rest) s =
      (s.placeholder.1.toList ++ (place rest s.placeholder.2).1,
        ⟨s.placeholder.1, String.ofList expression, isSafe, false⟩ :: (place rest s.placeholder.2).2.1,
        (place rest s.placeholder.2).2.2) := rfl

lemma not_mem_place {x : Char} (hx : ∀ s : Sequence, x ∉ s.placeholder.1.toList) :
    ∀ (a : List Segment) (s : Sequence), (∀ run, Sum.inl run ∈ a → x ∉ run) → x ∉ (place a s).1
  | [], _, _ => by simp [place]
  | .inl run :: a, s, h => by
    rw [place]
    simp only [mem_append, not_or]
    exact ⟨h run mem_cons_self, not_mem_place hx a s (fun run' hrun => h run' (.tail _ hrun))⟩
  | .inr (isSafe, expression) :: a, s, h => by
    rw [place]
    simp only [mem_append, not_or]
    exact ⟨hx s, not_mem_place hx a _ (fun run' hrun => h run' (.tail _ hrun))⟩

end Interpolation

lemma Scan.infix_of_mem_cut : ∀ (found : List Interpolation) (rest : List Char) (literal : String),
    Piece.literal literal ∈ Scan.cut found rest → literal.toList <:+: rest
  | [], rest, literal, h => by
    rw [Scan.cut] at h
    split at h
    · cases h
    · rw [mem_singleton, Piece.literal.injEq] at h
      have hrest : literal.toList = rest := by rw [h, String.toList_ofList]
      exact ⟨[], [], by rw [hrest, nil_append, append_nil]⟩
  | i :: more, rest, literal, h => by
    rw [Scan.cut] at h
    split at h
    · rename_i before after hcut
      have hrest := Text.append_of_cut? hcut
      rcases mem_append.1 h with h | h
      · split at h
        · cases h
        · rw [mem_singleton, Piece.literal.injEq] at h
          rw [h, String.toList_ofList, hrest]
          exact (prefix_append before _).isInfix
      · rcases mem_cons.1 h with h | h
        · cases h
        · refine (infix_of_mem_cut more after literal h).trans ?_
          rw [hrest, ← append_assoc]
          exact (suffix_append _ after).isInfix
    · exact infix_of_mem_cut more rest literal h

lemma not_mem_of_mem_parts {literal : String} (htext : '␣' ∉ text.toList)
    (h : Piece.literal literal ∈ (scan text s).1.parts) : '␣' ∉ literal.toList := by
  unfold scan at h
  split at h
  · intro hc
    have := (Scan.infix_of_mem_cut _ _ literal h).subset hc
    rw [String.toList_ofList] at this
    refine Interpolation.not_mem_place Sequence.not_mem_placeholder _ s (fun run hrun hmem => ?_) this
    exact htext ((Interpolation.segmented_segmentsOf text).mem_of_mem_run hrun _ hmem)
  · simp only [Scan.parts, mem_singleton, Piece.literal.injEq] at h
    rwa [h]

/-! ## Interpolations that are escaped -/

namespace Interpolation

lemma mem_of_mem_place : ∀ (a : List Segment) (s : Sequence), i ∈ (place a s).2.1 →
    ∃ expression, Sum.inr (i.isSafe, expression) ∈ a
  | [], s, h => by simp [place] at h
  | .inl run :: a, s, h => by
    obtain ⟨expression, hmem⟩ := mem_of_mem_place a s h
    exact ⟨expression, mem_cons_of_mem _ hmem⟩
  | .inr (isSafe, expression) :: a, s, h => by
    rcases mem_cons.1 h with rfl | h
    · exact ⟨expression, (.head _)⟩
    · obtain ⟨expression', hmem⟩ := mem_of_mem_place a _ h
      exact ⟨expression', mem_cons_of_mem _ hmem⟩

/-- Enters an interpolation among those that are kept, in the place of one with its placeholder if there is one. -/
def enter (kept : List Interpolation) (i : Interpolation) : List Interpolation :=
  if kept.any (fun k => k.placeholder == i.placeholder) then
    kept.map (fun k => if k.placeholder == i.placeholder then i else k)
  else kept ++ [i]

lemma placeholders_enter (kept : List Interpolation) (i : Interpolation) :
    (enter kept i).map (·.placeholder) =
      if i.placeholder ∈ kept.map (·.placeholder) then kept.map (·.placeholder)
      else kept.map (·.placeholder) ++ [i.placeholder] := by
  have hany : kept.any (fun k => k.placeholder == i.placeholder) = true ↔ i.placeholder ∈ kept.map (·.placeholder) := by
    simp [any_eq_true]
  by_cases h : i.placeholder ∈ kept.map (·.placeholder)
  · rw [enter, if_pos (hany.2 h), if_pos h, map_map]
    refine map_congr_left (fun k _ => ?_)
    simp only [Function.comp_apply]
    split
    · rename_i heq
      exact (eq_of_beq heq).symm
    · rfl
  · rw [enter, if_neg (mt hany.1 h), if_neg h, map_append, map_singleton]

lemma mem_of_mem_distinctOnto : ∀ (found kept : List Interpolation),
    i ∈ found.foldl enter kept → i ∈ kept ++ found
  | [], kept, h => by simpa using h
  | j :: found, kept, h => by
    have hmem := mem_of_mem_distinctOnto found _ h
    rw [mem_append] at hmem ⊢
    rw [mem_cons]
    rcases hmem with hmem | hmem
    · unfold enter at hmem
      split at hmem
      · obtain ⟨k, hk, rfl⟩ := mem_map.1 hmem
        split
        · exact Or.inr (Or.inl rfl)
        · exact Or.inl hk
      · rcases mem_append.1 hmem with hk | hk
        · exact Or.inl hk
        · exact Or.inr (Or.inl (mem_singleton.1 hk))
    · exact Or.inr (Or.inr hmem)

lemma mem_of_mem_markFull {text : List Char} {found : List Interpolation}
    (h : i ∈ markFull text found) : ∃ j ∈ found, j.isSafe = i.isSafe := by
  unfold markFull at h
  split at h
  · rename_i j
    rw [mem_singleton] at h
    subst h
    exact ⟨j, mem_cons_self, rfl⟩
  · exact ⟨i, h, rfl⟩

end Interpolation

lemma Scan.mem_of_expression_mem_cut : ∀ (found : List Interpolation) (rest : List Char),
    Piece.expression i ∈ Scan.cut found rest → i ∈ found
  | [], rest, h => by
    rw [Scan.cut] at h
    split at h <;> simp at h
  | j :: more, rest, h => by
    rw [Scan.cut] at h
    split at h
    · rename_i before after hcut
      rw [mem_append] at h
      rcases h with h | h
      · split at h <;> simp at h
      · rcases mem_cons.1 h with h | h
        · cases h
          exact (.head _)
        · exact mem_cons_of_mem _ (Scan.mem_of_expression_mem_cut more after h)
    · exact mem_cons_of_mem _ (Scan.mem_of_expression_mem_cut more rest h)

lemma isSafe_of_mem_parts
    (htext : Text.contains text "#\x7b" = false) (h : Piece.expression i ∈ (scan text s).1.parts) : i.isSafe = true := by
  unfold scan at h
  split at h
  · have hfull := Scan.mem_of_expression_mem_cut _ _ h
    obtain ⟨j, hj, hsafe⟩ := Interpolation.mem_of_mem_markFull hfull
    have hfound := Interpolation.mem_of_mem_distinctOnto _ [] hj
    obtain ⟨expression, hsegment⟩ := Interpolation.mem_of_mem_place _ s hfound
    rw [← hsafe]
    exact (Interpolation.segmented_segmentsOf text).isSafe_of_mem (Text.not_infix_of_contains htext) hsegment
  · simp [Scan.parts] at h

/-! ## Placeholders where they were put -/

namespace Interpolation

/-- Whether each placeholder occurs in a text first where it was put; `before` is what precedes the segments. -/
def placedFirst (text before : List Char) : List Segment → Sequence → Bool
  | [], _ => true
  | .inl run :: rest, s => placedFirst text (before ++ run) rest s
  | .inr _ :: rest, s =>
    (Text.cut? s.placeholder.1.toList text).map Prod.fst == some before &&
      placedFirst text (before ++ s.placeholder.1.toList) rest s.placeholder.2

def joined {α : Type} (literal : List Char → List α) (value : Bool → String → List α) (pieces : List Piece) : List α :=
  pieces.flatMap (fun
    | .literal text => literal text.toList
    | .expression found => value found.isSafe found.expression)

def spelled {α : Type} (literal : List Char → List α) (value : Bool → String → List α) (segments : List Segment) :
    List α :=
  segments.flatMap (fun
    | .inl run => literal run
    | .inr (isSafe, expression) => value isSafe (String.ofList expression))

lemma le_of_placedFirst {text : List Char} : ∀ {segments : List Segment} {before : List Char} {s : Sequence},
    placedFirst text before segments s = true → ∀ i ∈ (place segments s).2.1,
      ∃ pre post, Text.cut? i.placeholder.toList text = some (pre, post) ∧ before.length ≤ pre.length
  | [], _, _, _, i, hi => by simp [place] at hi
  | .inl run :: rest, before, s, h, i, hi => by
    have hrest : placedFirst text (before ++ run) rest s = true := h
    obtain ⟨pre, post, hcut, hle⟩ := le_of_placedFirst hrest i hi
    rw [length_append] at hle
    exact ⟨pre, post, hcut, by omega⟩
  | .inr (isSafe, expression) :: rest, before, s, h, i, hi => by
    simp only [placedFirst, Bool.and_eq_true, beq_iff_eq, Option.map_eq_some_iff] at h
    obtain ⟨⟨⟨pre, post⟩, hcut, rfl⟩, hrest⟩ := h
    rcases mem_cons.1 hi with rfl | hi
    · exact ⟨pre, post, hcut, Nat.le_refl _⟩
    · obtain ⟨pre', post', hcut', hle⟩ := le_of_placedFirst hrest i hi
      rw [length_append] at hle
      exact ⟨pre', post', hcut', by omega⟩

lemma nodup_of_placedFirst {text : List Char} : ∀ {segments : List Segment} {before : List Char} {s : Sequence},
    placedFirst text before segments s = true → ((place segments s).2.1.map (·.placeholder)).Nodup
  | [], _, _, _ => by simp [place]
  | .inl run :: rest, before, s, h => by
    have hrest : placedFirst text (before ++ run) rest s = true := h
    have hnodup := nodup_of_placedFirst hrest
    exact hnodup
  | .inr (isSafe, expression) :: rest, before, s, h => by
    simp only [placedFirst, Bool.and_eq_true, beq_iff_eq, Option.map_eq_some_iff] at h
    obtain ⟨⟨⟨pre, post⟩, hcut, rfl⟩, hrest⟩ := h
    rw [place_inr, map_cons, nodup_cons]
    refine ⟨fun hmem => ?_, nodup_of_placedFirst hrest⟩
    obtain ⟨i, hi, heq⟩ := mem_map.1 hmem
    obtain ⟨pre', post', hcut', hle⟩ := le_of_placedFirst hrest i hi
    rw [heq, hcut] at hcut'
    cases hcut'
    have := length_pos_iff.2 (Sequence.placeholder_ne_nil s)
    rw [length_append] at hle
    simp only at hle
    omega

lemma foldl_distinct : ∀ (found kept : List Interpolation), ((kept ++ found).map (·.placeholder)).Nodup →
    found.foldl enter kept = kept ++ found
  | [], kept, _ => by simp
  | i :: found, kept, h => by
    have hnew : kept.any (fun k => k.placeholder == i.placeholder) = false := by
      rw [any_eq_false]
      intro k hk heq
      rw [map_append, nodup_append] at h
      exact h.2.2 k.placeholder (mem_map_of_mem hk) i.placeholder (by simp) (by simpa using heq)
    rw [foldl_cons, enter, hnew, if_neg (by simp), foldl_distinct found (kept ++ [i]) (by simpa using h)]
    simp

lemma distinct_eq {found : List Interpolation} (h : (found.map (·.placeholder)).Nodup) : distinct found = found :=
  foldl_distinct found [] h

/-! ## Cutting at the placeholders -/

section

variable {α : Type} {literal : List Char → List α} {value : Bool → String → List α}

lemma joined_cut_markFull (text : List Char) (found : List Interpolation) (rest : List Char) :
    joined literal value (Scan.cut (markFull text found) rest) = joined literal value (Scan.cut found rest) := by
  unfold markFull
  split
  · simp only [Scan.cut]
    split
    · simp [joined]
    · rfl
  · rfl

lemma joined_literal (hnil : literal [] = []) (run : List Char) (pieces : List Piece) :
    joined literal value ((if run.isEmpty then [] else [.literal (String.ofList run)]) ++ pieces) =
      literal run ++ joined literal value pieces := by
  cases run with
  | nil => simp [hnil]
  | cons c run => simp [joined]

lemma joined_cut (hnil : literal [] = []) (happend : ∀ a b, literal (a ++ b) = literal a ++ literal b)
    (text : List Char) : ∀ (segments : List Segment) (done run : List Char) (s : Sequence),
      text = done ++ (run ++ (place segments s).1) → placedFirst text (done ++ run) segments s = true →
      joined literal value (Scan.cut (place segments s).2.1 (run ++ (place segments s).1)) =
        literal run ++ spelled literal value segments
  | [], _, run, s, _, _ => by
    have : joined literal value ((if run.isEmpty then [] else [.literal (String.ofList run)]) ++ []) = _ :=
      joined_literal hnil run []
    simpa [place, Scan.cut, spelled, joined] using this
  | .inl more :: rest, done, run, s, htext, h => by
    have hplace : place (.inl more :: rest) s = (more ++ (place rest s).1, (place rest s).2) := rfl
    rw [hplace] at htext ⊢
    rw [placedFirst, append_assoc] at h
    simp only [← append_assoc run more] at htext ⊢
    rw [joined_cut hnil happend text rest done (run ++ more) s htext h, happend, append_assoc]
    rfl
  | .inr (isSafe, expression) :: rest, done, run, s, htext, h => by
    rw [place_inr] at htext ⊢
    simp only [placedFirst, Bool.and_eq_true, beq_iff_eq, Option.map_eq_some_iff] at h
    obtain ⟨⟨⟨pre, post⟩, hcut, hpre⟩, hrest⟩ := h
    have hfirst : Text.cut? s.placeholder.1.toList (run ++ (s.placeholder.1.toList ++ (place rest s.placeholder.2).1)) =
        some (run, (place rest s.placeholder.2).1) := by
      refine Text.cut?_of_first (Sequence.placeholder_ne_nil s) (fun pre' post' heq => ?_)
      have := Text.length_le_of_cut? hcut (done ++ pre') post' (by rw [htext, heq, append_assoc])
      simp only at hpre
      rw [hpre, length_append, length_append] at this
      omega
    have htext' : text = (done ++ run ++ s.placeholder.1.toList) ++ ([] ++ (place rest s.placeholder.2).1) := by
      rw [htext]
      simp
    have ih := joined_cut hnil happend text rest (done ++ run ++ s.placeholder.1.toList) [] s.placeholder.2 htext'
      (by simpa using hrest)
    rw [hnil, nil_append, nil_append] at ih
    simp only [Scan.cut, hfirst]
    rw [joined_literal hnil, joined, flatMap_cons]
    change literal run ++ (value isSafe (String.ofList expression) ++ joined literal value _) = _
    rw [ih]
    rfl

end

def isClear (text : String) (s : Sequence) : Bool :=
  placedFirst (place (segmentsOf text) s).1 [] (segmentsOf text) s

lemma spelled_of_not_hasMarkers {α : Type} {literal : List Char → List α} {value : Bool → String → List α}
    (hnil : literal [] = []) (happend : ∀ a b, literal (a ++ b) = literal a ++ literal b)
    (h : hasMarkers text = false) : spelled literal value (segmentsOf text) = literal text.toList := by
  have hchars : ∀ cs : List Char, spelled literal value (cs.map (fun c => .inl [c])) = literal cs := by
    intro cs
    induction cs with
    | nil => simp [spelled, hnil]
    | cons c cs ih =>
      change literal [c] ++ spelled literal value _ = _
      rw [ih, ← happend]
      rfl
  rw [(segmented_segmentsOf text).eq_map h, hchars]

lemma joined_parts {α : Type} {literal : List Char → List α} {value : Bool → String → List α}
    (hnil : literal [] = []) (happend : ∀ a b, literal (a ++ b) = literal a ++ literal b)
    (h : isClear text s = true) :
    joined literal value (scan text s).1.parts = spelled literal value (segmentsOf text) := by
  unfold scan
  split
  · simp only [Scan.parts, String.toList_ofList, joined_cut_markFull]
    change joined literal value (Scan.cut (distinct (place (segmentsOf text) s).2.1) (place (segmentsOf text) s).1) = _
    rw [distinct_eq (nodup_of_placedFirst h)]
    refine (joined_cut hnil happend _ (segmentsOf text) [] [] s rfl h).trans ?_
    rw [hnil, nil_append]
  · rename_i hmarkers
    rw [spelled_of_not_hasMarkers hnil happend (by simpa using hmarkers)]
    simp [Scan.parts, joined]

def after (s : Sequence) (texts : List String) : Sequence := texts.foldl (fun s text => (scan text s).2) s

def areClear (s : Sequence) : List String → Bool
  | [] => true
  | text :: texts => isClear text s && areClear (scan text s).2 texts

lemma after_append (s : Sequence) (a b : List String) : after s (a ++ b) = after (after s a) b := foldl_append

lemma areClear_append : ∀ (a b : List String) (s : Sequence),
    areClear s (a ++ b) = true ↔ areClear s a = true ∧ areClear (after s a) b = true
  | [], b, s => by simp [areClear, after]
  | text :: a, b, s => by
    rw [cons_append, areClear, areClear, Bool.and_eq_true, Bool.and_eq_true, areClear_append a b, and_assoc]
    rfl

lemma scan_of_not_hasMarkers (h : hasMarkers text = false) (s : Sequence) : (scan text s).2 = s := by
  rw [scan, if_neg (by simp [h])]

end Interpolation
end ReactiveTemplate
