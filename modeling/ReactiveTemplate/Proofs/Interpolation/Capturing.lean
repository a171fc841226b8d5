import ReactiveTemplate.Proofs.Interpolation.Lossless
/-!
# Capturing — expressions that close where they should

An expression is well nested if its string literals are closed and its braces balanced outside of them (`IsNested`).
-/
set_option linter.all false

namespace ReactiveTemplate
open List
namespace Interpolation

variable {e : List Char}

/-! ## Well-nested expressions -/

def isQuote (c : Char) : Bool := c == '"' || c == '\'' || c == '\x60'

/-- What may stand between two quotes; a backslash takes the character behind it. -/
inductive IsQuoted (quote : Char) : List Char → Prop
  | nil : IsQuoted quote []
  | plain {c : Char} {cs : List Char} : c ≠ quote → c ≠ '\\' → IsQuoted quote cs → IsQuoted quote (c :: cs)
  | escape {c : Char} {cs : List Char} : IsQuoted quote cs → IsQuoted quote ('\\' :: c :: cs)

/-- Plain characters, closed string literals and balanced groups in braces. -/
inductive IsNested : List Char → Prop
  | nil : IsNested []
  | plain {c : Char} {cs : List Char} : isQuote c = false → c ≠ '\x7b' → c ≠ '\x7d' → IsNested cs → IsNested (c :: cs)
  | quoted {quote : Char} {body cs : List Char} : isQuote quote = true → IsQuoted quote body → IsNested cs →
      IsNested (quote :: (body ++ quote :: cs))
  | group {inner cs : List Char} : IsNested inner → IsNested cs → IsNested ('\x7b' :: (inner ++ '\x7d' :: cs))

section

variable {depth : Nat} {acc rest : List Char} {c : Char}

lemma readExpression_quote (h : isQuote c = true) :
    readExpression .code depth acc (c :: rest) = readExpression (.quoted c) depth (c :: acc) rest := by
  rw [readExpression.eq_def]
  exact if_pos (by simpa [isQuote] using h)

lemma readExpression_plain (hquote : isQuote c = false) (hopen : c ≠ '\x7b') (hclose : c ≠ '\x7d') :
    readExpression .code depth acc (c :: rest) = readExpression .code depth (c :: acc) rest := by
  have hquote' : ¬ (c = '"' || c = '\'' || c = '\x60') = true := by simpa [isQuote] using hquote
  rw [readExpression.eq_def]
  simp only [if_neg hquote', if_neg hopen, if_neg hclose]

lemma readExpression_open (h : acc ≠ []) :
    readExpression .code depth acc ('\x7b' :: rest) = readExpression .code (depth + 1) ('\x7b' :: acc) rest := by
  simp [readExpression, h]

lemma readExpression_quoted {quote : Char} {body : List Char} (hquote : isQuote quote = true)
    (h : IsQuoted quote body) : readExpression (.quoted quote) depth acc (body ++ quote :: rest) =
      readExpression .code depth (quote :: (body.reverse ++ acc)) rest := by
  induction h generalizing acc with
  | nil =>
    have hbackslash : quote ≠ '\\' := by
      rintro rfl
      cases hquote
    rw [nil_append, readExpression, if_neg hbackslash, if_pos rfl]
    rfl
  | plain hne hbackslash _ ih =>
    rw [cons_append, readExpression, if_neg hbackslash, if_neg hne, ih]
    simp
  | escape _ ih =>
    rw [cons_append, cons_append, readExpression, readExpression, ih]
    simp

/-- The brace that an expression starts with is not counted, so only an expression without one is read to its end. -/
lemma readExpression_nested (h : IsNested e) (hstart : acc ≠ [] ∨ e.head? ≠ some '\x7b') :
    readExpression .code depth acc (e ++ rest) = readExpression .code depth (e.reverse ++ acc) rest := by
  induction h generalizing acc depth rest with
  | nil => rfl
  | plain hquote hopen hclose _ ih =>
    rw [cons_append, readExpression_plain hquote hopen hclose, ih (.inl (cons_ne_nil _ _))]
    simp
  | quoted hquote hbody _ ih =>
    rw [cons_append, append_assoc, cons_append, readExpression_quote hquote,
      readExpression_quoted hquote hbody, ih (.inl (cons_ne_nil _ _))]
    simp
  | @group inner cs _ _ ihinner ih =>
    have hacc : acc ≠ [] := hstart.resolve_right (by simp)
    have hclose : ∀ acc rest, readExpression .code (depth + 1) acc ('\x7d' :: rest) =
        readExpression .code depth ('\x7d' :: acc) rest := fun _ _ => by simp [readExpression]
    rw [cons_append, append_assoc, cons_append, readExpression_open hacc,
      ihinner (.inl (cons_ne_nil _ _)), hclose, ih (.inl (cons_ne_nil _ _))]
    simp

lemma readExpression_captured (h : IsNested e) (hstart : e.head? ≠ some '\x7b') :
    readExpression .code 0 [] (e ++ '\x7d' :: rest) = (e, rest) := by
  rw [readExpression_nested h (.inr hstart)]
  simp [readExpression]

end

/-! ## Segments -/

lemma Segmented.literal {rest : List Char} {a : List Segment} (h : Segmented rest a) (hrest : rest.head? ≠ some '\x7b') :
    ∀ {l : List Char}, hasMarkersIn l = false → Segmented (l ++ rest) (l.map (fun c => .inl [c]) ++ a)
  | [], _ => h
  | c :: l, hl => by
    rw [hasMarkersIn_cons, Bool.or_eq_false_iff] at hl
    refine .char (fun hsign => ?_) (h.literal hrest hl.2)
    cases l with
    | nil => exact hrest
    | cons d l => simpa [hsign] using hl.1

/-- The segments of a text in which an interpolation stands behind a literal. -/
lemma segmentsOf_captured {l r : List Char} (isSafe : Bool) (hl : hasMarkersIn l = false) (he : IsNested e)
    (hstart : e.head? ≠ some '\x7b') :
    segmentsOf (String.ofList (l ++ sign isSafe :: '\x7b' :: (e ++ '\x7d' :: r))) =
      l.map (fun c => .inl [c]) ++ .inr (isSafe, e) :: segmentsOf (String.ofList r) := by
  have hrest := segmented_segmentsOf (String.ofList r)
  have hread : readExpression .code 0 [] (e ++ '\x7d' :: r) = (e, r) := readExpression_captured he hstart
  have hmarker : Segmented (sign isSafe :: '\x7b' :: (e ++ '\x7d' :: r)) (.inr (isSafe, e) :: segmentsOf (String.ofList r)) := by
    have := @Segmented.marker (e ++ '\x7d' :: r) (segmentsOf (String.ofList r)) isSafe
    rw [hread] at this
    exact this (by rwa [String.toList_ofList] at hrest)
  have hsign : (sign isSafe :: '\x7b' :: (e ++ '\x7d' :: r)).head? ≠ some '\x7b' := by cases isSafe <;> simp [sign]
  have hwhole := segmented_segmentsOf (String.ofList (l ++ sign isSafe :: '\x7b' :: (e ++ '\x7d' :: r)))
  rw [String.toList_ofList] at hwhole
  exact hwhole.unique (hmarker.literal hsign hl)

lemma place_literal (a : List Segment) (s : Sequence) : ∀ l : List Char,
    place (l.map (fun c => .inl [c]) ++ a) s = (l ++ (place a s).1, (place a s).2)
  | [] => rfl
  | c :: l => by
    rw [map_cons, cons_append, place, place_literal a s l]
    rfl

/-! ## One interpolation for each placeholder -/

section

variable {i : Interpolation} {found kept : List Interpolation}

lemma mem_placeholders_foldl {p : String} : p ∈ (found.foldl enter kept).map (·.placeholder) ↔
    p ∈ kept.map (·.placeholder) ∨ p ∈ found.map (·.placeholder) := by
  induction found generalizing kept with
  | nil => simp
  | cons j found ih =>
    rw [foldl_cons, ih, placeholders_enter, map_cons, mem_cons]
    split
    · rename_i hj
      constructor
      · rintro (h | h)
        · exact .inl h
        · exact .inr (.inr h)
      · rintro (h | rfl | h)
        · exact .inl h
        · exact .inl hj
        · exact .inr h
    · rw [mem_append, mem_singleton, or_assoc]

lemma nodup_placeholders_foldl (h : (kept.map (·.placeholder)).Nodup) :
    ((found.foldl enter kept).map (·.placeholder)).Nodup := by
  induction found generalizing kept with
  | nil => exact h
  | cons j found ih =>
    refine ih ?_
    rw [placeholders_enter]
    split
    · exact h
    · rename_i hj
      simpa using List.Nodup.concat hj h

lemma foldl_enter_cons (h : i.placeholder ∉ found.map (·.placeholder)) :
    found.foldl enter (i :: kept) = i :: found.foldl enter kept := by
  induction found generalizing kept with
  | nil => rfl
  | cons j found ih =>
    rw [map_cons, mem_cons, not_or] at h
    have hstep : enter (i :: kept) j = i :: enter kept j := by
      unfold enter
      rw [any_cons, beq_eq_false_iff_ne.2 h.1, Bool.false_or]
      split
      · rw [map_cons, if_neg (by simpa using h.1)]
      · rfl
    rw [foldl_cons, hstep, ih h.2, foldl_cons]

/-- An interpolation is kept in front of the others exactly if its placeholder does not come again. -/
lemma distinct_cons : distinct (i :: found) = i :: distinct found ↔
    i.placeholder ∉ (distinct found).map (·.placeholder) := by
  have hdistinct : ∀ found, distinct found = found.foldl enter [] := fun _ => rfl
  constructor
  · intro h
    have hnodup : ((distinct (i :: found)).map (·.placeholder)).Nodup := nodup_placeholders_foldl nodup_nil
    rw [h, map_cons, nodup_cons] at hnodup
    exact hnodup.1
  · intro h
    rw [hdistinct, mem_placeholders_foldl, not_or] at h
    exact foldl_enter_cons h.2

end

/-! ## Scans -/

/-- An interpolation without the mark that it is all there is in its text. -/
def bare (i : Interpolation) : Interpolation := ⟨i.placeholder, i.expression, i.isSafe, false⟩

lemma map_bare_markFull (text : List Char) (found : List Interpolation) :
    (markFull text found).map bare = found.map bare := by
  unfold markFull
  split <;> rfl

lemma bare_of_mem_place {i : Interpolation} : ∀ (a : List Segment) (s : Sequence), i ∈ (place a s).2.1 → i.bare = i
  | .inl _ :: a, s, h => bare_of_mem_place a s h
  | .inr (isSafe, expression) :: a, s, h => by
    rcases mem_cons.1 h with rfl | h
    · rfl
    · exact bare_of_mem_place a _ h

end Interpolation

def Scan.found (x : Scan) : List Interpolation := (x.interpolations.getD []).map Interpolation.bare

namespace Interpolation

lemma scan_eq_place (text : String) (s : Sequence) :
    (scan text s).1.text = String.ofList (place (segmentsOf text) s).1 ∧
      (scan text s).1.found = distinct (place (segmentsOf text) s).2.1 ∧
      (scan text s).2 = (place (segmentsOf text) s).2.2 := by
  cases hmarkers : hasMarkers text with
  | true =>
    rw [scan_of_hasMarkers hmarkers]
    refine ⟨rfl, ?_, rfl⟩
    rw [Scan.found, Option.getD_some, map_bare_markFull]
    have hbare : ∀ i ∈ distinct (place (segmentsOf text) s).2.1, i.bare = i := fun i hi =>
      bare_of_mem_place _ s (mem_of_mem_distinctOnto _ [] hi)
    exact (map_congr_left hbare).trans (map_id _)
  | false =>
    rw [(segmented_segmentsOf text).eq_map hmarkers, ← append_nil (text.toList.map _), place_literal, scan,
      if_neg (by simp [hmarkers])]
    simp [place, Scan.found, distinct]

/-- **A well-nested expression is read to its end and no further.**  Behind a literal without markers it gives one
placeholder, and what follows is scanned as if it stood alone, with the rest of the sequence.  The interpolation is kept
with its expression exactly if no interpolation behind it draws the same placeholder. -/
theorem scan_captures {l e r : String} (isSafe : Bool) (s : Sequence) (hl : hasMarkers l = false)
    (he : IsNested e.toList) (hstart : e.toList.head? ≠ some '\x7b') :
    let rest := scan r s.placeholder.2
    let whole := scan (l ++ String.ofList [sign isSafe, '\x7b'] ++ e ++ "\x7d" ++ r) s
    whole.1.text = l ++ s.placeholder.1 ++ rest.1.text ∧ whole.2 = rest.2 ∧
      (whole.1.found = ⟨s.placeholder.1, e, isSafe, false⟩ :: rest.1.found ↔
        ∀ j ∈ rest.1.found, j.placeholder ≠ s.placeholder.1) := by
  intro rest whole
  have htext : l ++ String.ofList [sign isSafe, '\x7b'] ++ e ++ "\x7d" ++ r =
      String.ofList (l.toList ++ sign isSafe :: '\x7b' :: (e.toList ++ '\x7d' :: r.toList)) := by
    simp [← String.toList_inj]
  have hplace : place (segmentsOf (l ++ String.ofList [sign isSafe, '\x7b'] ++ e ++ "\x7d" ++ r)) s =
      (l.toList ++ (s.placeholder.1.toList ++ (place (segmentsOf r) s.placeholder.2).1),
        ⟨s.placeholder.1, e, isSafe, false⟩ :: (place (segmentsOf r) s.placeholder.2).2.1,
        (place (segmentsOf r) s.placeholder.2).2.2) := by
    rw [htext, segmentsOf_captured isSafe hl he hstart, place_literal, place_inr, String.ofList_toList,
      String.ofList_toList]
  obtain ⟨hwhole, hfound, hsequence⟩ := scan_eq_place (l ++ String.ofList [sign isSafe, '\x7b'] ++ e ++ "\x7d" ++ r) s
  obtain ⟨hrest, hfound', hsequence'⟩ := scan_eq_place r s.placeholder.2
  rw [hplace] at hwhole hfound hsequence
  refine ⟨?_, hsequence.trans hsequence'.symm, ?_⟩
  · rw [hwhole, hrest]
    simp [← String.toList_inj]
  · rw [hfound, hfound', distinct_cons]
    simp [mem_map]

theorem scan_captures_grouped :
    let e := "f(\x7bk: '\x7d'\x7d)"
    let r := "\x7d$\x7bb\x7d #\x7bc"
    let s := Sequence.new "s"
    hasMarkers "a$" = false ∧ IsNested e.toList ∧ e.toList.head? ≠ some '\x7b' ∧
    let rest := scan r s.placeholder.2
    let whole := scan ("a$" ++ String.ofList [sign false, '\x7b'] ++ e ++ "\x7d" ++ r) s
    whole.1.text = "a$" ++ s.placeholder.1 ++ rest.1.text ∧ whole.2 = rest.2 ∧
      (whole.1.found = ⟨s.placeholder.1, e, false, false⟩ :: rest.1.found ↔
        ∀ j ∈ rest.1.found, j.placeholder ≠ s.placeholder.1) := by
  intro e r s
  have hinner : IsNested ['k', ':', ' ', '\'', '\x7d', '\''] :=
    .plain rfl (by decide) (by decide) <| .plain rfl (by decide) (by decide) <| .plain rfl (by decide) (by decide) <|
      .quoted rfl (.plain (by decide) (by decide) .nil) .nil
  have he : IsNested "f(\x7bk: '\x7d'\x7d)".toList :=
    .plain rfl (by decide) (by decide) <| .plain rfl (by decide) (by decide) <|
      .group hinner (.plain rfl (by decide) (by decide) .nil)
  exact ⟨rfl, he, by decide, scan_captures false s rfl he (by decide)⟩

/-- Two identifiers of one sequence that are equal: the eighth interpolation takes the place of the first. -/
theorem scan_captures_collision :
    let s : Sequence := ⟨"/\x1d\x0bx_:\x10Cb", 2⟩
    let behind := "$\x7bb\x7d$\x7bc\x7d$\x7bd\x7d$\x7be\x7d$\x7bf\x7d$\x7bg\x7d$\x7bh\x7d"
    (scan ("" ++ "$\x7b" ++ "a" ++ "\x7d" ++ behind) s).1.found ≠
      ⟨s.placeholder.1, "a", true, false⟩ :: (scan behind s.placeholder.2).1.found := by
  decide +kernel

end Interpolation
end ReactiveTemplate
