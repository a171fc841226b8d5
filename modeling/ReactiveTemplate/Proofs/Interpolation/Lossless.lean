import ReactiveTemplate.Proofs.Interpolation.Cutting
/-!
# Lossless — a text, what a scan makes of it, and its parts

A text with interpolations is a list of cells, each a literal and the interpolation behind it, and a last literal.
-/
set_option linter.all false

namespace ReactiveTemplate
open List

variable {needle : List Char}

/-! ## Occurrences -/

namespace Text

def occurrences (needle : List Char) : List Char → Nat
  | [] => if needle.isEmpty then 1 else 0
  | c :: cs => (if needle.isPrefixOf (c :: cs) then 1 else 0) + occurrences needle cs

lemma occurrences_append (hne : needle ≠ []) (post : List Char) :
    occurrences needle (needle ++ post) = 1 + occurrences needle (needle.tail ++ post) := by
  obtain ⟨c, cs, rfl⟩ := exists_cons_of_ne_nil hne
  have hprefix : (c :: cs).isPrefixOf (c :: (cs ++ post)) = true := by
    rw [List.isPrefixOf_iff_prefix]
    exact prefix_append _ _
  rw [cons_append, occurrences, if_pos hprefix]
  rfl

lemma occurrences_pos (hne : needle ≠ []) (post : List Char) :
    ∀ pre, 0 < occurrences needle (pre ++ (needle ++ post))
  | [] => by
    rw [nil_append, occurrences_append hne]
    omega
  | c :: pre => by
    have := occurrences_pos hne post pre
    rw [cons_append, occurrences]
    omega

lemma eq_of_occurrences {post post' : List Char} (hne : needle ≠ []) : ∀ {cs pre pre' : List Char},
    occurrences needle cs = 1 → cs = pre ++ (needle ++ post) → cs = pre' ++ (needle ++ post') → pre = pre' := by
  -- an occurrence at the start and one behind it would be two
  have hstart : ∀ {c : Char} {pre cs : List Char} {post post' : List Char}, occurrences needle cs = 1 →
      cs = needle ++ post → cs = c :: pre ++ (needle ++ post') → False := by
    intro c pre cs post post' h hnow hlater
    have htail : needle.tail ++ post = pre ++ (needle ++ post') := by
      have := congrArg tail (hnow.symm.trans hlater)
      rwa [tail_append_of_ne_nil hne] at this
    have hpos := occurrences_pos hne post' pre
    rw [hnow, occurrences_append hne, htail] at h
    omega
  intro cs pre
  induction pre generalizing cs with
  | nil =>
    intro pre' h hnow hlater
    cases pre' with
    | nil => rfl
    | cons c pre' => exact (hstart h hnow hlater).elim
  | cons c pre ih =>
    intro pre' h hlater hlater'
    cases pre' with
    | nil => exact (hstart h hlater' hlater).elim
    | cons d pre' =>
      subst hlater
      rw [cons_append, cons_append, cons.injEq] at hlater'
      obtain ⟨rfl, hrest⟩ := hlater'
      rw [cons_append, occurrences] at h
      have hpos := occurrences_pos hne post pre
      exact congrArg (c :: ·) (ih (by omega) rfl hrest)

end Text

def Sequence.placeholders (s : Sequence) : Nat → List String
  | 0 => []
  | n + 1 => s.placeholder.1 :: s.placeholder.2.placeholders n

lemma Sequence.ne_nil_of_mem_placeholders {p : String} : ∀ {n : Nat} (s : Sequence), p ∈ s.placeholders n → p.toList ≠ []
  | 0, _, h => nomatch h
  | _ + 1, s, h => by
    rcases mem_cons.1 h with rfl | h
    · exact s.placeholder_ne_nil
    · exact ne_nil_of_mem_placeholders s.placeholder.2 h

def Piece.ofRun (run : List Char) : List Piece := if run.isEmpty then [] else [.literal (String.ofList run)]

namespace Interpolation

/-! ## Reading -/

def Segment.source : Segment → List Char
  | .inl run => run
  | .inr (isSafe, expression) => (if isSafe then '$' else '#') :: '\x7b' :: (expression ++ ['\x7d'])

lemma append_of_readExpression (mode : Mode) (depth : Nat) (acc cs : List Char) :
    acc.reverse ++ cs = (readExpression mode depth acc cs).1 ++ '\x7d' :: (readExpression mode depth acc cs).2 ∨
      acc.reverse ++ cs = (readExpression mode depth acc cs).1 ∧ (readExpression mode depth acc cs).2 = [] := by
  fun_induction readExpression mode depth acc cs with
  | case1 => exact .inr ⟨append_nil _, rfl⟩
  | case8 acc cs _ _ => exact .inl rfl
  | case2 | case3 | case4 | case5 | case6 | case7 | case9 | case10 =>
    rename_i ih
    simpa using ih

lemma Segmented.append_source {cs : List Char} {a : List Segment} (h : Segmented cs a) :
    cs = a.flatMap Segment.source ∨ cs ++ ['\x7d'] = a.flatMap Segment.source ∧ ∃ b found, a = b ++ [.inr found] := by
  induction h with
  | nil => exact .inl rfl
  | @char c cs a _ _ ih =>
    rcases ih with hspelled | ⟨hspelled, b, found, rfl⟩
    · exact .inl (congrArg (c :: ·) hspelled)
    · exact .inr ⟨congrArg (c :: ·) hspelled, .inl [c] :: b, found, rfl⟩
  | @marker cs a isSafe h ih =>
    have hread := append_of_readExpression .code 0 [] cs
    generalize readExpression .code 0 [] cs = read at hread ih h ⊢
    obtain ⟨expression, rest⟩ := read
    rw [flatMap_cons]
    rcases hread with rfl | ⟨rfl, rfl⟩
    · rcases ih with hspelled | ⟨hspelled, b, found, rfl⟩
      · rw [← hspelled]
        exact .inl (by simp [Segment.source, sign])
      · rw [← hspelled]
        exact .inr ⟨by simp [Segment.source, sign], .inr (isSafe, expression) :: b, found, rfl⟩
    · cases h
      exact .inr ⟨by simp [Segment.source, sign], [], _, rfl⟩

/-- An interpolation of a text, with the literal in front of it. -/
structure Cell where
  literal : List Char
  found : Interpolation
  deriving Repr, DecidableEq

namespace Cell

def source (x : Cell) : List Char :=
  x.literal ++ (if x.found.isSafe then '$' else '#') :: '\x7b' :: (x.found.expression.toList ++ ['\x7d'])

def rewritten (x : Cell) : List Char := x.literal ++ x.found.placeholder.toList

def pieces (x : Cell) : List Piece := Piece.ofRun x.literal ++ [.expression x.found]

end Cell

/-! ## Cells -/

/-- The cells of segments and the literal behind them; `run` is a literal that goes on with them. -/
def cells (run : List Char) : List Segment → Sequence → List Cell × List Char
  | [], _ => ([], run)
  | .inl more :: rest, s => cells (run ++ more) rest s
  | .inr (isSafe, expression) :: rest, s =>
    (⟨run, s.placeholder.1, String.ofList expression, isSafe, false⟩ :: (cells [] rest s.placeholder.2).1,
      (cells [] rest s.placeholder.2).2)

lemma source_cells : ∀ (a : List Segment) (run : List Char) (s : Sequence),
    (cells run a s).1.flatMap Cell.source ++ (cells run a s).2 = run ++ a.flatMap Segment.source
  | [], run, _ => by simp [cells]
  | .inl more :: rest, run, s => by
    rw [cells, source_cells rest (run ++ more) s, append_assoc]
    rfl
  | .inr (isSafe, expression) :: rest, run, s => by
    have ih := source_cells rest [] s.placeholder.2
    simp only [cells, flatMap_cons, append_assoc, ih]
    simp [Cell.source, Segment.source]

lemma rewritten_cells : ∀ (a : List Segment) (run : List Char) (s : Sequence),
    (cells run a s).1.flatMap Cell.rewritten ++ (cells run a s).2 = run ++ (place a s).1
  | [], run, _ => by simp [cells, place]
  | .inl more :: rest, run, s => by
    rw [cells, rewritten_cells rest (run ++ more) s, append_assoc]
    rfl
  | .inr (isSafe, expression) :: rest, run, s => by
    have ih := rewritten_cells rest [] s.placeholder.2
    simp only [cells, flatMap_cons, append_assoc, ih, place_inr]
    simp [Cell.rewritten]

lemma found_cells : ∀ (a : List Segment) (run : List Char) (s : Sequence),
    (cells run a s).1.map (·.found) = (place a s).2.1
  | [], _, _ => rfl
  | .inl more :: rest, run, s => found_cells rest (run ++ more) s
  | .inr (isSafe, expression) :: rest, run, s => by
    rw [cells, place_inr, map_cons, found_cells rest [] s.placeholder.2]

lemma cells_concat : ∀ (a : List Segment) (found : Bool × List Char) (run : List Char) (s : Sequence),
    (cells run (a ++ [.inr found]) s).2 = []
  | [], _, _, _ => rfl
  | .inl more :: a, found, run, s => cells_concat a found (run ++ more) s
  | .inr _ :: a, found, _, s => cells_concat a found [] s.placeholder.2

lemma placeholders_place : ∀ (a : List Segment) (s : Sequence),
    (place a s).2.1.map (·.placeholder) = s.placeholders (place a s).2.1.length ∧
      (place a s).2.2.counter = s.counter + (place a s).2.1.length
  | [], _ => ⟨rfl, rfl⟩
  | .inl _ :: rest, s => placeholders_place rest s
  | .inr (isSafe, expression) :: rest, s => by
    obtain ⟨hnext, hcounter⟩ := placeholders_place rest s.placeholder.2
    rw [place_inr]
    refine ⟨?_, ?_⟩
    · rw [map_cons, hnext]
      rfl
    · have hdrawn : s.placeholder.2.counter = s.counter + 1 := rfl
      simp only [length_cons]
      omega

/-! ## Placeholders that occur once -/

section

variable {text : List Char} {last : List Char}

lemma nodup_of_occurrences : ∀ {xs : List Cell} {done : List Char},
    text = done ++ (xs.flatMap Cell.rewritten ++ last) → (∀ x ∈ xs, x.found.placeholder.toList ≠ []) →
    (∀ x ∈ xs, Text.occurrences x.found.placeholder.toList text = 1) → (xs.map (·.found.placeholder)).Nodup
  | [], _, _, _, _ => nodup_nil
  | x :: xs, done, htext, hne, honce => by
    have hrest : text = (done ++ x.rewritten) ++ (xs.flatMap Cell.rewritten ++ last) := by
      rw [htext]
      simp
    rw [map_cons, nodup_cons]
    refine ⟨fun hmem => ?_, nodup_of_occurrences hrest (fun y hy => hne y (.tail _ hy))
      (fun y hy => honce y (.tail _ hy))⟩
    obtain ⟨y, hy, hsame⟩ := mem_map.1 hmem
    obtain ⟨between, behind, rfl⟩ := append_of_mem hy
    have hx : text = (done ++ x.literal) ++ (x.found.placeholder.toList ++
        ((between ++ y :: behind).flatMap Cell.rewritten ++ last)) := by
      rw [hrest]
      simp [Cell.rewritten]
    have hy : text = (done ++ x.rewritten ++ between.flatMap Cell.rewritten ++ y.literal) ++
        (x.found.placeholder.toList ++ (behind.flatMap Cell.rewritten ++ last)) := by
      rw [hrest, ← hsame]
      simp [Cell.rewritten]
    have hplace := congrArg length
      (Text.eq_of_occurrences (hne x (.head _)) (honce x (.head _)) hx hy)
    have hpos := length_pos_iff.2 (hne x (.head _))
    simp only [length_append, Cell.rewritten] at hplace
    omega

lemma cut_cells : ∀ {xs : List Cell} {done : List Char},
    text = done ++ (xs.flatMap Cell.rewritten ++ last) → (∀ x ∈ xs, x.found.placeholder.toList ≠ []) →
    (∀ x ∈ xs, Text.occurrences x.found.placeholder.toList text = 1) →
    Scan.cut (xs.map (·.found)) (xs.flatMap Cell.rewritten ++ last) = xs.flatMap Cell.pieces ++ Piece.ofRun last
  | [], _, _, _, _ => rfl
  | x :: xs, done, htext, hne, honce => by
    have hx : (x :: xs).flatMap Cell.rewritten ++ last =
        x.literal ++ (x.found.placeholder.toList ++ (xs.flatMap Cell.rewritten ++ last)) := by
      simp [Cell.rewritten]
    have hfirst : Text.cut? x.found.placeholder.toList
        (x.literal ++ (x.found.placeholder.toList ++ (xs.flatMap Cell.rewritten ++ last))) =
          some (x.literal, xs.flatMap Cell.rewritten ++ last) := by
      refine Text.cut?_of_first (hne x (.head _)) (fun pre post heq => ?_)
      have hhere : text = (done ++ x.literal) ++ (x.found.placeholder.toList ++ (xs.flatMap Cell.rewritten ++ last)) := by
        rw [htext, hx, append_assoc]
      have hahead : text = (done ++ pre) ++ (x.found.placeholder.toList ++ post) := by
        rw [htext, hx, heq, append_assoc]
      have hplace := congrArg length
        (Text.eq_of_occurrences (hne x (.head _)) (honce x (.head _)) hhere hahead)
      simp only [length_append] at hplace
      omega
    have hrest : text = (done ++ x.rewritten) ++ (xs.flatMap Cell.rewritten ++ last) := by
      rw [htext]
      simp
    rw [hx, map_cons, Scan.cut, hfirst]
    simp only
    rw [cut_cells hrest (fun y hy => hne y (mem_cons_of_mem _ hy)) (fun y hy => honce y (mem_cons_of_mem _ hy)),
      flatMap_cons, Cell.pieces, append_assoc, append_assoc]
    rfl

end

lemma exists_marked (text : List Char) : ∀ xs : List Cell, ∃ ys : List Cell,
    ys.map (·.found) = markFull text (xs.map (·.found)) ∧ ys.map Cell.source = xs.map Cell.source ∧
      ys.map Cell.rewritten = xs.map Cell.rewritten ∧ ys.map (·.found.placeholder) = xs.map (·.found.placeholder)
  | [] => ⟨[], rfl, rfl, rfl, rfl⟩
  | [x] => ⟨[⟨x.literal, _⟩], rfl, rfl, rfl, rfl⟩
  | x :: y :: xs => ⟨x :: y :: xs, rfl, rfl, rfl, rfl⟩

/-! ## Scans -/

variable {text : String} {s : Sequence}

lemma scan_of_hasMarkers (h : hasMarkers text = true) :
    scan text s = (⟨String.ofList (place (segmentsOf text) s).1,
      some (markFull (place (segmentsOf text) s).1 (distinct (place (segmentsOf text) s).2.1))⟩,
      (place (segmentsOf text) s).2.2) := by
  rw [scan, if_pos h]
  rfl

lemma source_segmentsOf (text : String) (s : Sequence) :
    text.toList = (cells [] (segmentsOf text) s).1.flatMap Cell.source ++ (cells [] (segmentsOf text) s).2 ∨
      (cells [] (segmentsOf text) s).2 = [] ∧
        text.toList ++ ['\x7d'] = (cells [] (segmentsOf text) s).1.flatMap Cell.source := by
  have hcells := source_cells (segmentsOf text) [] s
  rw [nil_append] at hcells
  rcases (segmented_segmentsOf text).append_source with hspelled | ⟨hspelled, a, found, hlast⟩
  · exact .inl (hspelled.trans hcells.symm)
  · have hnil : (cells [] (segmentsOf text) s).2 = [] := by
      rw [hlast]
      exact cells_concat a found [] s
    rw [hnil, append_nil] at hcells
    exact .inr ⟨hnil, hspelled.trans hcells.symm⟩

lemma hasMarkersIn_of_rewritten {xs : List Cell} {last : List Char}
    (h : (place (segmentsOf text) s).1 = xs.flatMap Cell.rewritten ++ last) :
    (∀ x ∈ xs, hasMarkersIn x.literal = false) ∧ hasMarkersIn last = false := by
  have hnone := (segmented_segmentsOf text).hasMarkersIn_place s
  rw [h] at hnone
  refine ⟨fun x hx => hasMarkersIn_of_infix ?_ hnone, hasMarkersIn_of_infix (suffix_append _ _).isInfix hnone⟩
  obtain ⟨before, behind, rfl⟩ := append_of_mem hx
  exact ⟨before.flatMap Cell.rewritten, x.found.placeholder.toList ++ (behind.flatMap Cell.rewritten ++ last),
    by simp [Cell.rewritten]⟩

/-- **A scan is lossless, and its parts undo it.**  A text with markers is cut into cells and a last literal, all literals
free of markers; the text is what the cells are read from, where only the last interpolation may lack its brace, and then
nothing follows it.  The scan writes the next placeholders of the sequence for the interpolations; if each of them occurs
once, which is where it was written, the parts are the literals and the interpolations of the cells in order. -/
theorem scan_lossless (hmarkers : hasMarkers text = true)
    (honce : ∀ p ∈ s.placeholders ((scan text s).2.counter - s.counter),
      Text.occurrences p.toList (scan text s).1.text.toList = 1) :
    ∃ (xs : List Cell) (last : List Char),
      (∀ x ∈ xs, hasMarkersIn x.literal = false) ∧ hasMarkersIn last = false ∧
      (text.toList = xs.flatMap Cell.source ++ last ∨
        last = [] ∧ text.toList ++ ['\x7d'] = xs.flatMap Cell.source) ∧
      (scan text s).1.text.toList = xs.flatMap Cell.rewritten ++ last ∧
      xs.map (·.found.placeholder) = s.placeholders xs.length ∧
      (scan text s).1.interpolations = some (xs.map (·.found)) ∧
      (scan text s).1.parts = xs.flatMap Cell.pieces ++ Piece.ofRun last := by
  have hsource := source_segmentsOf text s
  have hwritten := rewritten_cells (segmentsOf text) [] s
  have hplaced := found_cells (segmentsOf text) [] s
  obtain ⟨hnext, hcounter⟩ := placeholders_place (segmentsOf text) s
  generalize cells [] (segmentsOf text) s = found at hsource hwritten hplaced
  obtain ⟨xs, last⟩ := found
  obtain ⟨ys, hfound, hsame, hrewritten, hnames⟩ := exists_marked (place (segmentsOf text) s).1 xs
  have hlength : ys.length = xs.length := by simpa using congrArg List.length hsame
  simp only [nil_append, flatMap_def, ← hsame, ← hrewritten] at hsource hwritten
  simp only [← flatMap_def] at hsource hwritten
  simp only [← hplaced, map_map, length_map, ← hlength] at hnext hcounter
  have hdrawn : ys.map (·.found.placeholder) = s.placeholders ys.length := hnames.trans hnext
  -- each placeholder of a cell was drawn by the scan
  rw [scan_of_hasMarkers hmarkers] at honce ⊢
  simp only [hcounter, String.toList_ofList, Nat.add_sub_cancel_left] at honce
  have hmem : ∀ y ∈ ys, y.found.placeholder ∈ s.placeholders ys.length := by
    intro y hy
    rw [← hdrawn]
    exact mem_map_of_mem hy
  have hne : ∀ y ∈ ys, y.found.placeholder.toList ≠ [] := fun y hy => s.ne_nil_of_mem_placeholders (hmem y hy)
  have htext : (place (segmentsOf text) s).1 = [] ++ (ys.flatMap Cell.rewritten ++ last) := hwritten.symm
  have honce' : ∀ y ∈ ys, Text.occurrences y.found.placeholder.toList (place (segmentsOf text) s).1 = 1 :=
    fun y hy => honce _ (hmem y hy)
  have hkept : markFull (place (segmentsOf text) s).1 (distinct (place (segmentsOf text) s).2.1) = ys.map (·.found) := by
    have hnodup : ((xs.map (·.found)).map (·.placeholder)).Nodup := by
      rw [map_map]
      exact hnames ▸ nodup_of_occurrences htext hne honce'
    rw [← hplaced, distinct_eq hnodup, hfound]
  obtain ⟨hliterals, hlast⟩ := hasMarkersIn_of_rewritten htext
  refine ⟨ys, last, hliterals, hlast, hsource, ?_, hdrawn, congrArg some hkept, ?_⟩
  · rw [String.toList_ofList, ← hwritten]
  · rw [Scan.parts, hkept]
    simp only [String.toList_ofList]
    rw [htext]
    exact cut_cells htext hne honce'

theorem scan_lossless_unclosed :
    hasMarkers "a$\x7bb\x7d-#\x7b '\x7d' $\x7bc" = true ∧
    (∀ p ∈ (Sequence.new "s").placeholders 2,
      Text.occurrences p.toList (scan "a$\x7bb\x7d-#\x7b '\x7d' $\x7bc" (Sequence.new "s")).1.text.toList = 1) ∧
    ∃ (xs : List Cell) (last : List Char),
      (∀ x ∈ xs, hasMarkersIn x.literal = false) ∧ hasMarkersIn last = false ∧
      ("a$\x7bb\x7d-#\x7b '\x7d' $\x7bc".toList = xs.flatMap Cell.source ++ last ∨
        last = [] ∧ "a$\x7bb\x7d-#\x7b '\x7d' $\x7bc\x7d".toList = xs.flatMap Cell.source) ∧
      (scan "a$\x7bb\x7d-#\x7b '\x7d' $\x7bc" (Sequence.new "s")).1.text.toList = xs.flatMap Cell.rewritten ++ last ∧
      xs.map (·.found.placeholder) = (Sequence.new "s").placeholders xs.length ∧
      (scan "a$\x7bb\x7d-#\x7b '\x7d' $\x7bc" (Sequence.new "s")).1.interpolations = some (xs.map (·.found)) ∧
      (scan "a$\x7bb\x7d-#\x7b '\x7d' $\x7bc" (Sequence.new "s")).1.parts =
        xs.flatMap Cell.pieces ++ Piece.ofRun last :=
  ⟨by decide, by decide +kernel, scan_lossless (by decide) (by decide +kernel)⟩

end Interpolation
end ReactiveTemplate
