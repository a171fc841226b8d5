import ReactiveTemplate.Proofs.Interpolation.Placeholders
import ReactiveTemplate.Proofs.Markup.Plain
import Mathlib.Data.List.Nodup
/-!
# Cutting — what the pieces of a scanned text hold

The pieces of a scanned text hold no marker outside their interpolations (`hasMarkers_of_literal`).
-/
set_option linter.all false

namespace ReactiveTemplate
open List
open Interpolation

/-! ## Identifiers -/

namespace Digest

lemma isNameChar_base64Digit (n : Nat) : Markup.isNameChar (base64Digit n) = true := by
  have hmod : base64Digit n = base64Digit (n % 64) := by simp [base64Digit]
  have hall : ∀ m < 64, Markup.isNameChar (base64Digit m) = true := by decide
  rw [hmod]
  exact hall _ (Nat.mod_lt n (by decide))

lemma isNameChar_base64Url : ∀ bs : List UInt8, ∀ c ∈ base64Url bs, Markup.isNameChar c = true
  | a :: b :: c :: rest, x, hx => by
    rw [base64Url] at hx
    simp only [mem_cons] at hx
    rcases hx with rfl | rfl | rfl | rfl | hx
    · exact isNameChar_base64Digit _
    · exact isNameChar_base64Digit _
    · exact isNameChar_base64Digit _
    · exact isNameChar_base64Digit _
    · exact isNameChar_base64Url rest x hx
  | [a, b], x, hx => by
    simp only [base64Url, mem_cons, not_mem_nil, or_false] at hx
    rcases hx with rfl | rfl | rfl <;> exact isNameChar_base64Digit _
  | [a], x, hx => by
    simp only [base64Url, mem_cons, not_mem_nil, or_false] at hx
    rcases hx with rfl | rfl <;> exact isNameChar_base64Digit _
  | [], x, hx => by simp [base64Url] at hx

lemma isNameChar_short (content : String) : ∀ c ∈ (short content).toList, Markup.isNameChar c = true := by
  rw [short, String.toList_ofList]
  exact isNameChar_base64Url _

end Digest

lemma Sequence.isNameChar_placeholder (s : Sequence) :
    ∀ c ∈ s.placeholder.1.toList, Markup.isNameChar c = true := by
  intro c hc
  rw [toList_placeholder] at hc
  simp only [mem_cons] at hc
  rcases hc with rfl | rfl | rfl | hc
  · decide
  · decide
  · decide
  · exact Digest.isNameChar_short _ c hc

/-! ## Markers -/

namespace Interpolation

lemma hasMarkersIn_of_infix {part cs : List Char} (h : part <:+: cs) (hcs : hasMarkersIn cs = false) :
    hasMarkersIn part = false := by
  have hsuffix : ∀ pre rest : List Char, hasMarkersIn (pre ++ rest) = false → hasMarkersIn rest = false := by
    intro pre rest
    induction pre with
    | nil => exact id
    | cons c pre ih =>
      intro hall
      rw [cons_append, hasMarkersIn_cons, Bool.or_eq_false_iff] at hall
      exact ih hall.2
  have hprefix : ∀ part rest : List Char, hasMarkersIn (part ++ rest) = false → hasMarkersIn part = false := by
    intro part rest
    induction part with
    | nil => exact fun _ => rfl
    | cons c part ih =>
      intro hall
      rw [cons_append, hasMarkersIn_cons, Bool.or_eq_false_iff] at hall
      rw [hasMarkersIn_cons, ih hall.2, Bool.or_false]
      cases part with
      | nil => simp
      | cons d part => exact hall.1
  obtain ⟨pre, post, rfl⟩ := h
  exact hprefix part post (hsuffix pre (part ++ post) (by rwa [append_assoc] at hcs))

lemma hasMarkersIn_append_left {before : List Char} (h : ∀ c ∈ before, isSign c = false) (cs : List Char) :
    hasMarkersIn (before ++ cs) = hasMarkersIn cs := by
  induction before with
  | nil => rfl
  | cons c before ih =>
    rw [cons_append, hasMarkersIn_cons, h c mem_cons_self, Bool.false_and, Bool.false_or,
      ih (fun d hd => h d (.tail _ hd))]

lemma hasMarkersIn_append_right {behind : List Char} (h : '\x7b' ∉ behind) (cs : List Char) :
    hasMarkersIn (cs ++ behind) = hasMarkersIn cs := by
  have hhead : ∀ l : List Char, '\x7b' ∉ l → (l.head? == some '\x7b') = false := by
    intro l hl
    refine Bool.eq_false_iff.2 (fun hbrace => hl ?_)
    exact mem_of_head? (by simpa using hbrace)
  induction cs with
  | nil =>
    induction behind with
    | nil => rfl
    | cons c behind ih =>
      rw [mem_cons, not_or] at h
      rw [nil_append] at ih ⊢
      rw [hasMarkersIn_cons, ih h.2, hhead behind h.2, Bool.and_false, Bool.false_or]
  | cons c cs ih =>
    rw [cons_append, hasMarkersIn_cons, hasMarkersIn_cons, ih]
    cases cs with
    | nil =>
      rw [nil_append, hhead behind h]
      rfl
    | cons d cs => rfl

lemma isSign_of_isNameChar {c : Char} (h : Markup.isNameChar c = true) : isSign c = false := by
  refine Bool.eq_false_iff.2 (fun hsign => ?_)
  simp only [isSign, Bool.or_eq_true, beq_iff_eq] at hsign
  rcases hsign with rfl | rfl <;> revert h <;> decide

lemma hasMarkersIn_name_append {name : List Char} (hname : ∀ c ∈ name, Markup.isNameChar c = true) (cs : List Char) :
    hasMarkersIn (name ++ cs) = hasMarkersIn cs :=
  hasMarkersIn_append_left (fun c hc => isSign_of_isNameChar (hname c hc)) cs

namespace Segmented

variable {cs : List Char} {a : List Segment}

lemma head?_place (h : Segmented cs a) {s : Sequence} (hhead : (place a s).1.head? = some '\x7b') :
    cs.head? = some '\x7b' := by
  cases h with
  | nil => simp [place] at hhead
  | char => simpa [place] using hhead
  | marker =>
    rw [place_inr, Sequence.toList_placeholder] at hhead
    cases hhead

lemma hasMarkersIn_place (h : Segmented cs a) (s : Sequence) : hasMarkersIn (place a s).1 = false := by
  induction h generalizing s with
  | nil => rfl
  | @char c cs a hc h ih =>
    -- a sign in front of a brace would have been read as a marker
    have hfirst : (isSign c && (place a s).1.head? == some '\x7b') = false := by
      refine Bool.eq_false_iff.2 (fun hboth => ?_)
      rw [Bool.and_eq_true, beq_iff_eq] at hboth
      exact hc hboth.1 (h.head?_place hboth.2)
    show hasMarkersIn (c :: (place a s).1) = false
    rw [hasMarkersIn_cons, hfirst, ih s, Bool.or_false]
  | marker isSafe _ ih =>
    exact (hasMarkersIn_name_append s.isNameChar_placeholder _).trans (ih _)

end Segmented

end Interpolation

variable {text : String} {s : Sequence}

lemma hasMarkers_of_literal {literal : String}
    (h : Piece.literal literal ∈ (scan text s).1.parts) : hasMarkers literal = false := by
  unfold scan at h
  split at h
  · have hpart := Scan.infix_of_mem_cut _ _ literal h
    rw [String.toList_ofList] at hpart
    exact hasMarkersIn_of_infix hpart ((segmented_segmentsOf text).hasMarkersIn_place s)
  · rename_i hmarkers
    simp only [Scan.parts, mem_singleton, Piece.literal.injEq] at h
    rw [h]
    simpa using hmarkers

/-! ## Interpolations in order -/

def Piece.interpolation? : Piece → Option (String × Bool)
  | .literal _ => none
  | .expression found => some (found.expression, found.isSafe)

namespace Interpolation

def Segment.interpolation? : Segment → Option (String × Bool)
  | .inl _ => none
  | .inr (isSafe, expression) => some (String.ofList expression, isSafe)

lemma filterMap_cut_markFull (text : List Char) (found : List Interpolation) (rest : List Char) :
    (Scan.cut (markFull text found) rest).filterMap Piece.interpolation? =
      (Scan.cut found rest).filterMap Piece.interpolation? := by
  unfold markFull
  split
  · simp only [Scan.cut]
    split
    · simp [Piece.interpolation?]
    · rfl
  · rfl

lemma filterMap_literal (run : List Char) (pieces : List Piece) :
    ((if run.isEmpty then [] else [Piece.literal (String.ofList run)]) ++ pieces).filterMap Piece.interpolation? =
      pieces.filterMap Piece.interpolation? := by
  cases run with
  | nil => rfl
  | cons c run => rfl

lemma filterMap_cut : ∀ (a : List Segment) (pre : List Char) (s : Sequence),
    (Scan.cut (place a s).2.1 (pre ++ (place a s).1)).filterMap Piece.interpolation? =
      a.filterMap Segment.interpolation?
  | [], pre, s => by
    have := filterMap_literal pre []
    simpa [place, Scan.cut] using this
  | .inl run :: a, pre, s => by
    have hplace : place (.inl run :: a) s = (run ++ (place a s).1, (place a s).2) := rfl
    rw [hplace]
    simp only [← append_assoc pre run]
    rw [filterMap_cut a (pre ++ run) s]
    rfl
  | .inr (isSafe, expression) :: a, pre, s => by
    rw [place_inr, Scan.cut]
    cases hcut : Text.cut? s.placeholder.1.toList
        (pre ++ (s.placeholder.1.toList ++ (place a s.placeholder.2).1)) with
    | none => exact absurd hcut (Text.cut?_ne_none pre _)
    | some found =>
      obtain ⟨before, after⟩ := found
      have happend := Text.append_of_cut? hcut
      have hle := Text.length_le_of_cut? hcut pre _ rfl
      have hplaced : (place a s.placeholder.2).1 <:+ pre ++ (s.placeholder.1.toList ++ (place a s.placeholder.2).1) := by
        rw [← append_assoc]
        exact suffix_append _ _
      have hafter : after <:+ pre ++ (s.placeholder.1.toList ++ (place a s.placeholder.2).1) := by
        rw [happend, ← append_assoc]
        exact suffix_append _ _
      have hlength : (place a s.placeholder.2).1.length ≤ after.length := by
        have := congrArg length happend
        simp only [length_append] at this
        omega
      obtain ⟨pre', rfl⟩ := suffix_of_suffix_length_le hplaced hafter hlength
      simp only [filterMap_literal]
      rw [filterMap_cons, filterMap_cut a pre' s.placeholder.2]
      rfl

lemma map_placeholder_place : ∀ (a : List Segment) (s : Sequence),
    (place a s).2.1.map (·.placeholder) = (range' s.counter ((place a s).2.2.counter - s.counter)).map
      (fun n => "_i_" ++ s.hashAt n) ∧ s.counter ≤ (place a s).2.2.counter
  | [], s => by simp [place]
  | .inl run :: a, s => map_placeholder_place a s
  | .inr (isSafe, expression) :: a, s => by
    obtain ⟨ih, hle⟩ := map_placeholder_place a s.placeholder.2
    have hcounter : s.placeholder.2.counter = s.counter + 1 := rfl
    rw [hcounter] at ih hle
    have hlength : (place a s.placeholder.2).2.2.counter - s.counter =
        (place a s.placeholder.2).2.2.counter - (s.counter + 1) + 1 := by omega
    rw [place_inr]
    dsimp only
    rw [hlength, range'_succ, map_cons, map_cons, ih]
    exact ⟨rfl, Nat.le_trans (Nat.le_succ _) hle⟩

end Interpolation

lemma isNameChar_of_mem_place {a : List Segment} {found : Interpolation}
    (h : found ∈ (place a s).2.1) : ∀ c ∈ found.placeholder.toList, Markup.isNameChar c = true := by
  have hmem := mem_map_of_mem (f := fun i : Interpolation => i.placeholder) h
  rw [(map_placeholder_place a s).1] at hmem
  obtain ⟨n, -, hn⟩ := mem_map.1 hmem
  rw [← hn]
  exact Sequence.isNameChar_placeholder ⟨s.salt, n⟩

lemma isNameChar_of_expression {found : Interpolation}
    (h : Piece.expression found ∈ (scan text s).1.parts) : ∀ c ∈ found.placeholder.toList, Markup.isNameChar c = true := by
  unfold scan at h
  split at h
  · have hmem := Scan.mem_of_expression_mem_cut _ _ h
    unfold markFull at hmem
    split at hmem
    · rename_i i hone
      have hi : i ∈ distinct _ := hone ▸ mem_singleton_self i
      have hchars := isNameChar_of_mem_place (mem_of_mem_distinctOnto _ [] hi)
      rw [mem_singleton.1 hmem]
      exact hchars
    · exact isNameChar_of_mem_place (mem_of_mem_distinctOnto _ [] hmem)
  · simp [Scan.parts] at h

def Sequence.IsDistinct (salt : String) (count : Nat) : Prop :=
  ∀ n < count, ∀ m < n, (Sequence.new salt).hashAt m ≠ (Sequence.new salt).hashAt n

instance (salt : String) (count : Nat) : Decidable (Sequence.IsDistinct salt count) :=
  inferInstanceAs (Decidable (∀ n < count, ∀ m < n, _ ≠ _))

lemma Interpolation.nodup_of_isDistinct {count : Nat} (h : Sequence.IsDistinct s.salt count)
    {a : List Segment} (ha : (place a s).2.2.counter ≤ count) : ((place a s).2.1.map (·.placeholder)).Nodup := by
  obtain ⟨hmap, hle⟩ := map_placeholder_place a s
  rw [hmap]
  refine List.Nodup.map_on (fun n hn m hm heq => ?_) nodup_range'
  have hhash : s.hashAt n = s.hashAt m := by
    have := congrArg String.toList heq
    simpa [← String.toList_inj] using this
  rw [mem_range'_1] at hn hm
  rcases Nat.lt_trichotomy n m with hlt | heq | hgt
  · exact absurd hhash (h m (by omega) n hlt)
  · exact heq
  · exact absurd hhash.symm (h n (by omega) m hgt)

lemma interpolations_parts {count : Nat} (h : Sequence.IsDistinct s.salt count)
    (hcount : (scan text s).2.counter ≤ count) :
    (scan text s).1.parts.filterMap Piece.interpolation? =
      (segmentsOf text).filterMap Segment.interpolation? := by
  unfold scan at hcount ⊢
  split
  · rename_i hmarkers
    rw [if_pos hmarkers] at hcount
    simp only [Scan.parts, String.toList_ofList, filterMap_cut_markFull]
    have hnodup := nodup_of_isDistinct h hcount
    rw [distinct_eq hnodup]
    exact filterMap_cut _ [] s
  · rename_i hmarkers
    have hnone : hasMarkers text = false := by simpa using hmarkers
    rw [(segmented_segmentsOf text).eq_map hnone, filterMap_map]
    exact (filterMap_eq_nil_iff.2 (fun c _ => rfl)).symm

end ReactiveTemplate
