import ReactiveTemplate.Proofs.Template.Marks
import Mathlib
/-!
# Splitting — what cutting at marks keeps and takes

`Cut` says what cutting a text at the marks of the parts that are still there gives (`split_cut`): pieces and marks
make up the text (`Cut.interleave_eq`), a part is taken once (`Cut.taken_eq`) if its mark is there
(`Cut.mem_of_infix`), and a mark that stays is one whose part is gone (`Cut.left`).
-/
set_option linter.all false

namespace ReactiveTemplate
open List

variable {cs : List Char} {m : Mark}

/-! ## Reading a mark -/

lemma dropChars?_eq_some {rest : List Char} : ∀ {cs ds : List Char}, dropChars? cs ds = some rest → ds = cs ++ rest
  | [], ds, h => Option.some.inj h
  | c :: cs, [], h => by cases h
  | c :: cs, d :: ds, h => by
    rw [dropChars?] at h
    split at h
    · rename_i hc
      rw [hc, dropChars?_eq_some h, cons_append]
    · cases h

lemma readToken?_eq_some {number size : Nat} (h : readToken? cs = some (number, size)) :
    ∃ (m : Mark) (rest : List Char), cs = m.text ++ rest ∧ m.number = number ∧ m.text.length = size := by
  unfold readToken? at h
  split at h
  · cases h
  rename_i rest hhead
  dsimp only at h
  split at h
  · cases h
  rename_i hdigits
  rw [Bool.or_eq_true, not_or, List.isEmpty_iff, Bool.not_eq_true, Option.isNone_eq_false_iff] at hdigits
  obtain ⟨after, htail⟩ := Option.isSome_iff_exists.1 hdigits.2
  obtain ⟨rfl, rfl⟩ := Prod.mk.inj (Option.some.inj h)
  have hdigit : ∀ c ∈ rest.takeWhile Char.isDigit, c.isDigit = true := List.all_eq_true.1 all_takeWhile
  have hrest : rest = rest.takeWhile Char.isDigit ++ rest.drop (rest.takeWhile Char.isDigit).length :=
    (List.prefix_iff_eq_append.1 <| takeWhile_prefix _).symm
  refine ⟨⟨_, _, markNumber?_eq_some.2 ⟨hdigits.1, hdigit, rfl⟩⟩, after, ?_, rfl, ?_⟩
  · rw [dropChars?_eq_some hhead, Mark.text, markText, append_assoc, append_assoc, ← dropChars?_eq_some htail,
      ← hrest]
  · rw [Mark.text, markText, length_append, length_append, Nat.add_assoc]

lemma Mark.text_eq_cons (m : Mark) : ∃ cs, m.text = '␣' :: cs ∧ '␣' ∉ cs := by
  refine ⟨"____sdi__".toList ++ (m.digits ++ tokenTail), rfl, ?_⟩
  intro hmem
  rcases mem_append.1 hmem with hhead | hmem
  · exact absurd hhead (by decide)
  · rcases mem_append.1 hmem with hdigit | htail
    · exact absurd ((markNumber?_eq_some.1 m.reads).2.1 _ hdigit) (by decide)
    · exact absurd htail (by decide)

lemma infix_of_infix_append {x : Char} {rest : List Char} :
    ∀ {front : List Char}, x ∉ front → x :: cs <:+: front ++ rest → x :: cs <:+: rest
  | [], _, h => h
  | c :: front, hfront, h => by
    rw [mem_cons, not_or] at hfront
    rcases infix_cons_iff.1 h with hstart | hoccurs
    · exact absurd (cons_prefix_cons.1 hstart).1 hfront.1
    · exact infix_of_infix_append hfront.2 hoccurs

lemma Mark.number_eq_of_prefix {m' : Mark} (h : m.text <+: cs) (h' : m'.text <+: cs) :
    m.number = m'.number := by
  obtain ⟨rest, rfl⟩ := h
  obtain ⟨rest', hrest⟩ := h'
  have hread := readToken?_mark m rest
  rw [← hrest, readToken?_mark m' rest', Option.some.injEq, Prod.mk.injEq] at hread
  exact hread.1.symm

/-! ## Cutting at marks -/

namespace Compiled

def partAt (pending : List (Option Dynamic)) (m : Mark) : Option Dynamic := pending[m.number]?.join

/-- A text cut at marks: what stands before, between and behind them, the marks, and the parts they take. -/
inductive Cut : List (Option Dynamic) → List Char → List (List Char) → List Mark → List Dynamic → Prop
  | nil (pending : List (Option Dynamic)) : Cut pending [] [[]] [] []
  | char {pending : List (Option Dynamic)} {c : Char} {html piece : List Char} {pieces : List (List Char)}
      {marks : List Mark} {taken : List Dynamic} : (∀ m : Mark, m.text <+: c :: html → partAt pending m = none) →
      Cut pending html (piece :: pieces) marks taken → Cut pending (c :: html) ((c :: piece) :: pieces) marks taken
  | mark {pending : List (Option Dynamic)} {m : Mark} {d : Dynamic} {html : List Char} {pieces : List (List Char)}
      {marks : List Mark} {taken : List Dynamic} : partAt pending m = some d →
      Cut (pending.set m.number none) html pieces marks taken →
      Cut pending (m.text ++ html) ([] :: pieces) (m :: marks) (d :: taken)

lemma partAt_set {pending : List (Option Dynamic)} {m' : Mark} :
    partAt (pending.set m.number none) m' = if m'.number = m.number then none else partAt pending m' := by
  rw [partAt, partAt]
  split
  · rename_i heq
    rw [heq, getElem?_set_self']
    cases pending[m.number]? <;> rfl
  · rename_i hne
    rw [getElem?_set_ne (Ne.symm hne)]

lemma split_of_none {pending : List (Option Dynamic)} {c : Char} {html : List Char}
    (h : ∀ m : Mark, m.text <+: c :: html → partAt pending m = none) (text : List Char) :
    split pending 0 text (c :: html) = split pending 0 (c :: text) html := by
  rw [split]
  cases hread : readToken? (c :: html) with
  | none => rfl
  | some token =>
    obtain ⟨m, rest, hhtml, hnumber, -⟩ := readToken?_eq_some hread
    have hnone : pending[token.1]?.join = none := hnumber ▸ h m (hhtml ▸ prefix_append _ _)
    simp only [Option.bind_some, hnone, Option.map_none]

lemma split_cut (html : List Char) (pending : List (Option Dynamic)) :
    ∃ piece pieces marks taken, Cut pending html (piece :: pieces) marks taken ∧
      ∀ text, split pending 0 text html = (((text.reverse ++ piece) :: pieces).map String.ofList, taken) := by
  induction hlength : html.length using Nat.strong_induction_on generalizing html pending with
  | _ n ih =>
  cases html with
  | nil => exact ⟨[], [], [], [], .nil pending, fun text => by simp [split]⟩
  | cons c html =>
    by_cases hlive : ∃ m : Mark, m.text <+: c :: html ∧ partAt pending m ≠ none
    · obtain ⟨m, ⟨rest, hhtml⟩, hpart⟩ := hlive
      obtain ⟨d, hd⟩ := Option.ne_none_iff_exists'.1 hpart
      obtain ⟨cs, hcs, -⟩ := m.text_eq_cons
      have hshorter : rest.length < n := by
        rw [← hlength, ← hhtml, hcs, length_append, length_cons]
        omega
      obtain ⟨piece, pieces, marks, taken, hcut, hsplit⟩ := ih _ hshorter rest (pending.set m.number none) rfl
      rw [← hhtml]
      refine ⟨[], piece :: pieces, m :: marks, d :: taken, .mark hd hcut, fun text => ?_⟩
      rw [split_mark pending m d (Option.join_eq_some_iff.1 hd), hsplit]
      simp
    · have hnone : ∀ m : Mark, m.text <+: c :: html → partAt pending m = none := fun m hm => by
        by_contra hpart
        exact hlive ⟨m, hm, hpart⟩
      obtain ⟨piece, pieces, marks, taken, hcut, hsplit⟩ := ih _ (by simp [← hlength]) html pending rfl
      refine ⟨c :: piece, pieces, marks, taken, .char hnone hcut, fun text => ?_⟩
      rw [split_of_none hnone, hsplit]
      simp

namespace Cut

variable {pending : List (Option Dynamic)} {html : List Char} {pieces : List (List Char)} {marks : List Mark}
  {taken : List Dynamic}

lemma length_eq (h : Cut pending html pieces marks taken) : pieces.length = marks.length + 1 := by
  induction h with
  | nil => rfl
  | char _ _ ih => exact ih
  | mark _ _ ih => exact congrArg (· + 1) ih

lemma interleave_eq (h : Cut pending html pieces marks taken) :
    interleave (pieces.map String.ofList) (marks.map (fun m => String.ofList m.text)) = String.ofList html := by
  induction h with
  | nil => rfl
  | @char pending c html piece pieces marks taken _ _ ih =>
    have hcons := congrArg (String.singleton c ++ ·) ih
    cases marks <;> simpa [interleave, String.append_assoc] using hcons
  | mark _ _ ih => simp [interleave, ih]

lemma taken_eq (h : Cut pending html pieces marks taken) :
    taken.map some = marks.map (partAt pending) ∧ (marks.map (·.number)).Nodup := by
  induction h with
  | nil => exact ⟨rfl, nodup_nil⟩
  | char _ _ ih => exact ih
  | @mark pending m d html pieces marks taken hd _ ih =>
    obtain ⟨htaken, hnodup⟩ := ih
    -- A part that a later mark takes is there still, so the mark has another number.
    have hne : ∀ m' ∈ marks, m'.number ≠ m.number := by
      intro m' hm' heq
      have hmem : partAt (pending.set m.number none) m' ∈ taken.map some := htaken ▸ mem_map_of_mem hm'
      rw [partAt_set, if_pos heq] at hmem
      simp at hmem
    refine ⟨?_, nodup_cons.2 ⟨fun hmem => ?_, hnodup⟩⟩
    · rw [map_cons, map_cons, hd, htaken]
      refine congrArg _ (map_congr_left fun m' hm' => ?_)
      rw [partAt_set, if_neg (hne m' hm')]
    · obtain ⟨m', hm', heq⟩ := mem_map.1 hmem
      exact hne m' hm' heq

lemma mem_pending (h : Cut pending html pieces marks taken) {d : Dynamic} (hd : d ∈ taken) : some d ∈ pending := by
  have hmem : some d ∈ marks.map (partAt pending) := h.taken_eq.1 ▸ mem_map_of_mem hd
  obtain ⟨m, -, hm⟩ := mem_map.1 hmem
  exact mem_of_getElem? (Option.join_eq_some_iff.1 hm)

lemma mem_of_infix (h : Cut pending html pieces marks taken) (hlive : partAt pending m ≠ none)
    (hoccurs : m.text <:+: html) : m.number ∈ marks.map (·.number) := by
  obtain ⟨cs, hcs, -⟩ := m.text_eq_cons
  induction h with
  | nil => simp [hcs] at hoccurs
  | char hnone _ ih =>
    rcases infix_cons_iff.1 hoccurs with hstart | hoccurs
    · exact absurd (hnone m hstart) hlive
    · exact ih hlive hoccurs
  | @mark pending m' d html pieces marks taken hd _ ih =>
    by_cases heq : m.number = m'.number
    · rw [heq]
      exact (.head _)
    · have hstill : partAt (pending.set m'.number none) m ≠ none := by rwa [partAt_set, if_neg heq]
      obtain ⟨cs', hcs', hfree⟩ := m'.text_eq_cons
      have hwithin : m.text <:+: '␣' :: (cs' ++ html) := by rwa [hcs', cons_append] at hoccurs
      rcases infix_cons_iff.1 hwithin with hstart | hinside
      · rw [← cons_append, ← hcs'] at hstart
        exact absurd (Mark.number_eq_of_prefix hstart (prefix_append _ _)) heq
      · rw [hcs] at hinside
        exact mem_cons_of_mem _ (ih hstill (hcs ▸ infix_of_infix_append hfree hinside))

lemma prefix_of_cons {piece : List Char} (h : Cut pending html (piece :: pieces) marks taken) : piece <+: html := by
  generalize hall : piece :: pieces = all at h
  induction h generalizing piece pieces with
  | nil => cases hall; exact prefix_rfl
  | char _ _ ih =>
    cases hall
    exact (prefix_cons_inj _).2 (ih rfl)
  | mark _ _ _ => cases hall; exact nil_prefix

lemma left (h : Cut pending html pieces marks taken) {k : Nat} {piece : List Char} (hpiece : pieces[k]? = some piece)
    (hoccurs : m.text <:+: piece) :
    partAt pending m = none ∨ m.number ∈ (marks.take k).map (·.number) := by
  obtain ⟨cs, hcs, -⟩ := m.text_eq_cons
  induction h generalizing k piece with
  | nil =>
    cases k with
    | zero => cases hpiece; simp [hcs] at hoccurs
    | succ k => cases hpiece
  | char hnone hcut ih =>
    cases k with
    | zero =>
      cases hpiece
      rcases infix_cons_iff.1 hoccurs with hstart | hoccurs
      · exact .inl (hnone m (hstart.trans ((prefix_cons_inj _).2 hcut.prefix_of_cons)))
      · exact ih rfl hoccurs
    | succ k => exact ih hpiece hoccurs
  | @mark pending m' d html pieces marks taken hd _ ih =>
    cases k with
    | zero => cases hpiece; simp [hcs] at hoccurs
    | succ k =>
      rw [take_succ_cons, map_cons, mem_cons]
      rcases ih hpiece hoccurs with hnone | hmem
      · rw [partAt_set] at hnone
        split at hnone
        · rename_i heq
          exact .inr (.inl heq)
        · exact .inl hnone
      · exact .inr (.inr hmem)

end Cut

/-- **Cutting at the marks loses nothing and takes each part once.**  The pieces with marks between them are the HTML; the
marks write distinct numbers, and the parts of these numbers are taken in the order of the marks.  A part whose own mark
stands in the HTML is taken once, and what has the form of a mark and stays in a piece writes no number, or one that no part
has, or one that an earlier mark writes. -/
theorem ofHtml_marks (html : String) (dynamics : List Dynamic) :
    ∃ marks : List Mark,
      (ofHtml html dynamics).statics.length = marks.length + 1 ∧
      interleave (ofHtml html dynamics).statics (marks.map (fun m => String.ofList m.text)) = html ∧
      (marks.map (·.number)).Nodup ∧
      (ofHtml html dynamics).dynamics.map some = marks.map (fun m => dynamics[m.number]?) ∧
      (∀ i < dynamics.length, (dynamicToken i).toList <:+: html.toList → (marks.map (·.number)).count i = 1) ∧
      ∀ (k : Nat) (static : String), (ofHtml html dynamics).statics[k]? = some static →
        ∀ digits, markText digits <:+: static.toList →
          markNumber? digits = none ∨ ∃ i, markNumber? digits = some i ∧
            (dynamics.length ≤ i ∨ i ∈ (marks.take k).map (·.number)) := by
  obtain ⟨piece, pieces, marks, taken, hcut, hsplit⟩ := split_cut html.toList (dynamics.map some)
  have hpart : ∀ m : Mark, partAt (dynamics.map some) m = dynamics[m.number]? := fun m => by
    rw [partAt, getElem?_map]
    cases dynamics[m.number]? <;> rfl
  have hofHtml : ofHtml html dynamics = mk ((piece :: pieces).map String.ofList) taken := by
    rw [ofHtml, hsplit []]
    rfl
  obtain ⟨htaken, hnodup⟩ := hcut.taken_eq
  rw [hofHtml]
  refine ⟨marks, ?_, ?_, hnodup, ?_, fun i hi hoccurs => ?_, fun k static hstatic digits hoccurs => ?_⟩
  · rw [statics, length_map, hcut.length_eq]
  · rw [statics, hcut.interleave_eq, String.ofList_toList]
  · rw [Compiled.dynamics, htaken]
    exact map_congr_left fun m _ => hpart m
  · rw [toList_dynamicToken] at hoccurs
    have hlive : partAt (dynamics.map some) (Mark.canonical i) ≠ none := by
      rw [hpart, Mark.number_canonical, getElem?_eq_getElem hi]
      exact Option.some_ne_none _
    exact count_eq_one_of_mem hnodup (hcut.mem_of_infix hlive hoccurs)
  · cases hnumber : markNumber? digits with
    | none => exact .inl rfl
    | some i =>
      refine .inr ⟨i, rfl, ?_⟩
      rw [statics, getElem?_map, Option.map_eq_some_iff] at hstatic
      obtain ⟨piece, hpiece, rfl⟩ := hstatic
      rw [String.toList_ofList] at hoccurs
      rcases hcut.left hpiece (m := ⟨digits, i, hnumber⟩) hoccurs with hnone | hmem
      · rw [hpart, List.getElem?_eq_none_iff] at hnone
        exact .inl hnone
      · exact .inr hmem

/-- A mark, its number written in another way, and a number that no part has. -/
theorem ofHtml_marks_repeated :
    let behind := "</p>" ++ String.ofList (markText ['0', '1']) ++ dynamicToken 7
    let html := "<p>" ++ dynamicToken 1 ++ behind
    let dynamics := [Dynamic.nested (text "a"), Dynamic.nested (text "b")]
    (dynamicToken 1).toList <:+: html.toList ∧ (ofHtml html dynamics).statics[1]? = some behind ∧
      markText ['0', '1'] <:+: behind.toList ∧
      ∃ marks : List Mark, (marks.map (·.number)).count 1 = 1 ∧
        (markNumber? ['0', '1'] = none ∨ ∃ i, markNumber? ['0', '1'] = some i ∧
          (dynamics.length ≤ i ∨ i ∈ (marks.take 1).map (·.number))) := by
  intro behind html dynamics
  have hmark : (dynamicToken 1).toList <:+: html.toList := ⟨"<p>".toList, behind.toList, by simp [html]⟩
  have hother : markText ['0', '1'] <:+: behind.toList := ⟨"</p>".toList, (dynamicToken 7).toList, by simp [behind]⟩
  have hstatic : (ofHtml html dynamics).statics[1]? = some behind := by cbv
  obtain ⟨marks, -, -, -, -, hused, hleft⟩ := ofHtml_marks html dynamics
  exact ⟨hmark, hstatic, hother, marks, hused 1 (by decide) hmark, hleft 1 behind hstatic _ hother⟩

end Compiled
end ReactiveTemplate
