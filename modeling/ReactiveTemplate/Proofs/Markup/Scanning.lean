import ReactiveTemplate.Proofs.Markup.Reading
/-!
# Scanning — what the tokens of a source are like

Names, comments and raw texts come out of the reader in a form that it reads again in the same way.
-/
set_option linter.all false

namespace ReactiveTemplate.Markup
open List

open Lexer

variable {cs : List Char}

/-! ## Tokens -/

def Token.Sound : Token → Prop
  | .startTag name _ _ => IsTagName name.toList
  | .comment s => CommentText s.toList ∧ '\r' ∉ s.toList
  | .doctype (some name) => IsDoctypeName name.toList
  | _ => True

def Token.opensText : Token → Bool
  | .startTag name _ false => decide (contentOf name ≠ .normal)
  | _ => false

def IsTextOf (tag : String) (s : String) : Prop :=
  contentOf tag = .escapable ∨ '\r' ∉ s.toList ∧ Rescans tag s.toList

inductive Ordered : List Token → Prop
  | nil : Ordered []
  | token {ts : List Token} {t : Token} (h : Ordered ts) (ht : t.Sound) (hraw : t.opensText = false) : Ordered (ts ++ [t])
  | element {ts : List Token} {tag : String} {attributes : List (String × String)} {text : Option String} (h : Ordered ts)
    (htag : IsTagName tag.toList) (hraw : contentOf tag ≠ .normal) (htext : ∀ s, text = some s → IsTextOf tag s) :
    Ordered (ts ++ (.startTag tag attributes false :: (text.map Token.text).toList ++ [.endTag tag]))

namespace Lexer

/-! ## The reader inside and outside of text that is not read as markup -/

/-- What is known of a text that is not read as markup: read again, it leads to where the reader stands; behind the
name of its end tag, it is complete. -/
inductive Holds (l : Lexer) : Prop
  | text (hraw : l.state.isRaw = true) (hreaches : Reaches l.lastStart (l.pending.reverse ++ l.state.unread) l.state)
    (hopens : ∀ e, l.state.opens? = some e →
      e ≠ .twice ∧ Reaches l.lastStart (l.pending.reverse ++ ['<']) (.rawLessThan e))
  | tag {tag : Draft} (htag : l.state.tag? = some tag) (hclosing : tag.closing = true)
    (hname : tag.name.reverse = l.lastStart.toList) (hrescans : Rescans l.lastStart l.pending.reverse)

/-- The reader inside an element whose text is not read as markup. -/
structure Inside (l : Lexer) : Prop where
  content : l.content = contentOf l.lastStart
  raw : contentOf l.lastStart ≠ .normal
  tag : IsTagName l.lastStart.toList
  line : '\r' ∉ l.pending.reverse ++ l.state.unread
  done : ∃ ts attributes, l.done.reverse = ts ++ [.startTag l.lastStart attributes false] ∧ Ordered ts
  text : Holds l

def State.Sound : State → Prop
  | .tagName tag | .beforeName tag | .name tag _ | .afterName tag _ | .beforeValue tag _ | .value _ tag _ _
  | .afterValue tag | .selfClosing tag => IsTagName tag.name.reverse
  | .markupDeclaration text | .bogusComment text => ∀ c ∈ text, c ≠ '>' ∧ shown c = c ∧ c ≠ '\r'
  | .comment text => State.Reached (.comment text) ∧ '\r' ∉ text
  | .commentEndDash text => State.Reached (.commentEndDash text) ∧ '\r' ∉ text
  | .commentEnd text | .commentEndBang text => State.Reached (.commentEnd text) ∧ '\r' ∉ text
  | .doctypeName letters => IsDoctypeName letters.reverse
  | .behindDoctypeName letters? _ => ∀ letters, letters? = some letters → IsDoctypeName letters.reverse
  | .content _ | .tagOpen | .endTagOpen | .commentStart | .commentStartDash | .doctype | .beforeDoctypeName => True
  | _ => False

structure Outside (l : Lexer) : Prop where
  content : l.content = .normal
  state : l.state.Sound
  done : Ordered l.done.reverse

def Sound (l : Lexer) : Prop := l.Outside ∨ l.Inside

variable {l : Lexer} {s : State} {tag : Draft} {c : Char}

lemma ordered_flush (h : Ordered l.done.reverse) : Ordered l.flush.done.reverse := by
  rw [flush]
  split
  · exact h
  · rw [reverse_cons]
    exact .token h trivial rfl

lemma Outside.goto (h : l.Outside) (hs : s.Sound) : (l.goto s).Outside := ⟨h.content, hs, h.done⟩

lemma Outside.push (h : l.Outside) (c : Char) : (l.push c).Outside := ⟨h.content, h.state, h.done⟩

lemma Outside.emit (h : l.Outside) {t : Token} (ht : t.Sound) (hraw : t.opensText = false) :
    (l.emit t).Outside where
  content := (content_flush l).trans h.content
  state := trivial
  done := by
    show Ordered (t :: l.flush.done).reverse
    rw [reverse_cons]
    exact .token (ordered_flush h.done) ht hraw

lemma Outside.sound (h : l.Outside) : l.Sound := .inl h

lemma reaches_nil (tag : String) : Reaches tag [] (.content .none) := by
  intro l hstate _ _
  exact ⟨l.pending, by rw [run_nil, ← hstate], rfl⟩

lemma Outside.emitTag (h : l.Outside) (htag : IsTagName tag.name.reverse)
    (selfClosing : Bool) : (l.emitTag tag selfClosing).Sound := by
  have hname : IsTagName (String.ofList tag.name.reverse).toList := by rwa [String.toList_ofList]
  unfold Lexer.emitTag
  split
  · have hemit := h.emit (t := .endTag (String.ofList tag.name.reverse)) trivial rfl
    exact .inl ⟨rfl, hemit.state, hemit.done⟩
  generalize tag.attributes.map (fun a => (a.1, String.ofList (Reference.decode true a.2))) = attributes
  by_cases hnormal : selfClosing = true ∨ contentOf (String.ofList tag.name.reverse) = .normal
  · have hcontent : (if selfClosing then .normal else contentOf (String.ofList tag.name.reverse)) = Content.normal := by
      rcases hnormal with h | h
      · rw [if_pos h]
      · rw [h, ite_self]
    have hraw : (Token.startTag (String.ofList tag.name.reverse) attributes selfClosing).opensText = false := by
      cases selfClosing with
      | true => rfl
      | false => exact decide_eq_false (not_not.2 (hnormal.resolve_left Bool.false_ne_true))
    have hemit := h.emit (t := .startTag (String.ofList tag.name.reverse) attributes selfClosing) hname hraw
    exact .inl ⟨hcontent, hemit.state, hemit.done⟩
  · obtain ⟨hself, hraw⟩ := not_or.1 hnormal
    have hself : selfClosing = false := by simpa using hself
    subst hself
    refine .inr ⟨rfl, hraw, hname, ?_, ⟨_, _, reverse_cons, ordered_flush h.done⟩, ?_⟩
    · show '\r' ∉ l.flush.pending.reverse ++ []
      rw [pending_flush]
      exact not_mem_nil
    · refine .text rfl ?_ (fun e he => by cases he)
      show Reaches _ (l.flush.pending.reverse ++ []) _
      rw [pending_flush]
      exact reaches_nil _

lemma isAlpha_toLower (h : c.isAlpha = true) : c.toLower.isAlpha = true := by
  cases hc : c.isUpper with
  | false => rwa [toLower_of_not_isUpper hc]
  | true =>
    have := toNat_toLower hc
    refine Bool.or_eq_true_iff.2 (.inr ?_)
    simp only [Char.isLower, Bool.and_eq_true, decide_eq_true_eq]
    exact this

lemma isTagName_single (h : c.isAlpha = true) : IsTagName [c.toLower] := by
  refine ⟨⟨_, _, rfl, isAlpha_toLower h⟩, forall_mem_singleton.2 ?_⟩
  have hkept := isKept_lower (isSpace_of_isNameChar (isNameChar_iff.2 (.inl (by simp [Char.isAlphanum, h]))))
    (ne_of_isClass h (by decide)) (ne_of_isClass h (by decide)) (ne_of_isClass h (by decide))
  rwa [shown_of_isAlpha h] at hkept

lemma IsTagName.snoc (h : IsTagName cs) (hc : isKept c = true) : IsTagName (cs ++ [c]) := by
  obtain ⟨⟨d, rest, rfl, hd⟩, hkept⟩ := h
  refine ⟨⟨d, rest ++ [c], rfl, hd⟩, fun x hx => ?_⟩
  rcases mem_append.1 hx with hx | hx
  · exact hkept x hx
  · rwa [mem_singleton.1 hx]

lemma State.isTagName_of_sound (h : s.tag? = some tag) (hs : s.Sound) : IsTagName tag.name.reverse := by
  cases s <;> cases h <;> exact hs

lemma State.sound_of_tag? (h : s.tag? = some tag) (htag : IsTagName tag.name.reverse) : s.Sound := by
  cases s <;> cases h <;> exact htag

section

variable {l : Lexer} {c : Char}

variable {tag : Draft} {tidy : Prop} {m : Lexer} {text : List Char}

lemma Outside.tagStep (h : l.Outside) (htag : IsTagName tag.name.reverse) (hm : TagStep l tag tidy m) : m.Sound := by
  cases hm with
  | goto hs halike => exact (h.goto (State.sound_of_tag? hs (by rwa [halike.name]))).sound
  | emit selfClosing halike => exact h.emitTag (by rwa [halike.name]) selfClosing

lemma Outside.stepContent (h : l.Outside) (e : Escape) (c : Char) : (l.stepContent e c).Outside := by
  simp only [Lexer.stepContent, h.content]
  split
  · exact h.goto trivial
  split
  · exact h.emit trivial rfl
  · exact (h.push c).goto trivial

lemma Outside.stepTagOpen (h : l.Outside) (c : Char) : (l.stepTagOpen c).Outside := by
  unfold Lexer.stepTagOpen
  split
  · exact h.goto (fun c hc => by cases hc)
  split
  · exact h.goto trivial
  split
  · exact h.goto (by rintro c hc; cases mem_singleton.1 hc; decide)
  split
  · rename_i halpha
    exact h.goto (isTagName_single halpha)
  · exact (h.push '<').stepContent .none c

lemma Outside.stepEndTagOpen (h : l.Outside) (hc : c ≠ '\r') : (l.stepEndTagOpen c).Outside := by
  unfold Lexer.stepEndTagOpen
  split
  · exact h.emit trivial rfl
  rename_i hend
  split
  · rename_i halpha
    exact h.goto (isTagName_single halpha)
  · refine h.goto (forall_mem_singleton.2 ⟨?_, shown_shown c, ?_⟩)
    · exact fun hshown => hend ((shown_eq_iff (by decide) (by decide)).1 hshown)
    · exact fun hshown => hc ((shown_eq_iff (by decide) (by decide)).1 hshown)

lemma Outside.stepTagName (h : l.Outside) (htag : IsTagName tag.name.reverse) (hc : c ≠ '\r') :
    (l.stepTagName tag c).Sound := by
  unfold Lexer.stepTagName
  split
  · exact .inl (h.goto htag)
  rename_i hspace
  split
  · exact .inl (h.goto htag)
  rename_i hslash
  split
  · exact h.emitTag htag false
  rename_i hend
  refine .inl (h.goto ?_)
  show IsTagName ((shown c).toLower :: tag.name).reverse
  rw [reverse_cons]
  exact htag.snoc (isKept_lower (by simpa using hspace) hslash hend hc)

lemma Outside.emitComment (h : l.Outside) (htext : CommentText text.reverse) (hline : '\r' ∉ text) :
    (l.emitComment text).Outside := by
  refine h.emit ⟨?_, ?_⟩ rfl
  · rwa [String.toList_ofList]
  · rwa [String.toList_ofList, mem_reverse]

lemma Outside.stepBogusComment (h : l.Outside)
    (htext : ∀ c ∈ text, c ≠ '>' ∧ shown c = c ∧ c ≠ '\r') (hc : c ≠ '\r') : (l.stepBogusComment text c).Outside := by
  unfold Lexer.stepBogusComment
  split
  · refine h.emitComment (commentText_of_not_mem fun d hd => ?_) (fun hmem => (htext _ hmem).2.2 rfl)
    obtain ⟨hend, hshown, -⟩ := htext d (mem_reverse.1 hd)
    exact ⟨hend, hshown⟩
  · rename_i hend
    refine h.goto (forall_mem_cons.2 ⟨⟨?_, shown_shown c, ?_⟩, htext⟩)
    · exact fun hshown => hend ((shown_eq_iff (by decide) (by decide)).1 hshown)
    · exact fun hshown => hc ((shown_eq_iff (by decide) (by decide)).1 hshown)

lemma isPlain_of_isPrefixOf {seen : List Char} {c : Char} (h : ((c :: seen).reverse.isPrefixOf ['-', '-'] ||
      ((c :: seen).reverse.map Char.toLower).isPrefixOf "doctype".toList) = true) :
    c ≠ '>' ∧ shown c = c ∧ c ≠ '\r' := by
  have hlast : c ∈ (c :: seen).reverse := by simp
  have hmem : c ∈ ['-', '-'] ∨ c.toLower ∈ "doctype".toList := by
    rw [Bool.or_eq_true, isPrefixOf_iff_prefix, isPrefixOf_iff_prefix] at h
    exact h.imp (fun h => h.subset hlast) (fun h => h.subset (mem_map_of_mem hlast))
  refine ⟨?_, shown_of_ne ?_, ?_⟩ <;>
    · rintro rfl
      exact absurd hmem (by decide)

lemma Outside.stepMarkupDeclaration (h : l.Outside) {seen : List Char}
    (hseen : ∀ c ∈ seen, c ≠ '>' ∧ shown c = c ∧ c ≠ '\r') (hc : c ≠ '\r') :
    (l.stepMarkupDeclaration seen c).Outside := by
  unfold Lexer.stepMarkupDeclaration
  dsimp only
  split
  · exact h.goto trivial
  split
  · exact h.goto trivial
  split
  · rename_i hprefix
    exact h.goto (forall_mem_cons.2 ⟨isPlain_of_isPrefixOf hprefix, hseen⟩)
  · exact h.stepBogusComment hseen hc

lemma not_mem_shown (hc : c ≠ '\r') (h : '\r' ∉ text) : '\r' ∉ shown c :: text := by
  rw [mem_cons, not_or]
  exact ⟨fun hshown => hc ((shown_eq_iff (by decide) (by decide)).1 hshown.symm), h⟩

lemma State.sound_of_reached (hs : s.commentText? = some text) (hreached : s.Reached)
    (hbang : ∀ body, s = .commentEndBang body → State.Reached (.commentEnd body)) (hline : '\r' ∉ text) : s.Sound := by
  cases s <;> cases hs <;> first
    | trivial
    | exact ⟨hreached, by simpa using hline⟩
    | exact ⟨hbang _ rfl, by simpa using hline⟩

lemma State.reached_of_sound (hs : s.commentText? = some text) (h : s.Sound) : s.Reached ∧ '\r' ∉ text := by
  cases s <;> cases hs <;> first
    | exact ⟨fun _ htext _ => by cases htext; rfl, by decide⟩
    | exact ⟨h.1, by simpa using h.2⟩
    | exact ⟨h.1.step (c := '!') rfl rfl fun _ => rfl, by simpa using h.2⟩

lemma Outside.commentStep (h : l.Outside) (hs : l.state.commentText? = some text) (hc : c ≠ '\r') : (l.step c).Outside := by
  obtain ⟨hreached, hline⟩ := State.reached_of_sound hs h.state
  by_cases hend : c = '>'
  · subst hend
    have hstate := h.state
    unfold Lexer.step
    split <;> rename_i heq <;> rw [heq] at hs hstate hreached <;> cases hs
    · exact h.emitComment (fun _ => rfl) not_mem_nil
    · exact h.emitComment (fun _ => rfl) not_mem_nil
    · exact h.goto ⟨hreached.step (c := '>') rfl rfl fun _ => rfl, not_mem_shown hc hline⟩
    · exact h.goto ⟨hreached.step (c := '>') rfl rfl fun _ => rfl, not_mem_shown hc hline⟩
    · exact h.emitComment hstate.1.commentText hstate.2
    · exact h.emitComment hstate.1.commentText hstate.2
  · obtain ⟨s', hs', hbang, hstep⟩ := step_commentText hs hend
    rw [show l.step c = l.goto s' from hstep l]
    exact h.goto (State.sound_of_reached hs' (hreached.step hs hs' hstep) (fun body hbody => hbang body hbody ▸ hreached)
      (not_mem_shown hc hline))

lemma Outside.emitDoctype (h : l.Outside) {letters? : Option (List Char)}
    (hname : ∀ letters, letters? = some letters → IsDoctypeName letters.reverse) : (l.emitDoctype letters?).Outside := by
  refine h.emit ?_ rfl
  cases letters? with
  | none => trivial
  | some letters =>
    show IsDoctypeName (String.ofList letters.reverse).toList
    rw [String.toList_ofList]
    exact hname letters rfl

lemma kept_doctype (hspace : isSpace c = false) (hend : c ≠ '>') (hc : c ≠ '\r') :
    (shown (shown c).toLower).toLower = (shown c).toLower ∧ isSpace (shown c).toLower = false ∧
      (shown c).toLower ≠ '>' ∧ (shown c).toLower ≠ '\r' :=
  ⟨lower_lower c, isSpace_lower hspace, fun h => hend (eq_of_lower_eq (by decide) (by decide) h),
    fun h => hc (eq_of_lower_eq (by decide) (by decide) h)⟩

lemma Outside.stepBeforeDoctypeName (h : l.Outside) (hc : c ≠ '\r') : (l.stepBeforeDoctypeName c).Outside := by
  unfold Lexer.stepBeforeDoctypeName
  split
  · exact h.goto trivial
  rename_i hspace
  split
  · exact h.emitDoctype (fun _ hname => by cases hname)
  · rename_i hend
    exact h.goto ⟨cons_ne_nil _ _, forall_mem_singleton.2 (kept_doctype (by simpa using hspace) hend hc)⟩

lemma Outside.stepDoctypeName (h : l.Outside) {letters : List Char} (hname : IsDoctypeName letters.reverse)
    (hc : c ≠ '\r') : (l.stepDoctypeName letters c).Outside := by
  unfold Lexer.stepDoctypeName
  split
  · exact h.goto (fun _ hletters => by cases hletters; exact hname)
  rename_i hspace
  split
  · exact h.emitDoctype (fun _ hletters => by cases hletters; exact hname)
  · rename_i hend
    refine h.goto ⟨by simp, fun d hd => ?_⟩
    rw [reverse_cons, mem_append, mem_singleton] at hd
    rcases hd with hd | rfl
    · exact hname.kept d hd
    · exact kept_doctype (by simpa using hspace) hend hc

lemma Outside.step (h : l.Outside) (hc : c ≠ '\r') : (l.step c).Sound := by
  have hstate := h.state
  by_cases hcomment : ∃ text, l.state.commentText? = some text
  · obtain ⟨text, htext⟩ := hcomment
    exact .inl (h.commentStep htext hc)
  cases htag : l.state.tag? with
  | some tag => exact h.tagStep (State.isTagName_of_sound htag hstate) (Lexer.tagStep htag c)
  | none =>
    unfold Lexer.step
    split <;> rename_i hs <;> rw [hs] at hstate htag hcomment <;>
      first | exact absurd hstate id | exact absurd ⟨_, rfl⟩ hcomment | cases htag
    · exact .inl (h.stepContent _ c)
    · exact .inl (h.stepTagOpen c)
    · exact .inl (h.stepEndTagOpen hc)
    · exact h.stepTagName hstate hc
    · exact .inl (h.stepMarkupDeclaration hstate hc)
    · exact .inl (h.stepBogusComment hstate hc)
    · exact .inl (h.stepBeforeDoctypeName hc)
    · exact .inl (h.stepBeforeDoctypeName hc)
    · exact .inl (h.stepDoctypeName hstate hc)
    · unfold stepBehindDoctypeName
      split
      · exact .inl (h.emitDoctype hstate)
      · exact .inl (h.goto hstate)

/-! ## Inside an element whose text is not read as markup -/

def text? (cs : List Char) : Option String := if cs = [] then none else some (String.ofList cs)

lemma toList_of_text? {s : String} (h : text? cs = some s) : s.toList = cs ∧ cs ≠ [] := by
  unfold text? at h
  split at h
  · cases h
  · rename_i hne
    rw [← Option.some.inj h, String.toList_ofList]
    exact ⟨rfl, hne⟩

lemma done_flush (l : Lexer) :
    l.flush.done = ((text? (l.content.decode l.pending.reverse)).map Token.text).toList ++ l.done := by
  rw [flush, text?]
  split
  · rename_i hnil
    rw [hnil]
    rfl
  · rename_i hne
    rw [if_neg hne]
    rfl

lemma Inside.isTextOf (h : l.Inside) (hrescans : Rescans l.lastStart l.pending.reverse) {s : String}
    (hs : s.toList = l.content.decode l.pending.reverse) : IsTextOf l.lastStart s := by
  have hline : '\r' ∉ l.pending.reverse := fun hmem => h.line (mem_append_left _ hmem)
  by_cases hescapable : contentOf l.lastStart = .escapable
  · exact .inl hescapable
  · have hdecode : l.content.decode l.pending.reverse = l.pending.reverse := by
      have hraw := h.raw
      rw [h.content]
      cases hcontent : contentOf l.lastStart <;> first | rfl | exact absurd hcontent hescapable | exact absurd hcontent hraw
    rw [hdecode] at hs
    exact .inr (hs ▸ ⟨hline, hrescans⟩)

lemma Inside.emitTag (h : l.Inside) (hrescans : Rescans l.lastStart l.pending.reverse)
    (hclosing : tag.closing = true) (hname : tag.name.reverse = l.lastStart.toList) (selfClosing : Bool) :
    (l.emitTag tag selfClosing).Outside := by
  obtain ⟨ts, attributes, hdone, hts⟩ := h.done
  have hflush := done_flush l
  generalize htext : text? (l.content.decode l.pending.reverse) = text at hflush
  unfold Lexer.emitTag
  simp only [hclosing, if_true, hname, String.ofList_toList]
  refine ⟨rfl, trivial, ?_⟩
  show Ordered (.endTag l.lastStart :: l.flush.done).reverse
  have hall : (.endTag l.lastStart :: l.flush.done).reverse =
      ts ++ (.startTag l.lastStart attributes false :: (text.map Token.text).toList ++ [.endTag l.lastStart]) := by
    rw [hflush, reverse_cons, reverse_append, hdone]
    cases text <;> simp
  rw [hall]
  exact hts.element h.tag h.raw fun s hs => h.isTextOf hrescans (toList_of_text? (htext.trans hs)).1

lemma State.unread_of_tag? {s : State} (h : s.tag? = some tag) : s.unread = [] := by
  cases s <;> cases h <;> rfl

lemma Inside.tagStep (h : l.Inside) (hrescans : Rescans l.lastStart l.pending.reverse)
    (hclosing : tag.closing = true) (hname : tag.name.reverse = l.lastStart.toList) (hm : TagStep l tag tidy m) :
    m.Sound := by
  cases hm with
  | goto hs halike =>
    refine .inr ⟨h.content, h.raw, h.tag, ?_, h.done,
      .tag hs (halike.closing.trans hclosing) (by rw [halike.name]; exact hname) hrescans⟩
    rw [state_goto, State.unread_of_tag? hs, append_nil]
    exact fun hmem => h.line (mem_append_left _ hmem)
  | emit selfClosing halike =>
    exact .inl (h.emitTag hrescans (halike.closing.trans hclosing) (by rw [halike.name]; exact hname) selfClosing)

/-- Inside of such an element a step reads more text, or it ends the element. -/
inductive InsideStep (l : Lexer) (c : Char) : Lexer → Prop
  | text {s : State} {p : List Char} (hs : s ≠ .tagOpen)
    (hread : ∀ x ∈ p.reverse ++ s.unread, x ∈ l.pending.reverse ++ l.state.unread ++ [shown c]) :
    InsideStep l c { l with state := s, pending := p }
  | ends : InsideStep l c { l.emit (.endTag l.lastStart) with content := .normal }

lemma insideStep_tag (hclosing : tag.closing = true) (hname : tag.name.reverse = l.lastStart.toList)
    (hm : TagStep l tag tidy m) : InsideStep l c m := by
  cases hm with
  | goto hs =>
    refine .text (by rintro rfl; cases hs) fun x hx => ?_
    rw [State.unread_of_tag? hs, append_nil] at hx
    exact mem_append_left _ (mem_append_left _ hx)
  | emit selfClosing halike =>
    rw [Lexer.emitTag, if_pos (halike.closing.trans hclosing), halike.name, hname, String.ofList_toList]
    exact .ends

lemma Inside.insideStep (h : l.Inside) (c : Char) : InsideStep l c (l.step c) := by
  have hopen : ∀ s : State, s.isRaw = true → s ≠ .tagOpen := by
    rintro s hs rfl
    cases hs
  cases h.text with
  | tag htag hclosing hname => exact insideStep_tag hclosing hname (Lexer.tagStep htag c)
  | text hraw =>
    cases (rawStep h.raw hraw : RawStep (contentOf l.lastStart) l.lastStart l.state c) with
    | adds hadds =>
      rw [show l.step c = _ from hadds.step l h.content rfl]
      refine .text (hopen _ hadds.raw) fun x hx => ?_
      rwa [reverse_append, append_assoc, hadds.read, ← append_assoc] at hx
    | opens _ _ htraw hunread hshown hstep =>
      rw [show l.step c = _ from hstep l]
      refine .text (hopen _ htraw) fun x hx => ?_
      rwa [hunread, ← append_assoc, ← hshown] at hx
    | leaves _ hfits hstep => exact insideStep_tag rfl hfits (hstep l rfl)

lemma Inside.step (h : l.Inside) (hc : c ≠ '\r') : (l.step c).Sound := by
  cases h.text with
  | tag htag hclosing hname hrescans => exact h.tagStep hrescans hclosing hname (Lexer.tagStep htag c)
  | text hraw hreaches hopens =>
    have hnormal : ∀ {m : Lexer}, m.content = contentOf l.lastStart → m.content ≠ .normal := fun hm => hm ▸ h.raw
    cases (rawStep h.raw hraw : RawStep (contentOf l.lastStart) l.lastStart l.state c) with
    | @adds t add hadds =>
      have hstep : l.step c = { l with state := t, pending := add ++ l.pending } := hadds.step l h.content rfl
      have hread : (add ++ l.pending).reverse ++ t.unread = (l.pending.reverse ++ l.state.unread) ++ [shown c] := by
        rw [reverse_append, append_assoc, hadds.read, append_assoc]
      have hmain : Reaches l.lastStart ((add ++ l.pending).reverse ++ t.unread) t := by
        rw [hread]
        refine hreaches.snoc fun m hm hlast => ⟨add ++ m.pending, ?_, ?_⟩
        · rw [step_shown (l := m.goto l.state) (hnormal hm) hraw]
          exact hadds.step m hm hlast
        · rw [reverse_append, append_assoc, hadds.read, shown_shown]
      rw [hstep]
      refine .inr ⟨h.content, h.raw, h.tag, ?_, h.done, .text hadds.raw hmain fun e he => ?_⟩
      · rw [hread, mem_append, not_or]
        exact ⟨h.line, not_mem_shown hc not_mem_nil⟩
      · obtain ⟨htwice, rfl⟩ := hadds.opens e he
        refine ⟨htwice, ?_⟩
        cases e <;> first | exact hmain | exact absurd rfl htwice
    | @opens t e hs ht htraw hunread hshown hstep =>
      obtain ⟨htwice, hopen⟩ := hopens e hs
      have hstep' : l.step c = l.goto t := hstep l
      rw [hstep']
      refine .inr ⟨h.content, h.raw, h.tag, ?_, h.done, .text htraw ?_ fun e' he' => ?_⟩
      · rw [state_goto, hunread, ← append_assoc, mem_append, not_or]
        exact ⟨h.line, by simpa using Ne.symm hc⟩
      · rw [state_goto, hunread, ← append_assoc]
        exact hreaches.snoc fun m _ _ => ⟨m.pending, hstep m, by rw [hunread, hshown]⟩
      · cases ht.symm.trans he'
        exact ⟨htwice, hopen⟩
    | @leaves e letters hs hfits hstep =>
      obtain ⟨htwice, hopen⟩ := hopens e (by rw [hs]; rfl)
      exact h.tagStep (hopen.rescans h.raw htwice) rfl hfits (hstep l rfl)

lemma Sound.step (h : l.Sound) (hc : c ≠ '\r') : (l.step c).Sound := h.elim (·.step hc) (·.step hc)

lemma Sound.run (h : l.Sound) (hcs : '\r' ∉ cs) : (l.run cs).Sound := by
  induction cs generalizing l with
  | nil => exact h
  | cons c cs ih =>
    rw [mem_cons, not_or] at hcs
    exact ih (h.step (Ne.symm hcs.1)) hcs.2

/-! ## The end of a source -/

def IsRest (t : Token) : Prop := (∃ s, t = .text s) ∨ ∃ reason, t = .truncated reason

/-- One lexer has handed out what another one has, and then only what the end of a source may leave. -/
def Leaves (l m : Lexer) : Prop := ∃ rest, m.done = rest ++ l.done ∧ ∀ t ∈ rest, IsRest t

lemma leaves_flush (l : Lexer) : Leaves l l.flush := by
  refine ⟨_, done_flush l, fun t ht => ?_⟩
  obtain ⟨s, -, rfl⟩ := Option.map_eq_some_iff.1 (Option.mem_toList.1 ht)
  exact .inl ⟨s, rfl⟩

lemma leaves_truncate (l : Lexer) (reason : String) : Leaves l (l.truncate reason) := by
  obtain ⟨rest, hdone, hrest⟩ := leaves_flush l
  refine ⟨.truncated reason :: rest, ?_, forall_mem_cons.2 ⟨.inr ⟨reason, rfl⟩, hrest⟩⟩
  show Token.truncated reason :: l.flush.done = _
  rw [hdone, cons_append]

lemma leaves_finishContent (l : Lexer) (e : Escape) : Leaves l (l.finishContent e) := by
  unfold finishContent
  dsimp only
  split
  · exact leaves_truncate l _
  · exact leaves_flush l
  · exact leaves_truncate l _

lemma leaves_finish (h : l.state.isRaw = true ∨ ∃ tag, l.state.tag? = some tag) : Leaves l l.finish := by
  unfold finish
  cases hs : l.state with
  | content e => exact leaves_finishContent l e
  | rawLessThan e => cases e <;> exact leaves_finishContent _ _
  | rawEndTagOpen e => exact leaves_finishContent (l.pushAll ['<', '/']) e
  | rawEndTagName e letters => exact leaves_finishContent (l.pushAll ('<' :: '/' :: letters.reverse)) e
  | escapeStart => exact leaves_finishContent l .once
  | escapeStartDash => exact leaves_finishContent l .none
  | twiceStart letters => exact leaves_finishContent l .twice
  | twiceEnd letters => exact leaves_finishContent l .twice
  | escapedDash e => exact leaves_truncate l _
  | escapedDashDash e => exact leaves_truncate l _
  | beforeName tag => exact leaves_truncate l _
  | name tag name => exact leaves_truncate l _
  | afterName tag name => exact leaves_truncate l _
  | beforeValue tag name => exact leaves_truncate l _
  | value quote tag name value => exact leaves_truncate l _
  | afterValue tag => exact leaves_truncate l _
  | selfClosing tag => exact leaves_truncate l _
  | _ => rw [hs] at h; rcases h with h | ⟨_, h⟩ <;> cases h

lemma Outside.leaves (h : l.Outside) (hm : Leaves l m) : Ordered m.done.reverse := by
  obtain ⟨rest, hdone, hrest⟩ := hm
  rw [hdone, reverse_append]
  clear hdone
  induction rest with
  | nil => simpa using h.done
  | cons t rest ih =>
    rw [reverse_cons, ← append_assoc]
    refine .token (ih (fun u hu => hrest u (.tail _ hu))) ?_ ?_ <;>
      rcases hrest t (.head _) with ⟨s, rfl⟩ | ⟨reason, rfl⟩ <;> trivial

lemma Outside.finish (h : l.Outside) : Ordered l.finish.done.reverse := by
  have hstate := h.state
  by_cases htext : l.state.isRaw = true ∨ ∃ tag, l.state.tag? = some tag
  · exact h.leaves (leaves_finish htext)
  unfold Lexer.finish
  cases hs : l.state with
  | markupDeclaration text =>
    rw [hs] at hstate
    exact (h.stepBogusComment (c := '>') hstate (by decide)).done
  | bogusComment text =>
    rw [hs] at hstate
    exact (h.stepBogusComment (c := '>') hstate (by decide)).done
  | behindDoctypeName letters? part =>
    rw [hs] at hstate
    have hdoctype := (h.emitDoctype hstate).done
    have htruncated := h.leaves (leaves_truncate l unexpectedEnd)
    cases part with
    | name seen => cases seen <;> assumption
    | bogus => exact hdoctype
    | _ => exact htruncated
  | _ =>
    -- The states of raw text are left; the others are cut short.
    first
      | exact h.leaves (leaves_truncate l _)
      | exact absurd (.inl (by rw [hs]; rfl)) htext

/-- Tokens of a source: either it ends where text is read as markup, or inside an element whose text is not. -/
inductive Scanned : List Token → Prop
  | complete {ts : List Token} (h : Ordered ts) : Scanned ts
  | cut {ts rest : List Token} {tag : String} {attributes : List (String × String)} (h : Ordered ts)
    (htag : IsTagName tag.toList) (hraw : contentOf tag ≠ .normal) (hrest : ∀ t ∈ rest, IsRest t) :
    Scanned (ts ++ .startTag tag attributes false :: rest)

lemma Sound.finish (h : l.Sound) : Scanned l.finish.done.reverse := by
  rcases h with h | h
  · exact .complete h.finish
  · have htext : l.state.isRaw = true ∨ ∃ tag, l.state.tag? = some tag := by
      cases h.text with
      | text hraw => exact .inl hraw
      | tag htag => exact .inr ⟨_, htag⟩
    obtain ⟨rest, hdone, hrest⟩ := leaves_finish htext
    obtain ⟨ts, attributes, hts, hordered⟩ := h.done
    rw [hdone, reverse_append, hts, append_assoc]
    exact .cut hordered h.tag h.raw (fun t ht => hrest t (mem_reverse.1 ht))

end

end Lexer

lemma not_mem_line (cs : List Char) : '\r' ∉ unifyLines cs := by
  fun_induction unifyLines cs with
  | case1 cs ih => simpa using ih
  | case2 cs _ ih => simpa using ih
  | case3 c cs _ hc ih =>
    rw [mem_cons, not_or]
    exact ⟨fun h => hc h.symm, ih⟩
  | case4 => exact not_mem_nil

lemma Lexer.sound_start : ({} : Lexer).Sound := .inl ⟨rfl, trivial, .nil⟩

lemma scanned_tokens (source : String) : Scanned (tokens source) := (sound_start.run (not_mem_line _)).finish

end ReactiveTemplate.Markup
