import ReactiveTemplate.Proofs.Markup.Spelling
/-!
# Reading — what a step of the reader does

One lemma for each region of the reader says what a character does there: in comments and raw text what has been read
leads back to where the reader stands (`Reaches`), a tag only gets attributes (`tagStep`), raw text goes on or ends
(`rawStep`).
-/
set_option linter.all false

namespace ReactiveTemplate.Markup.Lexer
open List

/-! ## Characters -/

lemma shown_ne (c : Char) : shown c ≠ '\x00' := by
  unfold shown
  split
  · decide
  · assumption

variable {c d : Char} {s : State} {cs text : List Char} {l : Lexer}

lemma shown_of_ne (h : c ≠ '\x00') : shown c = c := if_neg h

lemma shown_eq_iff (hd : d ≠ '\ufffd') (hd' : d ≠ '\x00') : shown c = d ↔ c = d := by
  unfold shown
  split
  · rename_i h
    rw [h]
    exact ⟨fun h => absurd h.symm hd, fun h => absurd h.symm hd'⟩
  · exact Iff.rfl

lemma shown_shown (c : Char) : shown (shown c) = shown c := shown_of_ne (shown_ne c)

lemma toLower_of_not_isUpper (h : c.isUpper = false) : c.toLower = c := by
  simp only [Char.isUpper, decide_eq_false_iff_not] at h
  exact dif_neg h

lemma toNat_toLower (h : c.isUpper = true) : 97 ≤ c.toLower.toNat ∧ c.toLower.toNat ≤ 122 := by
  simp only [Char.isUpper, decide_eq_true_eq] at h
  have hval : c.toLower.val = c.val + 32 := by
    rw [Char.toLower, dif_pos h]
    rfl
  have h1 : 65 ≤ c.val.toNat := h.1
  have h2 : c.val.toNat ≤ 90 := h.2
  have hsum : c.toLower.toNat = c.val.toNat + 32 := by
    show c.toLower.val.toNat = _
    rw [hval]
    show (c.val.toNat + 32) % 4294967296 = _
    omega
  omega

lemma eq_of_toLower_eq (hd : d.toNat < 97 ∨ 122 < d.toNat) (h : c.toLower = d) : c = d := by
  cases hc : c.isUpper with
  | false => rwa [toLower_of_not_isUpper hc] at h
  | true =>
    have := toNat_toLower hc
    rw [h] at this
    omega

lemma toLower_toLower (c : Char) : c.toLower.toLower = c.toLower := by
  cases hc : c.isUpper with
  | false => rw [toLower_of_not_isUpper hc, toLower_of_not_isUpper hc]
  | true =>
    refine toLower_of_not_isUpper ?_
    have := (toNat_toLower hc).1
    simp only [Char.isUpper, decide_eq_false_iff_not, not_and_or]
    right
    show ¬ c.toLower.toNat ≤ 90
    omega

lemma eq_of_lower_eq (hd : d.toNat < 97 ∨ 122 < d.toNat) (hd' : d ≠ '\ufffd')
    (h : (shown c).toLower = d) : c = d := by
  have hshown := eq_of_toLower_eq hd h
  unfold shown at hshown
  split at hshown
  · exact absurd hshown.symm hd'
  · exact hshown

lemma lower_lower (c : Char) : (shown (shown c).toLower).toLower = (shown c).toLower := by
  have hne : (shown c).toLower ≠ '\x00' := fun h => shown_ne c (eq_of_toLower_eq (by decide) h)
  rw [shown_of_ne hne, toLower_toLower]

lemma isSpace_lower (h : isSpace c = false) : isSpace (shown c).toLower = false := by
  cases hspace : isSpace (shown c).toLower with
  | false => rfl
  | true =>
    simp only [isSpace, Bool.or_eq_true, beq_iff_eq] at hspace
    rcases hspace with ((hd | hd) | hd) | hd <;>
      · rw [eq_of_lower_eq (by decide) (by decide) hd] at h
        exact absurd h (by decide)

lemma isKept_lower (hspace : isSpace c = false) (hslash : c ≠ '/') (hend : c ≠ '>') (hline : c ≠ '\r') :
    isKept (shown c).toLower = true :=
  isKept_iff.2 ⟨lower_lower c, isSpace_lower hspace, fun h => hslash (eq_of_lower_eq (by decide) (by decide) h),
    fun h => hend (eq_of_lower_eq (by decide) (by decide) h), fun h => hline (eq_of_lower_eq (by decide) (by decide) h)⟩

/-! ## Comments -/

def State.commentText? : State → Option (List Char)
  | .commentStart => some []
  | .commentStartDash => some ['-']
  | .comment text => some text
  | .commentEndDash text => some ('-' :: text)
  | .commentEnd text => some ('-' :: '-' :: text)
  | .commentEndBang text => some ('!' :: '-' :: '-' :: text)
  | _ => none

lemma run_dashes (h : s.commentText? = some text) (l : Lexer) :
    (l.goto s).run ['-', '-'] = l.goto (.commentEnd text) := by
  cases s <;> cases h <;> rfl

lemma step_commentText (h : s.commentText? = some text) (hc : c ≠ '>') : ∃ s' : State,
    s'.commentText? = some (shown c :: text) ∧ (∀ body, s' = .commentEndBang body → s = .commentEnd body) ∧
      ∀ l : Lexer, (l.goto s).step c = l.goto s' := by
  by_cases hdash : c = '-'
  · subst hdash
    cases s <;> cases h <;> exact ⟨_, rfl, fun _ hs => (by cases hs), fun _ => rfl⟩
  by_cases hbang : c = '!'
  · subst hbang
    cases s <;> cases h <;> exact ⟨_, rfl, fun _ hs => (by cases hs <;> rfl), fun _ => rfl⟩
  have hcomment : ∃ text', s.commentText? = some text' ∧
      ∀ l : Lexer, (l.goto s).step c = l.goto (.comment (shown c :: text')) := by
    cases s <;> cases h <;> refine ⟨_, rfl, fun l => ?_⟩ <;>
      simp [step, stepCommentStart, stepCommentStartDash, stepComment, stepCommentEndDash, stepCommentEnd,
        stepCommentEndBang, hc, hdash, hbang]
  obtain ⟨text', htext, hstep⟩ := hcomment
  cases h.symm.trans htext
  exact ⟨_, rfl, fun _ hs => (by cases hs), hstep⟩

lemma commentText_of_not_mem (h : ∀ c ∈ cs, c ≠ '>' ∧ shown c = c) : CommentText cs := by
  have hrun : ∀ (s : State) (text : List Char), s.commentText? = some text →
      ∃ s' : State, s'.commentText? = some (cs.reverse ++ text) ∧ ∀ l : Lexer, (l.goto s).run cs = l.goto s' := by
    induction cs with
    | nil => exact fun s text hs => ⟨s, hs, fun _ => rfl⟩
    | cons c cs ih =>
      intro s text hs
      obtain ⟨hend, hshown⟩ := h c (.head _)
      obtain ⟨s₁, hs₁, -, hstep⟩ := step_commentText hs hend
      rw [hshown] at hs₁
      obtain ⟨s₂, hs₂, hrest⟩ := ih (fun d hd => h d (.tail _ hd)) s₁ _ hs₁
      refine ⟨s₂, by rw [hs₂, reverse_cons, append_assoc]; rfl, fun l => ?_⟩
      rw [run_cons, hstep, hrest]
  obtain ⟨s, hs, hrun⟩ := hrun .commentStart [] rfl
  intro l
  rw [append_nil] at hs
  rw [run_append, hrun, run_dashes hs]

def State.Reached (s : State) : Prop :=
  ∀ text, s.commentText? = some text → ∀ l : Lexer, (l.goto .commentStart).run text.reverse = l.goto s

lemma State.Reached.commentText (h : (State.commentEnd text).Reached) : CommentText text.reverse := by
  intro l
  have hrun := h _ rfl l
  rw [reverse_reverse]
  rwa [reverse_cons, reverse_cons, append_assoc] at hrun

lemma step_shown_comment (hs : s.commentText? = some text) (l : Lexer) (c : Char) :
    (l.goto s).step (shown c) = (l.goto s).step c := by
  have hdash : shown c = '-' ↔ c = '-' := shown_eq_iff (by decide) (by decide)
  have hbang : shown c = '!' ↔ c = '!' := shown_eq_iff (by decide) (by decide)
  have hend : shown c = '>' ↔ c = '>' := shown_eq_iff (by decide) (by decide)
  cases s <;> cases hs <;>
    simp only [step, state_goto, stepCommentStart, stepCommentStartDash, stepComment, stepCommentEndDash, stepCommentEnd,
      stepCommentEndBang, hdash, hbang, hend, shown_shown]

lemma State.Reached.step {t : State} (h : s.Reached) (hs : s.commentText? = some text)
    (ht : t.commentText? = some (shown c :: text)) (hstep : ∀ l : Lexer, (l.goto s).step c = l.goto t) : t.Reached := by
  intro text' htext' l
  cases ht.symm.trans htext'
  rw [reverse_cons, run_append, h text hs, run_cons, run_nil, step_shown_comment hs, hstep]

/-! ## Comments and doctypes as a whole -/

def State.isNote : State → Bool
  | .markupDeclaration _ | .bogusComment _ | .commentStart | .commentStartDash | .comment _ | .commentEndDash _
  | .commentEnd _ | .commentEndBang _ | .doctype | .beforeDoctypeName | .doctypeName _ | .behindDoctypeName _ _ => true
  | _ => false

inductive NoteStep (l : Lexer) : Lexer → Prop
  | goto {s : State} (hs : s.isNote = true) : NoteStep l (l.goto s)
  | comment (text : List Char) : NoteStep l (l.emitComment text)
  | doctype (name : Option (List Char)) : NoteStep l (l.emitDoctype name)

lemma noteStep (h : l.state.isNote = true) (c : Char) : NoteStep l (l.step c) := by
  unfold step
  split <;> rename_i hs <;> rw [hs] at h <;> cases h
  all_goals
    simp only [stepMarkupDeclaration, stepBogusComment, stepCommentStart, stepCommentStartDash, stepComment,
      stepCommentEndDash, stepCommentEnd, stepCommentEndBang, stepDoctype, stepBeforeDoctypeName, stepDoctypeName,
      stepBehindDoctypeName]
    repeat' split
  -- Every branch goes on inside of the comment or doctype, or hands it out.
  all_goals first | exact .goto rfl | exact .comment _ | exact .doctype _

/-! ## Tags -/

def State.tag? : State → Option Draft
  | .beforeName tag => some tag
  | .name tag _ => some tag
  | .afterName tag _ => some tag
  | .beforeValue tag _ => some tag
  | .value _ tag _ _ => some tag
  | .afterValue tag => some tag
  | .selfClosing tag => some tag
  | _ => none

structure Draft.Alike (tag tag' : Draft) : Prop where
  closing : tag'.closing = tag.closing
  name : tag'.name = tag.name

lemma Draft.Alike.refl (tag : Draft) : tag.Alike tag := ⟨rfl, rfl⟩

lemma Draft.Alike.add (tag : Draft) (name value : List Char) : tag.Alike (tag.add name value) := by
  unfold Draft.add
  dsimp only
  split <;> exact ⟨rfl, rfl⟩

/-- The name of an attribute: an `=` may only be its first character. -/
structure IsAttributeName (cs : List Char) : Prop where
  ne_nil : cs ≠ []
  kept : ∀ c ∈ cs, isKept c = true
  tail : '=' ∉ cs.tail

lemma isAttributeName_single {c : Char} (hspace : isSpace c = false) (hslash : c ≠ '/') (hend : c ≠ '>')
    (hline : c ≠ '\r') : IsAttributeName [(shown c).toLower] :=
  ⟨cons_ne_nil _ _, forall_mem_singleton.2 (isKept_lower hspace hslash hend hline), not_mem_nil⟩

lemma IsAttributeName.snoc {cs : List Char} {c : Char} (h : IsAttributeName cs) (hkept : isKept c = true)
    (hc : c ≠ '=') : IsAttributeName (cs ++ [c]) := by
  obtain ⟨d, rest, rfl⟩ := exists_cons_of_ne_nil h.ne_nil
  refine ⟨cons_ne_nil _ _, fun x hx => ?_, ?_⟩
  · rcases mem_append.1 hx with hx | hx
    · exact h.kept x hx
    · rwa [mem_singleton.1 hx]
  · have htail : '=' ∉ rest := h.tail
    simpa [htail] using Ne.symm hc

structure TidyAttributes {α : Type} (value : α → List Char) (attributes : List (String × α)) : Prop where
  nodup : (attributes.map (·.1)).Nodup
  each : ∀ a ∈ attributes, IsAttributeName a.1.toList ∧ '\x00' ∉ value a.2

def Draft.Tidy (tag : Draft) : Prop := TidyAttributes id tag.attributes

lemma Draft.tidy_nil (closing : Bool) (name : List Char) : (Draft.mk closing name []).Tidy :=
  ⟨nodup_nil, nofun⟩

lemma Draft.Tidy.add {tag : Draft} (h : tag.Tidy) {name value : List Char} (hname : IsAttributeName name.reverse)
    (hvalue : '\x00' ∉ value) : (tag.add name value).Tidy := by
  unfold Draft.add
  dsimp only
  split
  · exact h
  rename_i hnew
  have hfresh : String.ofList name.reverse ∉ tag.attributes.map (·.1) := by
    intro hmem
    obtain ⟨a, ha, hname⟩ := mem_map.1 hmem
    exact hnew (any_eq_true.2 ⟨a, ha, beq_iff_eq.2 hname⟩)
  refine ⟨?_, fun a ha => ?_⟩
  · rw [map_append, nodup_append]
    refine ⟨h.nodup, nodup_cons.2 ⟨not_mem_nil, nodup_nil⟩, fun x hx y hy hxy => ?_⟩
    cases mem_singleton.1 hy
    subst hxy
    exact hfresh hx
  · rcases mem_append.1 ha with ha | ha
    · exact h.each a ha
    · rw [mem_singleton.1 ha]
      exact ⟨by rwa [String.toList_ofList], by simpa using hvalue⟩

def State.Tidy : State → Prop
  | .tagName tag | .beforeName tag | .afterValue tag | .selfClosing tag => tag.Tidy
  | .name tag letters | .afterName tag letters | .beforeValue tag letters => tag.Tidy ∧ IsAttributeName letters.reverse
  | .value _ tag letters read => tag.Tidy ∧ IsAttributeName letters.reverse ∧ '\x00' ∉ read
  | _ => True

/-- What a step in a tag does; if it is tidy so far, it stays so. -/
inductive TagStep (l : Lexer) (tag : Draft) (tidy : Prop) : Lexer → Prop
  | goto {s : State} {tag' : Draft} (hs : s.tag? = some tag') (halike : tag.Alike tag') (htidy : tidy → s.Tidy) :
    TagStep l tag tidy (l.goto s)
  | emit {tag' : Draft} (selfClosing : Bool) (halike : tag.Alike tag') (htidy : tidy → tag'.Tidy) :
    TagStep l tag tidy (l.emitTag tag' selfClosing)

section

variable {tag : Draft} {tidy : Prop} {name value : List Char}

lemma tagStep_beforeName (l : Lexer) (htag : tidy → tag.Tidy) (hc : tidy → c ≠ '\r') :
    TagStep l tag tidy (l.stepBeforeName tag c) := by
  unfold stepBeforeName
  split
  · exact .goto rfl (.refl _) htag
  rename_i hspace
  split
  · exact .goto rfl (.refl _) htag
  rename_i hslash
  split
  · exact .emit _ (.refl _) htag
  rename_i hend
  exact .goto rfl (.refl _) fun h => ⟨htag h, isAttributeName_single (by simpa using hspace) hslash hend (hc h)⟩

lemma tagStep_value (l : Lexer) (quote : Quote) (htag : tidy → tag.Tidy) (hname : tidy → IsAttributeName name.reverse)
    (hvalue : tidy → '\x00' ∉ value) (c : Char) : TagStep l tag tidy (l.stepValue quote tag name value c) := by
  have hadd : tidy → (tag.add name value).Tidy := fun h => (htag h).add (hname h) (hvalue h)
  have hmore : tidy → State.Tidy (.value quote tag name (shown c :: value)) := fun h =>
    ⟨htag h, hname h, not_mem_cons_of_ne_of_not_mem (Ne.symm (shown_ne c)) (hvalue h)⟩
  unfold stepValue
  split
  · split
    · exact .goto rfl (.add _ _ _) hadd
    · exact .goto rfl (.refl _) hmore
  · split
    · exact .goto rfl (.add _ _ _) hadd
    · exact .goto rfl (.refl _) hmore
  · split
    · exact .goto rfl (.add _ _ _) hadd
    split
    · exact .emit _ (.add _ _ _) hadd
    · exact .goto rfl (.refl _) hmore

lemma tagStep_name (l : Lexer) (h : tidy → tag.Tidy ∧ IsAttributeName name.reverse) (hc : tidy → c ≠ '\r') :
    TagStep l tag tidy (l.stepName tag name c) ∧ TagStep l tag tidy (l.stepAfterName tag name c) := by
  have hadd : tidy → (tag.add name []).Tidy := fun ht => (h ht).1.add (h ht).2 not_mem_nil
  unfold stepName stepAfterName
  split
  · exact ⟨.goto rfl (.refl _) h, .goto rfl (.refl _) h⟩
  rename_i hspace
  split
  · exact ⟨.goto rfl (.add _ _ _) hadd, .goto rfl (.add _ _ _) hadd⟩
  rename_i hslash
  split
  · exact ⟨.goto rfl (.refl _) h, .goto rfl (.refl _) h⟩
  rename_i heq
  split
  · exact ⟨.emit _ (.add _ _ _) hadd, .emit _ (.add _ _ _) hadd⟩
  rename_i hend
  have hspace : isSpace c = false := by simpa using hspace
  refine ⟨.goto rfl (.refl _) fun ht => ⟨(h ht).1, ?_⟩, .goto rfl (.add _ _ _) fun ht =>
    ⟨hadd ht, isAttributeName_single hspace hslash hend (hc ht)⟩⟩
  rw [reverse_cons]
  exact (h ht).2.snoc (isKept_lower hspace hslash hend (hc ht))
    (fun hlower => heq (eq_of_lower_eq (by decide) (by decide) hlower))

lemma tagStep (h : l.state.tag? = some tag) (c : Char) : TagStep l tag (l.state.Tidy ∧ c ≠ '\r') (l.step c) := by
  unfold step
  split <;> rename_i hs <;> rw [hs] at h ⊢ <;> cases h
  · exact tagStep_beforeName l And.left And.right
  · exact (tagStep_name l And.left And.right).1
  · exact (tagStep_name l And.left And.right).2
  · unfold stepBeforeValue
    split
    · exact .goto rfl (.refl _) And.left
    split
    · exact .goto rfl (.refl _) fun ht => ⟨ht.1.1, ht.1.2, not_mem_nil⟩
    split
    · exact .goto rfl (.refl _) fun ht => ⟨ht.1.1, ht.1.2, not_mem_nil⟩
    split
    · exact .emit _ (.add _ _ _) fun ht => ht.1.1.add ht.1.2 not_mem_nil
    · exact tagStep_value l .blank (·.1.1) (·.1.2) (fun _ => not_mem_nil) c
  · exact tagStep_value l _ (·.1.1) (·.1.2.1) (·.1.2.2) c
  · exact tagStep_beforeName l And.left And.right
  · unfold stepSelfClosing
    split
    · exact .emit _ (.refl _) And.left
    · exact tagStep_beforeName l And.left And.right

end

/-! ## Text that is not read as markup -/

def State.isRaw : State → Bool
  | .content _ | .rawLessThan _ | .rawEndTagOpen _ | .rawEndTagName _ _ | .escapeStart | .escapeStartDash
  | .escapedDash _ | .escapedDashDash _ | .twiceStart _ | .twiceEnd _ => true
  | _ => false

def State.unread : State → List Char
  | .rawLessThan .twice => []
  | .rawLessThan _ => ['<']
  | .rawEndTagOpen _ => ['<', '/']
  | .rawEndTagName _ letters => '<' :: '/' :: letters.reverse
  | _ => []

def State.opens? : State → Option Escape
  | .rawLessThan .twice => none
  | .rawLessThan e => some e
  | .rawEndTagOpen e => some e
  | .rawEndTagName e _ => some e
  | _ => none

/-- A step in text that is not read as markup: it goes to a state and adds characters, in reverse, to the text, and
together they are what has been read. -/
structure Adds (content : Content) (tag : String) (f : Lexer → Lexer) (read : List Char) (s : State) (add : List Char) :
    Prop where
  step : ∀ l : Lexer, l.content = content → l.lastStart = tag →
    f l = { l with state := s, pending := add ++ l.pending }
  raw : s.isRaw = true
  read : add.reverse ++ s.unread = read
  opens : ∀ e, s.opens? = some e → e ≠ .twice ∧ s = .rawLessThan e

section

variable {content : Content} {tag : String} {f : Lexer → Lexer}

lemma Adds.pushAll {read : List Char} {s : State} {add : List Char} (h : Adds content tag f read s add)
    (cs : List Char) : Adds content tag (fun l => f (l.pushAll cs)) (cs ++ read) s (add ++ cs.reverse) where
  step l hl htag := by
    refine (h.step (l.pushAll cs) hl htag).trans ?_
    rw [append_assoc]
    rfl
  raw := h.raw
  read := by rw [reverse_append, reverse_reverse, append_assoc, h.read]
  opens := h.opens

lemma adds_pushAll {s : State} (cs : List Char) (hraw : s.isRaw = true) (hunread : s.unread = [])
    (hopens : s.opens? = none) (h : ∀ l : Lexer, l.content = content → f l = (l.pushAll cs).goto s) :
    Adds content tag f cs s cs.reverse where
  step l hl _ := h l hl
  raw := hraw
  read := by rw [hunread, append_nil, reverse_reverse]
  opens e he := by rw [hopens] at he; cases he

lemma adds_lt {e : Escape} (he : e ≠ .twice) (h : ∀ l : Lexer, l.content = content → f l = l.goto (.rawLessThan e)) :
    Adds content tag f ['<'] (.rawLessThan e) [] where
  step l hl _ := h l hl
  raw := rfl
  read := by cases e <;> first | rfl | exact absurd rfl he
  opens e' he' := by
    cases e <;> cases he' <;> exact ⟨he, rfl⟩

end

lemma adds_stepContent {content : Content} (hcontent : content ≠ .normal) (tag : String) (e : Escape) (c : Char) :
    ∃ s add, Adds content tag (fun l => l.stepContent e c) [shown c] s add := by
  have hne : ∀ {l : Lexer}, l.content = content → l.content ≠ .normal := fun hl => hl ▸ hcontent
  by_cases hlt : c = '<'
  · subst hlt
    cases e with
    | none => exact ⟨.rawLessThan .none, _, adds_lt (by decide) fun l hl => by simp [stepContent, hne hl]⟩
    | once => exact ⟨.rawLessThan .once, _, adds_lt (by decide) fun l hl => by simp [stepContent, hne hl]⟩
    | twice =>
      refine ⟨.rawLessThan .twice, _, adds_pushAll ['<'] rfl rfl rfl fun l hl => ?_⟩
      simp [stepContent, hne hl]
      rfl
  by_cases hdash : c = '-'
  · subst hdash
    refine ⟨if e = .none then .content .none else .escapedDash e, _, adds_pushAll ['-'] ?_ ?_ ?_ fun l hl => ?_⟩
    case refine_4 => cases e <;> simp [stepContent, hne hl] <;> rfl
    all_goals cases e <;> rfl
  · refine ⟨.content e, _, adds_pushAll [shown c] rfl rfl rfl fun l hl => ?_⟩
    cases e <;> simp [stepContent, hne hl, hlt, hdash] <;> rfl

inductive RawStep (content : Content) (tag : String) (s : State) (c : Char) : Prop
  | adds {t : State} {add : List Char}
    (h : Adds content tag (fun l => (l.goto s).step c) (s.unread ++ [shown c]) t add)
  | opens {t : State} {e : Escape} (hs : s.opens? = some e) (ht : t.opens? = some e) (hraw : t.isRaw = true)
    (hunread : t.unread = s.unread ++ [c]) (hshown : shown c = c) (h : ∀ l : Lexer, (l.goto s).step c = l.goto t)
  | leaves {e : Escape} {letters : List Char} (hs : s = .rawEndTagName e letters)
    (hfits : (letters.map Char.toLower).reverse = tag.toList)
    (h : ∀ l : Lexer, l.lastStart = tag → TagStep l ⟨true, letters.map Char.toLower, []⟩ False ((l.goto s).step c))

lemma shown_of_endsWord (h : endsWord c = true) : shown c = c :=
  shown_of_ne (ne_of_isClass h (by decide))

section

variable {content : Content} {tag : String} {s : State} {c : Char}

lemma rawStep_pushAll {t : State} (cs : List Char) (hread : s.unread ++ [shown c] = cs) (hraw : t.isRaw = true)
    (hunread : t.unread = []) (hopens : t.opens? = none)
    (h : ∀ l : Lexer, l.content = content → (l.goto s).step c = (l.pushAll cs).goto t) : RawStep content tag s c :=
  .adds (hread ▸ adds_pushAll cs hraw hunread hopens h)

lemma rawStep_content (hcontent : content ≠ .normal) (e : Escape)
    (h : ∀ l : Lexer, l.content = content → l.lastStart = tag →
      (l.goto s).step c = ((l.goto s).pushAll s.unread).stepContent e c) :
    RawStep content tag s c := by
  obtain ⟨s', add, hadds⟩ := adds_stepContent hcontent tag e c
  have hpush := hadds.pushAll s.unread
  exact .adds ⟨fun l hl htag => (h l hl htag).trans (hpush.step (l.goto s) hl htag), hpush.raw, hpush.read, hpush.opens⟩

lemma rawStep_lessThan (hcontent : content ≠ .normal) (e : Escape) : RawStep content tag (.rawLessThan e) c := by
  by_cases hslash : c = '/'
  · subst hslash
    cases e with
    | none => exact .opens rfl rfl rfl rfl rfl fun _ => rfl
    | once => exact .opens rfl rfl rfl rfl rfl fun _ => rfl
    | twice => exact rawStep_pushAll ['/'] rfl rfl rfl rfl fun _ _ => rfl
  cases e with
  | none =>
    by_cases hbang : c = '!' ∧ content = .script
    · obtain ⟨rfl, rfl⟩ := hbang
      refine rawStep_pushAll ['<', '!'] rfl (t := .escapeStart) rfl rfl rfl fun l hl => ?_
      simp [step, stepRawLessThan, hl]
      rfl
    · refine rawStep_content hcontent .none fun l hl _ => ?_
      have hno : (decide (c = '!') && l.content == .script) = false := by
        rw [hl]
        simpa using hbang
      simp [step, stepRawLessThan, hslash, hno]
      rfl
  | once =>
    by_cases halpha : c.isAlpha = true
    · refine rawStep_pushAll ['<', c] (by rw [shown_of_isAlpha halpha]; rfl) (t := .twiceStart [c.toLower]) rfl rfl rfl
        fun l hl => ?_
      simp [step, stepRawLessThan, hslash, halpha]
      rfl
    · refine rawStep_content hcontent .once fun l hl _ => ?_
      simp [step, stepRawLessThan, hslash, halpha]
      rfl
  | twice =>
    refine rawStep_content hcontent .twice fun l hl _ => ?_
    simp [step, stepRawLessThan, hslash]
    rfl

lemma rawStep_endTagOpen (hcontent : content ≠ .normal) (e : Escape) : RawStep content tag (.rawEndTagOpen e) c := by
  by_cases halpha : c.isAlpha = true
  · refine .opens rfl (t := .rawEndTagName e [c]) rfl rfl rfl (shown_of_isAlpha halpha) fun l => ?_
    simp [step, halpha]
  · refine rawStep_content hcontent e fun l hl _ => ?_
    simp [step, halpha]
    rfl

lemma rawStep_endTagName (hcontent : content ≠ .normal) (e : Escape) (letters : List Char) :
    RawStep content tag (.rawEndTagName e letters) c := by
  by_cases hends : (letters.map Char.toLower).reverse = tag.toList ∧ endsWord c = true
  · obtain ⟨hfits, hends⟩ := hends
    refine .leaves rfl hfits fun l hl => ?_
    have htag : (String.ofList (letters.map Char.toLower).reverse == l.lastStart) = true := by
      rw [hl, hfits, String.ofList_toList, beq_self_eq_true]
    show TagStep l _ False ((l.goto _).stepRawEndTagName e letters c)
    simp only [stepRawEndTagName, lastStart_goto, htag]
    simp only [endsWord, Bool.or_eq_true, beq_iff_eq] at hends
    split
    · exact .goto rfl (.refl _) False.elim
    rename_i hspace
    split
    · exact .goto rfl (.refl _) False.elim
    rename_i hslash
    have hend : c = '>' := (hends.resolve_left (not_or.2 ⟨hspace, by simpa using hslash⟩))
    rw [if_pos (by simpa using hend), emitTag_goto]
    exact .emit _ (.refl _) False.elim
  have hno : ∀ l : Lexer, l.lastStart = tag → ∀ b : Bool, (b = true → endsWord c = true) →
      (String.ofList (letters.map Char.toLower).reverse == l.lastStart && b) = false := by
    intro l hl b hb
    cases hbool : (String.ofList (letters.map Char.toLower).reverse == l.lastStart && b) with
    | false => rfl
    | true =>
      rw [Bool.and_eq_true, beq_iff_eq, hl] at hbool
      exact absurd ⟨by rw [← hbool.1, String.toList_ofList], hb hbool.2⟩ hends
  by_cases halpha : c.isAlpha = true
  · refine .opens rfl (t := .rawEndTagName e (c :: letters)) rfl rfl (by simp [State.unread]) (shown_of_isAlpha halpha)
      fun l => ?_
    exact run_rawEndTagName l e letters (forall_mem_singleton.2 halpha)
  · refine rawStep_content hcontent e fun l hl htag => ?_
    show (l.goto _).stepRawEndTagName e letters c = _
    simp only [stepRawEndTagName, lastStart_goto, halpha,
      hno l htag (isSpace c) (fun h => by simp [endsWord, h]),
      hno l htag (decide (c = '/')) (fun h => by simp [endsWord, of_decide_eq_true h]),
      hno l htag (decide (c = '>')) (fun h => by simp [endsWord, of_decide_eq_true h])]
    rfl

lemma rawStep_dash (hcontent : content ≠ .normal) {d : State} (hd : d.isRaw = true) (hunread : d.unread = [])
    (hopens : d.opens? = none) (hs : s.unread = [])
    (h : ∀ l : Lexer, (l.goto s).step c = if c = '-' then ((l.goto s).push c).goto d else (l.goto s).stepContent .none c) :
    RawStep content tag s c := by
  by_cases hdash : c = '-'
  · subst hdash
    refine rawStep_pushAll ['-'] (by rw [hs]; rfl) hd hunread hopens fun l hl => ?_
    rw [h]
    rfl
  · refine rawStep_content hcontent .none fun l hl _ => ?_
    rw [h, if_neg hdash, hs]
    rfl

lemma rawStep_escapedDash (hs : s.unread = []) (e : Escape) (twoDashes : Bool)
    (h : ∀ l : Lexer, (l.goto s).step c = (l.goto s).stepEscapedDash twoDashes e c) :
    RawStep content tag s c := by
  by_cases hdash : c = '-'
  · subst hdash
    refine rawStep_pushAll ['-'] (by rw [hs]; rfl) (t := .escapedDashDash e) rfl rfl rfl fun l hl => ?_
    rw [h]
    rfl
  by_cases hlt : c = '<'
  · subst hlt
    by_cases he : e = .twice
    · subst he
      refine rawStep_pushAll ['<'] (by rw [hs]; rfl) (t := .rawLessThan .twice) rfl rfl rfl fun l hl => ?_
      rw [h]
      rfl
    · have hadds : Adds content tag (fun l => (l.goto s).step '<') ['<'] (.rawLessThan e) [] := adds_lt he fun l _ => by
        rw [h]
        simp [stepEscapedDash, he]
      exact .adds (by rw [hs]; exact hadds)
  by_cases hend : twoDashes = true ∧ c = '>'
  · obtain ⟨rfl, rfl⟩ := hend
    refine rawStep_pushAll ['>'] (by rw [hs]; rfl) (t := .content .none) rfl rfl rfl fun l hl => ?_
    rw [h]
    rfl
  · refine rawStep_pushAll [shown c] (by rw [hs]; rfl) (t := .content e) rfl rfl rfl fun l hl => ?_
    have hno : (twoDashes && decide (c = '>')) = false := by simpa using hend
    rw [h]
    simp [stepEscapedDash, hdash, hlt, hno]
    rfl

lemma rawStep_twice (hcontent : content ≠ .normal) (hs : s.unread = []) (starts : Bool) (letters : List Char)
    (h : ∀ l : Lexer, (l.goto s).step c = (l.goto s).stepTwice starts letters c) : RawStep content tag s c := by
  by_cases hends : endsWord c = true
  · refine rawStep_pushAll [c] (by rw [hs, shown_of_endsWord hends]; rfl)
      (t := .content (if letters.reverse = "script".toList then (if starts then .twice else .once)
        else (if starts then .once else .twice))) rfl rfl rfl fun l hl => ?_
    rw [h]
    simp only [stepTwice, hends]
    rfl
  by_cases halpha : c.isAlpha = true
  · refine rawStep_pushAll [c] (by rw [hs, shown_of_isAlpha halpha]; rfl)
      (t := if starts then .twiceStart (c.toLower :: letters) else .twiceEnd (c.toLower :: letters)) ?_ ?_ ?_
      fun l hl => ?_
    case refine_4 =>
      rw [h]
      simp only [stepTwice, hends, halpha]
      rfl
    all_goals cases starts <;> rfl
  · refine rawStep_content hcontent (if starts then .once else .twice) fun l hl _ => ?_
    rw [h, hs]
    simp only [stepTwice, hends, halpha]
    rfl

lemma rawStep (hcontent : content ≠ .normal) (hs : s.isRaw = true) : RawStep content tag s c := by
  cases s with
  | content e => exact rawStep_content hcontent e fun _ _ _ => rfl
  | rawLessThan e => exact rawStep_lessThan hcontent e
  | rawEndTagOpen e => exact rawStep_endTagOpen hcontent e
  | rawEndTagName e letters => exact rawStep_endTagName hcontent e letters
  | escapeStart => exact rawStep_dash hcontent rfl rfl rfl rfl fun _ => rfl
  | escapeStartDash => exact rawStep_dash hcontent (d := .escapedDashDash .once) rfl rfl rfl rfl fun _ => rfl
  | escapedDash e => exact rawStep_escapedDash rfl e false fun _ => rfl
  | escapedDashDash e => exact rawStep_escapedDash rfl e true fun _ => rfl
  | twiceStart letters => exact rawStep_twice hcontent rfl true letters fun _ => rfl
  | twiceEnd letters => exact rawStep_twice hcontent rfl false letters fun _ => rfl
  | _ => cases hs

end

lemma stepContent_shown (h : l.content ≠ .normal) (e : Escape) (c : Char) :
    l.stepContent e (shown c) = l.stepContent e c := by
  by_cases hc : c = '\x00'
  · subst hc
    cases e <;> simp [stepContent, shown]
  · rw [shown_of_ne hc]

lemma step_shown (h : l.content ≠ .normal) (hs : l.state.isRaw = true) (c : Char) : l.step (shown c) = l.step c := by
  by_cases hc : c = '\x00'
  · subst hc
    have hcontent : ∀ (m : Lexer) (e : Escape), m.content = l.content →
        m.stepContent e '\ufffd' = m.stepContent e '\x00' := fun m e hm => stepContent_shown (hm ▸ h) e '\x00'
    show l.step '\ufffd' = _
    unfold step
    cases hstate : l.state <;> rw [hstate] at hs <;> first | exact absurd hs Bool.false_ne_true | skip
    case content e => exact hcontent l e rfl
    case rawLessThan e => cases e <;> simp [stepRawLessThan, hcontent, push]
    all_goals simp [stepRawEndTagName, stepEscapedDash, stepTwice, endsWord, isSpace, shown, hcontent, pushAll]
  · rw [shown_of_ne hc]

/-- Characters behind a start tag that lead to a state of its text; all of them go into the text, or wait in the state. -/
def Reaches (tag : String) (cs : List Char) (s : State) : Prop :=
  ∀ l : Lexer, l.state = .content .none → l.content = contentOf tag → l.lastStart = tag →
    ∃ p, l.run cs = { l with state := s, pending := p } ∧ p.reverse ++ s.unread = l.pending.reverse ++ cs.map shown

lemma Reaches.snoc {tag : String} {t : State} (h : Reaches tag cs s)
    (hstep : ∀ l : Lexer, l.content = contentOf tag → l.lastStart = tag →
      ∃ p, (l.goto s).step c = { l with state := t, pending := p } ∧
        p.reverse ++ t.unread = l.pending.reverse ++ (s.unread ++ [shown c])) : Reaches tag (cs ++ [c]) t := by
  intro l hstate hcontent hlast
  obtain ⟨p, hrun, hp⟩ := h l hstate hcontent hlast
  obtain ⟨q, hq, hread⟩ := hstep { l with pending := p } hcontent hlast
  refine ⟨q, by rw [run_append, hrun]; exact hq, ?_⟩
  rw [hread, ← append_assoc, hp, map_append, append_assoc]
  rfl

lemma Reaches.rescans {tag : String} {e : Escape} (hraw : contentOf tag ≠ .normal)
    (h : Reaches tag (cs ++ ['<']) (.rawLessThan e)) (he : e ≠ .twice) : Rescans tag cs := by
  intro l hstate hcontent hlast
  obtain ⟨p, hrun, hread⟩ := h l hstate hcontent hlast
  have hp : p = (cs.map shown).reverse ++ l.pending := by
    have hunread : (State.rawLessThan e).unread = ['<'] := by cases e <;> first | rfl | exact absurd rfl he
    rw [hunread, map_append, ← append_assoc] at hread
    rw [← reverse_inj, append_cancel_right hread, reverse_append, reverse_reverse]
  have hchars : cs ++ closingChars tag.toList = (cs ++ ['<']) ++ ('/' :: tag.toList ++ ['>']) := by simp [closingChars]
  have hlast' : (l.pushAll (cs.map shown)).lastStart = tag := hlast
  rw [hchars, run_append, hrun, hp, ← run_rawClosing he hraw hlast']
  rfl

end ReactiveTemplate.Markup.Lexer
