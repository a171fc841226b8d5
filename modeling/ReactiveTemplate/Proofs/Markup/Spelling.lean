import ReactiveTemplate.Proofs.Markup.Plain
import ReactiveTemplate.Markup.Token
/-!
# Spelling — characters and the markup that they spell out

`Spells cs ts` is a grammar of HTML that leaves text and values open.
-/
set_option linter.all false

namespace ReactiveTemplate.Markup
open List

variable {p : List Char}

def Token.bare? : Token → Option Token
  | .startTag name attributes selfClosing => some (.startTag name (attributes.map (fun a => (a.1, ""))) selfClosing)
  | .text _ => none
  | .ignored => none
  | .truncated _ => none
  | t => some t

/-! ## Line ends -/

lemma unifyLines_cons {c : Char} (h : c ≠ '\r') (cs : List Char) : unifyLines (c :: cs) = c :: unifyLines cs := by
  rw [unifyLines]
  · exact fun _ hc _ => h hc
  · exact h

variable {a tag : List Char} {ts : List Token}

lemma unifyLines_append_of_not_mem (h : '\r' ∉ a) (b : List Char) : unifyLines (a ++ b) = a ++ unifyLines b := by
  induction a with
  | nil => rfl
  | cons c a ih =>
    rw [mem_cons, not_or] at h
    rw [cons_append, unifyLines_cons (Ne.symm h.1), ih h.2, cons_append]

lemma unifyLines_dropMark (hmark : a.head? ≠ some '\ufeff') (hline : '\r' ∉ a) :
    unifyLines (dropMark a) = a := by
  have hdrop : dropMark a = a := by
    unfold dropMark
    split
    · exact absurd rfl hmark
    · rfl
  have hunify := unifyLines_append_of_not_mem hline []
  rw [unifyLines, append_nil] at hunify
  rw [hdrop, hunify]

lemma unifyLines_append_cons {c : Char} (hc : c ≠ '\n') (b a : List Char) :
    unifyLines (a ++ c :: b) = unifyLines a ++ unifyLines (c :: b) := by
  fun_induction unifyLines a with
  | case1 a ih => rw [cons_append, cons_append, unifyLines, ih, cons_append]
  | case2 a hline ih =>
    rw [cons_append, unifyLines, ih, cons_append]
    intro a' ha'
    cases a with
    | nil => exact hc (cons.inj ha').1
    | cons d a => exact hline a (by rw [(cons.inj ha').1])
  | case3 d a _ hline ih =>
    have hd : d ≠ '\r' := fun h => hline h
    rw [cons_append, unifyLines_cons hd, ih, cons_append]
  | case4 => rfl

lemma not_mem_unifyLines {x : Char} (hx : x ≠ '\n') (h : x ∉ a) : x ∉ unifyLines a := by
  fun_induction unifyLines a with
  | case1 a ih => simp_all
  | case2 a _ ih => simp_all
  | case3 c a _ _ ih => simp_all
  | case4 => simp

namespace Lexer

/-! ## Runs -/

@[simp] lemma run_nil (l : Lexer) : l.run [] = l := rfl

@[simp] lemma run_cons (l : Lexer) (c : Char) (cs : List Char) : l.run (c :: cs) = (l.step c).run cs := rfl

lemma run_append (l : Lexer) (a b : List Char) : l.run (a ++ b) = (l.run a).run b := foldl_append

@[simp] lemma state_goto (l : Lexer) (s : State) : (l.goto s).state = s := rfl

@[simp] lemma content_goto (l : Lexer) (s : State) : (l.goto s).content = l.content := rfl

@[simp] lemma lastStart_goto (l : Lexer) (s : State) : (l.goto s).lastStart = l.lastStart := rfl

@[simp] lemma goto_goto (l : Lexer) (s t : State) : (l.goto s).goto t = l.goto t := rfl

lemma pushAll_goto (l : Lexer) (s : State) (cs : List Char) : (l.goto s).pushAll cs = (l.pushAll cs).goto s := rfl

lemma pushAll_cons (l : Lexer) (c : Char) (cs : List Char) : l.pushAll (c :: cs) = (l.push c).pushAll cs := by
  rw [pushAll, reverse_cons, append_assoc]
  rfl

@[simp] lemma content_flush (l : Lexer) : l.flush.content = l.content := by
  rw [flush]
  split <;> rfl

@[simp] lemma pending_flush (l : Lexer) : l.flush.pending = [] := by
  rw [flush]
  split <;> rfl

lemma flush_goto (l : Lexer) (s : State) : (l.goto s).flush = l.flush.goto s := by
  simp only [flush, goto]
  split <;> rfl

@[simp] lemma emit_goto (l : Lexer) (s : State) (t : Token) : (l.goto s).emit t = l.emit t := by
  simp only [emit, flush_goto]
  rfl

@[simp] lemma emitTag_goto (l : Lexer) (s : State) (tag : Draft) (selfClosing : Bool) :
    (l.goto s).emitTag tag selfClosing = l.emitTag tag selfClosing := by
  simp [emitTag]

@[simp] lemma emitComment_goto (l : Lexer) (s : State) (text : List Char) :
    (l.goto s).emitComment text = l.emitComment text := emit_goto l s _

@[simp] lemma emitDoctype_goto (l : Lexer) (s : State) (name : Option (List Char)) :
    (l.goto s).emitDoctype name = l.emitDoctype name := emit_goto l s _

def bare (l : Lexer) : List Token := l.done.filterMap Token.bare?

lemma bare_flush (l : Lexer) : l.flush.bare = l.bare := by
  rw [flush]
  split <;> rfl

lemma bare_pushAll (l : Lexer) (cs : List Char) : (l.pushAll cs).bare = l.bare := rfl

lemma bare_emit (l : Lexer) (t : Token) : (l.emit t).bare = t.bare?.toList ++ l.bare := by
  rw [← bare_flush l]
  simp only [bare, emit, filterMap_cons]
  split <;> rename_i h <;> rw [h] <;> rfl

structure Ready (l : Lexer) : Prop where
  state : l.state = .content .none
  content : l.content = .normal

variable {l : Lexer} {c : Char} {cs : List Char} {s : State} {tag : Draft}

lemma Ready.step_lt (h : l.Ready) : l.step '<' = l.goto .tagOpen := by
  rw [Lexer.step, h.state]
  simp [stepContent, h.content]

lemma Ready.step_of_ne (h : l.Ready) (hc : c ≠ '<') :
    l.step c = if c = '\x00' then l.emit .ignored else (l.push c).goto (.content .none) := by
  rw [Lexer.step, h.state]
  simp [stepContent, h.content, hc]

lemma Ready.emit (h : l.Ready) (t : Token) : (l.emit t).Ready :=
  ⟨rfl, (content_flush l).trans h.content⟩

lemma Ready.step (h : l.Ready) (hc : c ≠ '<') : (l.step c).Ready ∧ (l.step c).bare = l.bare := by
  rw [h.step_of_ne hc]
  split
  · exact ⟨h.emit _, bare_emit l .ignored⟩
  · exact ⟨⟨rfl, h.content⟩, rfl⟩

/-! ## Tags -/

def isKept (c : Char) : Bool := (shown c).toLower == c && !isSpace c && !(['/', '>', '\r'].contains c)

lemma isKept_iff : isKept c = true ↔
    (shown c).toLower = c ∧ isSpace c = false ∧ c ≠ '/' ∧ c ≠ '>' ∧ c ≠ '\r' := by
  simp [isKept, and_assoc]

structure IsTagName (cs : List Char) : Prop where
  head : ∃ c rest, cs = c :: rest ∧ c.isAlpha = true
  kept : ∀ c ∈ cs, isKept c = true

lemma run_tagName (l : Lexer) (tag : Draft) (h : ∀ c ∈ cs, isKept c = true) :
    (l.goto (.tagName tag)).run cs = l.goto (.tagName { tag with name := cs.reverse ++ tag.name }) := by
  induction cs generalizing tag with
  | nil => rfl
  | cons c cs ih =>
    obtain ⟨hlower, hspace, hslash, hend, -⟩ := isKept_iff.1 (h c (.head _))
    have hstep : (l.goto (.tagName tag)).step c = l.goto (.tagName { tag with name := c :: tag.name }) := by
      simp [step, stepTagName, hspace, hslash, hend, hlower]
    rw [run_cons, hstep, ih _ (fun d hd => h d (mem_cons_of_mem _ hd)), reverse_cons, append_assoc]
    rfl

lemma shown_of_isAlpha (h : c.isAlpha = true) : shown c = c := if_neg (ne_of_isClass h (by decide))

lemma isSpace_of_isNameChar (h : isNameChar c = true) : isSpace c = false := by
  have h1 : c ≠ '\t' := ne_of_isClass h (by decide)
  have h2 : c ≠ '\n' := ne_of_isClass h (by decide)
  have h3 : c ≠ '\x0c' := ne_of_isClass h (by decide)
  have h4 : c ≠ ' ' := ne_of_isClass h (by decide)
  simp [isSpace, h1, h2, h3, h4]

def isAttributeChar (c : Char) : Bool := c != '\x00' && !isSpace c && !(['/', '>', '=', '\r'].contains c)

lemma isAttributeChar_iff : isAttributeChar c = true ↔
    c ≠ '\x00' ∧ isSpace c = false ∧ c ≠ '/' ∧ c ≠ '>' ∧ c ≠ '=' ∧ c ≠ '\r' := by
  simp [isAttributeChar, and_assoc]

lemma isAttributeChar_of_isNameChar (h : isNameChar c = true) : isAttributeChar c = true :=
  isAttributeChar_iff.2 ⟨ne_of_isClass h (by decide), isSpace_of_isNameChar h, ne_of_isClass h (by decide),
    ne_of_isClass h (by decide), ne_of_isClass h (by decide), ne_of_isClass h (by decide)⟩

/-- An attribute as it is written: a name, and possibly a value between double quotes. -/
structure Written where
  name : List Char
  value : Option (List Char)

variable {w : Written} {ws : List Written}

namespace Written

def chars (w : Written) : List Char :=
  ' ' :: w.name ++ (w.value.map (fun v => '=' :: '"' :: v ++ ['"'])).getD []

structure Fits (w : Written) : Prop where
  name_ne_nil : w.name ≠ []
  name : ∀ c ∈ w.name, isAttributeChar c = true
  value : ∀ v, w.value = some v → '"' ∉ v

end Written

def Draft.take (tag : Draft) (w : Written) : Draft :=
  tag.add (w.name.map Char.toLower).reverse ((w.value.getD []).map shown).reverse

/-- Whether a state ends what there is of a tag, so that an attribute or the end of the tag may follow. -/
inductive Ends : State → Draft → Prop
  | tagName (tag : Draft) : Ends (.tagName tag) tag
  | name (tag : Draft) (name : List Char) : Ends (.name tag name) (tag.add name [])
  | afterValue (tag : Draft) : Ends (.afterValue tag) tag

lemma Ends.step_gt (h : Ends s tag) (l : Lexer) : (l.goto s).step '>' = l.emitTag tag false := by
  cases h <;> exact emitTag_goto l _ _ _

lemma Ends.run_blank (h : Ends s tag) (l : Lexer) (hc : isAttributeChar c = true) :
    (l.goto s).run [' ', c] = l.goto (.name tag [c.toLower]) := by
  obtain ⟨hnul, hspace, hslash, hend, heq, -⟩ := isAttributeChar_iff.1 hc
  have hshown : shown c = c := if_neg hnul
  have hbefore : ∀ tag : Draft, (l.goto (.beforeName tag)).step c = l.goto (.name tag [c.toLower]) := fun tag => by
    simp [step, stepBeforeName, hspace, hslash, hend, hshown]
  cases h with
  | tagName => exact hbefore tag
  | name tag name =>
    show (l.goto (.afterName tag name)).step c = _
    simp [step, stepAfterName, hspace, hslash, heq, hend, hshown]
  | afterValue => exact hbefore tag

lemma run_name (l : Lexer) (tag : Draft) (name : List Char) (h : ∀ c ∈ cs, isAttributeChar c = true) :
    (l.goto (.name tag name)).run cs = l.goto (.name tag ((cs.map Char.toLower).reverse ++ name)) := by
  induction cs generalizing name with
  | nil => rfl
  | cons c cs ih =>
    obtain ⟨hnul, hspace, hslash, hend, heq, -⟩ := isAttributeChar_iff.1 (h c (.head _))
    have hshown : shown c = c := if_neg hnul
    have hstep : (l.goto (.name tag name)).step c = l.goto (.name tag (c.toLower :: name)) := by
      simp [step, stepName, hspace, hslash, heq, hend, hshown]
    rw [run_cons, hstep, ih _ (fun d hd => h d (List.mem_cons_of_mem _ hd)), List.map_cons, List.reverse_cons,
      List.append_assoc]
    rfl

lemma run_value (l : Lexer) (tag : Draft) (name value : List Char) (h : '"' ∉ cs) :
    (l.goto (.value .double tag name value)).run cs =
      l.goto (.value .double tag name ((cs.map shown).reverse ++ value)) := by
  induction cs generalizing value with
  | nil => rfl
  | cons c cs ih =>
    rw [mem_cons, not_or] at h
    have hstep : (l.goto (.value .double tag name value)).step c = l.goto (.value .double tag name (shown c :: value)) := by
      simp only [step, state_goto, stepValue, Ne.symm h.1, if_false, goto_goto]
    rw [run_cons, hstep, ih _ h.2, map_cons, reverse_cons, append_assoc]
    rfl

lemma Ends.run_chars (h : Ends s tag) (l : Lexer) (hw : w.Fits) :
    ∃ s', Ends s' (tag.take w) ∧ (l.goto s).run w.chars = l.goto s' := by
  obtain ⟨name, value⟩ := w
  obtain ⟨hne, hname, hvalue⟩ := hw
  obtain ⟨c, name, rfl⟩ := exists_cons_of_ne_nil hne
  have hread : (l.goto s).run (' ' :: c :: name) = l.goto (.name tag ((c :: name).map Char.toLower).reverse) := by
    show ((l.goto s).run [' ', c]).run name = _
    rw [h.run_blank l (hname c mem_cons_self), run_name l _ _ (fun d hd => hname d (mem_cons_of_mem _ hd)),
      map_cons, reverse_cons]
  cases value with
  | none => exact ⟨_, .name _ _, by simpa [Written.chars] using hread⟩
  | some v =>
    refine ⟨_, .afterValue _, ?_⟩
    have hopen : ∀ n, (l.goto (.name tag n)).run ['=', '"'] = l.goto (.value .double tag n []) := fun n => rfl
    have hchars : Written.chars ⟨c :: name, some v⟩ = (' ' :: c :: name) ++ (['=', '"'] ++ (v ++ ['"'])) := by
      simp [Written.chars]
    rw [hchars, run_append, hread, run_append, hopen, run_append, run_value l _ _ _ (hvalue v rfl), List.append_nil]
    rfl

lemma Ends.run_flatMap (h : Ends s tag) (l : Lexer) (hws : ∀ w ∈ ws, w.Fits) :
    ∃ s', Ends s' (ws.foldl Draft.take tag) ∧ (l.goto s).run (ws.flatMap Written.chars) = l.goto s' := by
  induction ws generalizing s tag with
  | nil => exact ⟨s, h, rfl⟩
  | cons w ws ih =>
    obtain ⟨s₁, h₁, hrun⟩ := h.run_chars l (hws w (.head _))
    obtain ⟨s₂, h₂, hrest⟩ := ih h₁ (fun v hv => hws v (.tail _ hv))
    exact ⟨s₂, h₂, by rw [List.flatMap_cons, run_append, hrun, hrest]⟩

def openingChars (tag : List Char) (ws : List Written) : List Char := '<' :: tag ++ ws.flatMap Written.chars ++ ['>']

def closingChars (tag : List Char) : List Char := '<' :: '/' :: tag ++ ['>']

lemma IsTagName.toLower {rest : List Char} (h : IsTagName (c :: rest)) (hc : c.isAlpha = true) : c.toLower = c := by
  have := (isKept_iff.1 (h.kept c (.head _))).1
  rwa [shown_of_isAlpha hc] at this

lemma run_opening (h : l.Ready) {tag : List Char} (htag : IsTagName tag)
    (hws : ∀ w ∈ ws, w.Fits) :
    l.run (openingChars tag ws) = l.emitTag (ws.foldl Draft.take ⟨false, tag.reverse, []⟩) false := by
  obtain ⟨c, rest, rfl, hc⟩ := htag.head
  have hstart : (l.step '<').step c = l.goto (.tagName ⟨false, [c], []⟩) := by
    have h1 : c ≠ '!' := ne_of_isClass hc (by decide)
    have h2 : c ≠ '/' := ne_of_isClass hc (by decide)
    have h3 : c ≠ '?' := ne_of_isClass hc (by decide)
    rw [h.step_lt]
    simp [step, stepTagOpen, h1, h2, h3, hc, htag.toLower hc]
  have hname : l.run ('<' :: c :: rest) = l.goto (.tagName ⟨false, (c :: rest).reverse, []⟩) := by
    rw [run_cons, run_cons, hstart, run_tagName l _ (fun d hd => htag.kept d (List.mem_cons_of_mem _ hd)),
      List.reverse_cons]
  obtain ⟨s, hs, hrun⟩ := (Ends.tagName ⟨false, (c :: rest).reverse, []⟩).run_flatMap l hws
  rw [openingChars, run_append, run_append, hname, hrun, run_cons, run_nil, hs.step_gt]

lemma run_closing (h : l.Ready) {tag : List Char} (htag : IsTagName tag) :
    l.run (closingChars tag) = l.emitTag ⟨true, tag.reverse, []⟩ false := by
  obtain ⟨c, rest, rfl, hc⟩ := htag.head
  have hstart : ((l.step '<').step '/').step c = l.goto (.tagName ⟨true, [c], []⟩) := by
    have hend : c ≠ '>' := ne_of_isClass hc (by decide)
    rw [h.step_lt]
    show (l.goto .endTagOpen).step c = _
    simp only [step, state_goto, stepEndTagOpen, hend, hc, htag.toLower hc, if_false, if_true, goto_goto]
  have hname : l.run ('<' :: '/' :: c :: rest) = l.goto (.tagName ⟨true, (c :: rest).reverse, []⟩) := by
    rw [run_cons, run_cons, run_cons, hstart, run_tagName l _ (fun d hd => htag.kept d (List.mem_cons_of_mem _ hd)),
      List.reverse_cons]
  have hchars : closingChars (c :: rest) = ('<' :: '/' :: c :: rest) ++ ['>'] := rfl
  rw [hchars, run_append, hname, run_cons, run_nil, (Ends.tagName _).step_gt]

/-! ## Comments and doctypes -/

def CommentText (cs : List Char) : Prop :=
  ∀ l : Lexer, (l.goto .commentStart).run (cs ++ ['-', '-']) = l.goto (.commentEnd cs.reverse)

def commentChars (cs : List Char) : List Char := ['<', '!', '-', '-'] ++ (cs ++ ['-', '-', '>'])

lemma run_comment (h : l.Ready) (hcs : CommentText cs) : l.run (commentChars cs) = l.emitComment cs.reverse := by
  have hstart : l.run ['<', '!', '-', '-'] = l.goto .commentStart := by
    show (((l.step '<').step '!').step '-').step '-' = _
    rw [h.step_lt]
    rfl
  have hchars : commentChars cs = ['<', '!', '-', '-'] ++ ((cs ++ ['-', '-']) ++ ['>']) := by simp [commentChars]
  rw [hchars, run_append, hstart, run_append, hcs l]
  exact emitComment_goto l _ _

structure IsDoctypeName (cs : List Char) : Prop where
  ne_nil : cs ≠ []
  kept : ∀ c ∈ cs, (shown c).toLower = c ∧ isSpace c = false ∧ c ≠ '>' ∧ c ≠ '\r'

def doctypeChars (cs : List Char) : List Char :=
  ['<', '!', 'D', 'O', 'C', 'T', 'Y', 'P', 'E', ' '] ++ (cs ++ ['>'])

lemma run_doctypeName (l : Lexer) (name : List Char)
    (h : ∀ c ∈ cs, (shown c).toLower = c ∧ isSpace c = false ∧ c ≠ '>' ∧ c ≠ '\r') :
    (l.goto (.doctypeName name)).run cs = l.goto (.doctypeName (cs.reverse ++ name)) := by
  induction cs generalizing name with
  | nil => rfl
  | cons c cs ih =>
    obtain ⟨hlower, hspace, hend, -⟩ := h c (.head _)
    have hstep : (l.goto (.doctypeName name)).step c = l.goto (.doctypeName (c :: name)) := by
      simp [step, stepDoctypeName, hspace, hend, hlower]
    rw [run_cons, hstep, ih _ (fun d hd => h d (List.mem_cons_of_mem _ hd)), List.reverse_cons, List.append_assoc]
    rfl

lemma run_doctypeStart (h : l.Ready) :
    l.run ['<', '!', 'D', 'O', 'C', 'T', 'Y', 'P', 'E', ' '] = l.goto .beforeDoctypeName := by
  rw [run_cons, h.step_lt]
  simp [step, stepTagOpen, stepMarkupDeclaration, stepDoctype, stepBeforeDoctypeName, isSpace]

lemma run_doctype (h : l.Ready) (hcs : IsDoctypeName cs) :
    l.run (doctypeChars cs) = l.emitDoctype (some cs.reverse) := by
  obtain ⟨c, rest, rfl⟩ := List.exists_cons_of_ne_nil hcs.ne_nil
  obtain ⟨hlower, hspace, hend, -⟩ := hcs.kept c (.head _)
  have hstep : (l.goto .beforeDoctypeName).step c = l.goto (.doctypeName [c]) := by
    simp [step, stepBeforeDoctypeName, hspace, hend, hlower]
  have hlast : ∀ name, (l.goto (.doctypeName name)).step '>' = l.emitDoctype (some name) := fun name =>
    emitDoctype_goto l (.doctypeName name) (some name)
  have hname := run_doctypeName l [c] (fun d hd => hcs.kept d (.tail _ hd))
  rw [doctypeChars, run_append, run_doctypeStart h, List.cons_append, run_cons, hstep, run_append, hname, run_cons,
    run_nil, hlast, List.reverse_cons]

/-! ## Text that only its end tag ends -/

lemma tag_of_contentOf {tag : String} (h : contentOf tag ≠ .normal) :
    tag = "script" ∨ tag = "style" ∨ tag = "textarea" ∨ tag = "title" := by
  by_contra hnot
  push Not at hnot
  exact h (by simp [contentOf, hnot])

lemma isLetter_of_contentOf {tag : String} (h : contentOf tag ≠ .normal) :
    ∀ c ∈ tag.toList, c.isAlpha = true ∧ c.toLower = c := by
  have hall : tag.toList.all (fun c => c.isAlpha && c.toLower == c) = true := by
    rcases tag_of_contentOf h with rfl | rfl | rfl | rfl <;> decide
  simpa using hall

lemma run_rawEndTagName (l : Lexer) (e : Escape) (letters : List Char) (h : ∀ c ∈ cs, c.isAlpha = true) :
    (l.goto (.rawEndTagName e letters)).run cs = l.goto (.rawEndTagName e (cs.reverse ++ letters)) := by
  induction cs generalizing letters with
  | nil => rfl
  | cons c cs ih =>
    have hc := h c (.head _)
    have hslash : c ≠ '/' := ne_of_isClass hc (by decide)
    have hend : c ≠ '>' := ne_of_isClass hc (by decide)
    have hspace : isSpace c = false := isSpace_of_isNameChar (isNameChar_iff.2 (.inl (by simp [Char.isAlphanum, hc])))
    have hstep : (l.goto (.rawEndTagName e letters)).step c = l.goto (.rawEndTagName e (c :: letters)) := by
      simp [step, stepRawEndTagName, hspace, hslash, hend, hc]
    rw [run_cons, hstep, ih _ (fun d hd => h d (List.mem_cons_of_mem _ hd)), List.reverse_cons, List.append_assoc]
    rfl

lemma run_rawClosing {e : Escape} {tag : String} (he : e ≠ .twice) (hraw : contentOf tag ≠ .normal)
    (hlast : l.lastStart = tag) :
    (l.goto (.rawLessThan e)).run ('/' :: tag.toList ++ ['>']) = l.emitTag ⟨true, tag.toList.reverse, []⟩ false := by
  have hletters := isLetter_of_contentOf hraw
  have hopen : (l.goto (.rawLessThan e)).step '/' = l.goto (.rawEndTagOpen e) := by
    cases e <;> first | rfl | exact absurd rfl he
  obtain ⟨c, rest, htag⟩ : ∃ c rest, tag.toList = c :: rest := by
    refine List.exists_cons_of_ne_nil (fun hnil => hraw ?_)
    rw [String.toList_eq_nil_iff.1 hnil]
    decide
  have hname : (l.goto (.rawEndTagOpen e)).run tag.toList = l.goto (.rawEndTagName e tag.toList.reverse) := by
    rw [htag] at hletters ⊢
    have hfirst : (l.goto (.rawEndTagOpen e)).step c = l.goto (.rawEndTagName e [c]) := by
      simp [step, (hletters c List.mem_cons_self).1]
    rw [run_cons, hfirst, run_rawEndTagName l e [c] (fun d hd => (hletters d (.tail _ hd)).1),
      List.reverse_cons]
  have hlower : tag.toList.reverse.map Char.toLower = tag.toList.reverse := by
    refine (List.map_congr_left (fun c hc => ?_)).trans (List.map_id _)
    exact (hletters c (List.mem_reverse.1 hc)).2
  rw [List.cons_append, run_cons, hopen, run_append, hname, run_cons]
  simp only [step, state_goto, stepRawEndTagName, hlower, List.reverse_reverse, String.ofList_toList, lastStart_goto,
    hlast, beq_self_eq_true, emitTag_goto]
  rfl

def Rescans (tag : String) (cs : List Char) : Prop :=
  ∀ l : Lexer, l.state = .content .none → l.content = contentOf tag → l.lastStart = tag →
    l.run (cs ++ closingChars tag.toList) =
      (l.pushAll (cs.map shown)).emitTag ⟨true, tag.toList.reverse, []⟩ false

lemma step_raw (hstate : l.state = .content .none) (hcontent : l.content ≠ .normal) (c : Char) :
    l.step c = if c = '<' then l.goto (.rawLessThan .none) else (l.push (shown c)).goto (.content .none) := by
  rw [step, hstate]
  simp [stepContent]

lemma rescans_of_not_mem {tag : String} (hraw : contentOf tag ≠ .normal) (h : '<' ∉ cs) : Rescans tag cs := by
  intro l hstate hcontent hlast
  induction cs generalizing l with
  | nil =>
    rw [List.nil_append, closingChars, List.cons_append, run_cons, step_raw hstate (hcontent ▸ hraw)]
    exact run_rawClosing (by decide) hraw hlast
  | cons c cs ih =>
    rw [List.mem_cons, not_or] at h
    rw [List.cons_append, run_cons, step_raw hstate (hcontent ▸ hraw), if_neg (Ne.symm h.1),
      ih h.2 ((l.push (shown c)).goto (.content .none)) rfl hcontent hlast, pushAll_goto, emitTag_goto, List.map_cons,
      pushAll_cons]

end Lexer

/-! ## The grammar -/

open Lexer

def addName (names : List String) (name : List Char) : List String :=
  if names.contains (String.ofList (name.map Char.toLower)) then names
  else names ++ [String.ofList (name.map Char.toLower)]

def Token.opened (tag : String) (names : List (List Char)) : Token :=
  .startTag tag ((names.foldl addName []).map (fun n => (n, ""))) false

/-- Characters that stand for tags, a comment or a doctype; an element whose text is not read as markup is one piece. -/
inductive Piece : List Char → List Token → Prop
  | opening {tag : String} {ws : List Written} (htag : IsTagName tag.toList) (hws : ∀ w ∈ ws, w.Fits)
    (hnormal : contentOf tag = .normal) :
    Piece (openingChars tag.toList ws) [.opened tag (ws.map (·.name))]
  | closing {tag : String} (htag : IsTagName tag.toList) : Piece (closingChars tag.toList) [.endTag tag]
  | raw {tag : String} {ws : List Written} {text : List Char} (htag : IsTagName tag.toList) (hws : ∀ w ∈ ws, w.Fits)
    (hraw : contentOf tag ≠ .normal) (htext : '<' ∉ text ∨ '\r' ∉ text ∧ Rescans tag text) :
    Piece (openingChars tag.toList ws ++ (text ++ closingChars tag.toList))
      [.opened tag (ws.map (·.name)), .endTag tag]
  | comment {s : String} (hs : CommentText s.toList) (hline : '\r' ∉ s.toList) :
    Piece (commentChars s.toList) [.comment s]
  | doctype {name : String} (hname : IsDoctypeName name.toList) :
    Piece (doctypeChars name.toList) [.doctype (some name)]

/-- Characters and the tags, comments and doctypes that they spell out. -/
inductive Spells : List Char → List Token → Prop
  | nil : Spells [] []
  | char {c : Char} {cs : List Char} {ts : List Token} (hc : c ≠ '<') : Spells cs ts → Spells (c :: cs) ts
  | piece {p cs : List Char} {us ts : List Token} (hp : Piece p us) : Spells cs ts → Spells (p ++ cs) (us ++ ts)

lemma Spells.append {b : List Char} {us : List Token} (ha : Spells a ts) (hb : Spells b us) :
    Spells (a ++ b) (ts ++ us) := by
  induction ha with
  | nil => exact hb
  | char hc _ ih => exact .char hc ih
  | piece hp _ ih =>
    rw [List.append_assoc, List.append_assoc]
    exact .piece hp ih

lemma Spells.ofPiece (h : Piece p ts) : Spells p ts := by
  have := Spells.piece h .nil
  rwa [List.append_nil, List.append_nil] at this

lemma Spells.ofText : ∀ {cs : List Char}, '<' ∉ cs → Spells cs []
  | [], _ => .nil
  | c :: cs, h => by
    rw [List.mem_cons, not_or] at h
    exact .char (Ne.symm h.1) (ofText h.2)

/-! ## What the reader finds -/

lemma fst_take (tag : Draft) (w : Written) :
    (tag.take w).attributes.map (·.1) = addName (tag.attributes.map (·.1)) w.name := by
  have hany : tag.attributes.any (fun a => a.1 == String.ofList (w.name.map Char.toLower)) =
      (tag.attributes.map (·.1)).contains (String.ofList (w.name.map Char.toLower)) := by
    rw [List.contains_eq_any_beq, List.any_map]
    exact List.any_congr rfl (fun a => Bool.beq_comm)
  simp only [Draft.take, Draft.add, addName, List.reverse_reverse, hany]
  split
  · rfl
  · rw [List.map_append]
    rfl

lemma fst_foldl_take (ws : List Written) (tag : Draft) :
    (ws.foldl Draft.take tag).attributes.map (·.1) =
      (ws.map (·.name)).foldl addName (tag.attributes.map (·.1)) := by
  induction ws generalizing tag with
  | nil => rfl
  | cons w ws ih => rw [List.foldl_cons, ih, fst_take, List.map_cons, List.foldl_cons]

lemma closing_foldl_take (ws : List Written) (tag : Draft) :
    (ws.foldl Draft.take tag).closing = tag.closing ∧ (ws.foldl Draft.take tag).name = tag.name := by
  induction ws generalizing tag with
  | nil => exact ⟨rfl, rfl⟩
  | cons w ws ih =>
    have hw : (tag.take w).closing = tag.closing ∧ (tag.take w).name = tag.name := by
      simp only [Draft.take, Draft.add]
      split <;> exact ⟨rfl, rfl⟩
    rw [List.foldl_cons, (ih _).1, (ih _).2]
    exact hw

lemma emitTag_opened (l : Lexer) (tag : String) (ws : List Written) :
    let l' := l.emitTag (ws.foldl Draft.take ⟨false, tag.toList.reverse, []⟩) false
    l'.state = .content .none ∧ l'.content = contentOf tag ∧ l'.lastStart = tag ∧
      l'.bare = .opened tag (ws.map (·.name)) :: l.bare := by
  obtain ⟨hclosing, hname⟩ := closing_foldl_take ws ⟨false, tag.toList.reverse, []⟩
  have hnames : (ws.foldl Draft.take ⟨false, tag.toList.reverse, []⟩).attributes.map (·.1) =
      (ws.map (·.name)).foldl addName [] := fst_foldl_take ws _
  simp only [emitTag, hclosing, hname, List.reverse_reverse, String.ofList_toList, Bool.false_eq_true, if_false]
  refine ⟨rfl, trivial, trivial, ?_⟩
  have hbare := bare_emit l (.startTag tag ((ws.foldl Draft.take ⟨false, tag.toList.reverse, []⟩).attributes.map
    (fun a => (a.1, String.ofList (Reference.decode true a.2)))) false)
  refine hbare.trans ?_
  rw [Token.bare?, Token.opened, ← hnames, List.map_map, List.map_map]
  rfl

lemma emitTag_closed (l : Lexer) (tag : String) :
    (l.emitTag ⟨true, tag.toList.reverse, []⟩ false).Ready ∧
      (l.emitTag ⟨true, tag.toList.reverse, []⟩ false).bare = .endTag tag :: l.bare := by
  simp only [emitTag, List.reverse_reverse, String.ofList_toList]
  exact ⟨⟨rfl, rfl⟩, bare_emit l (.endTag tag)⟩

lemma Piece.run {ts : List Token} (h : Piece p ts) {l : Lexer} (hl : l.Ready) :
    (l.run p).Ready ∧ (l.run p).bare = ts.reverse ++ l.bare := by
  cases h with
  | @opening tag ws htag hws hnormal =>
    rw [run_opening hl htag hws]
    obtain ⟨hstate, hcontent, -, hbare⟩ := emitTag_opened l tag ws
    exact ⟨⟨hstate, hcontent.trans hnormal⟩, hbare⟩
  | @closing tag htag =>
    rw [run_closing hl htag]
    exact emitTag_closed l tag
  | @raw tag ws text htag hws hraw htext =>
    obtain ⟨hstate, hcontent, hlast, hbare⟩ := emitTag_opened l tag ws
    have hrescans : Rescans tag text := htext.elim (rescans_of_not_mem hraw) And.right
    rw [run_append, run_opening hl htag hws, hrescans _ hstate hcontent hlast]
    refine ⟨(emitTag_closed _ tag).1, ?_⟩
    rw [(emitTag_closed _ tag).2, bare_pushAll, hbare]
    rfl
  | @comment s hs hline =>
    rw [run_comment hl hs, emitComment, List.reverse_reverse, String.ofList_toList]
    exact ⟨hl.emit _, bare_emit l _⟩
  | @doctype name hname =>
    rw [run_doctype hl hname, emitDoctype, Option.map_some, List.reverse_reverse, String.ofList_toList]
    exact ⟨hl.emit _, bare_emit l _⟩

lemma Spells.run {cs : List Char} {ts : List Token} (h : Spells cs ts) : ∀ {l : Lexer}, l.Ready →
    (l.run cs).Ready ∧ (l.run cs).bare = ts.reverse ++ l.bare := by
  induction h with
  | nil => exact fun hl => ⟨hl, rfl⟩
  | char hc _ ih =>
    intro l hl
    obtain ⟨hready, hbare⟩ := hl.step hc
    rw [← hbare]
    exact ih hready
  | piece hp _ ih =>
    intro l hl
    obtain ⟨hready, hbare⟩ := hp.run hl
    rw [run_append, List.reverse_append, List.append_assoc, ← hbare]
    exact ih hready

/-! ## What happens to characters before they are read -/

lemma Piece.exists_cons (h : Piece p ts) : ∃ q, p = '<' :: q := by
  cases h <;> exact ⟨_, rfl⟩

lemma Spells.dropMark {cs : List Char} (h : Spells cs ts) : Spells (Markup.dropMark cs) ts := by
  unfold Markup.dropMark
  split
  · rename_i cs
    generalize hall : '\ufeff' :: cs = all at h
    cases h with
    | nil => cases hall
    | char hc h =>
      cases hall
      exact h
    | piece hp h =>
      obtain ⟨q, rfl⟩ := hp.exists_cons
      cases hall
  · exact h

lemma Lexer.IsTagName.not_mem (h : IsTagName tag) : '\r' ∉ tag :=
  fun hmem => (isKept_iff.1 (h.kept _ hmem)).2.2.2.2 rfl

variable {w : Lexer.Written} {ws : List Lexer.Written}

def Lexer.Written.unify (w : Written) : Written := ⟨w.name, w.value.map unifyLines⟩

lemma Lexer.Written.Fits.unify (h : w.Fits) : w.unify.Fits :=
  ⟨h.name_ne_nil, h.name, fun v hv => by
    obtain ⟨u, hu, rfl⟩ := Option.map_eq_some_iff.1 hv
    exact not_mem_unifyLines (by decide) (h.value u hu)⟩

lemma Lexer.Written.Fits.unifyLines_chars (h : w.Fits) (cs : List Char) :
    unifyLines (w.chars ++ cs) = w.unify.chars ++ unifyLines cs := by
  obtain ⟨name, value⟩ := w
  have hname : '\r' ∉ ' ' :: name := by
    rw [List.mem_cons, not_or]
    exact ⟨by decide, fun hmem => (isAttributeChar_iff.1 (h.name _ hmem)).2.2.2.2.2 rfl⟩
  cases value with
  | none => simpa [Written.chars, Written.unify] using unifyLines_append_of_not_mem hname cs
  | some v =>
    have hchars : ∀ v, Written.chars ⟨name, some v⟩ = (' ' :: name) ++ (['=', '"'] ++ (v ++ ['"'])) := fun v => by
      simp [Written.chars]
    rw [Written.unify, Option.map_some, hchars, hchars, append_assoc, unifyLines_append_of_not_mem hname,
      append_assoc, unifyLines_append_of_not_mem (by decide), append_assoc, singleton_append,
      unifyLines_append_cons (by decide), unifyLines_cons (by decide)]
    simp

lemma unifyLines_flatMap_chars (h : ∀ w ∈ ws, w.Fits) (cs : List Char) :
    unifyLines (ws.flatMap Written.chars ++ cs) = (ws.map Written.unify).flatMap Written.chars ++ unifyLines cs := by
  induction ws with
  | nil => rfl
  | cons w ws ih =>
    rw [flatMap_cons, append_assoc, (h w mem_cons_self).unifyLines_chars,
      ih (fun v hv => h v (.tail _ hv)), map_cons, flatMap_cons, append_assoc]

lemma unifyLines_openingChars (htag : IsTagName tag) (hws : ∀ w ∈ ws, w.Fits) (cs : List Char) :
    unifyLines (openingChars tag ws ++ cs) = openingChars tag (ws.map Written.unify) ++ unifyLines cs := by
  have hstart : '\r' ∉ '<' :: tag := by
    rw [mem_cons, not_or]
    exact ⟨by decide, htag.not_mem⟩
  rw [openingChars, append_assoc, append_assoc, unifyLines_append_of_not_mem hstart,
    unifyLines_flatMap_chars hws, unifyLines_append_of_not_mem (by decide), openingChars, append_assoc,
    append_assoc]

lemma unifyLines_closingChars (htag : IsTagName tag) (cs : List Char) :
    unifyLines (closingChars tag ++ cs) = closingChars tag ++ unifyLines cs := by
  refine unifyLines_append_of_not_mem ?_ cs
  simp [closingChars, htag.not_mem]

lemma Piece.unify {ts : List Token} (h : Piece p ts) :
    ∃ q, Piece q ts ∧ ∀ cs, unifyLines (p ++ cs) = q ++ unifyLines cs := by
  have hfits : ∀ {ws : List Written}, (∀ w ∈ ws, w.Fits) → ∀ w ∈ ws.map Written.unify, w.Fits := by
    intro ws hws w hw
    obtain ⟨v, hv, rfl⟩ := mem_map.1 hw
    exact (hws v hv).unify
  have hnames : ∀ ws : List Written, (ws.map Written.unify).map (·.name) = ws.map (·.name) := fun ws => by
    rw [map_map]
    rfl
  cases h with
  | @opening tag ws htag hws hnormal =>
    have hp := Piece.opening htag (hfits hws) hnormal
    rw [hnames] at hp
    exact ⟨_, hp, unifyLines_openingChars htag hws⟩
  | @closing tag htag => exact ⟨_, .closing htag, unifyLines_closingChars htag⟩
  | @raw tag ws text htag hws hraw htext =>
    have htext' : ('<' ∉ unifyLines text ∨ '\r' ∉ unifyLines text ∧ Rescans tag (unifyLines text)) := by
      rcases htext with htext | ⟨hline, htext⟩
      · exact .inl (not_mem_unifyLines (by decide) htext)
      · have hself := unifyLines_append_of_not_mem hline []
        rw [unifyLines, append_nil] at hself
        rw [hself]
        exact .inr ⟨hline, htext⟩
    have hp := Piece.raw htag (hfits hws) hraw htext'
    rw [hnames] at hp
    refine ⟨_, hp, fun cs => ?_⟩
    rw [append_assoc, unifyLines_openingChars htag hws, append_assoc, closingChars, cons_append,
      cons_append, unifyLines_append_cons (by decide)]
    have hclose := unifyLines_closingChars htag cs
    rw [closingChars, cons_append, cons_append] at hclose
    rw [hclose]
    simp
  | @comment s hs hline =>
    refine ⟨_, .comment hs hline, unifyLines_append_of_not_mem ?_⟩
    simp [commentChars, hline]
  | @doctype name hname =>
    refine ⟨_, .doctype hname, unifyLines_append_of_not_mem ?_⟩
    have hline : '\r' ∉ name.toList := fun hmem => (hname.kept _ hmem).2.2.2 rfl
    simp [doctypeChars, hline]

lemma Spells.unifyLines {cs : List Char} {ts : List Token} (h : Spells cs ts) : Spells (Markup.unifyLines cs) ts := by
  induction h with
  | nil => exact .nil
  | @char c cs ts hc h ih =>
    by_cases hline : c = '\r'
    · subst hline
      cases cs with
      | nil => exact .char (by decide) ih
      | cons d cs =>
        by_cases hd : d = '\n'
        · subst hd
          exact ih
        · rw [Markup.unifyLines]
          · exact .char (by decide) ih
          · exact fun _ h => hd (cons.inj h).1
    · rw [unifyLines_cons hline]
      exact .char hc ih
  | piece hp _ ih =>
    obtain ⟨q, hq, hunify⟩ := hp.unify
    rw [hunify]
    exact .piece hq ih

lemma bare_finish {l : Lexer} (h : l.Ready) : l.finish.bare = l.bare := by
  rw [finish, h.state]
  simp only [finishContent]
  split
  · exact bare_emit l (.truncated _)
  · exact bare_flush l
  · exact bare_emit l (.truncated _)

lemma bare_tokens {s : String} (h : Spells s.toList ts) : (tokens s).filterMap Token.bare? = ts := by
  obtain ⟨hready, hbare⟩ := h.dropMark.unifyLines.run (l := {}) ⟨rfl, rfl⟩
  rw [tokens, filterMap_reverse]
  have hdone := (bare_finish hready).trans hbare
  rw [bare] at hdone
  rw [hdone]
  simp [bare]

end ReactiveTemplate.Markup
