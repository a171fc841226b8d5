import ReactiveTemplate.Proofs.Characters
import ReactiveTemplate.Proofs.Markup.Balance
import ReactiveTemplate.Proofs.Markup.Contents
import ReactiveTemplate.Proofs.Markup.Tidiness
import ReactiveTemplate.Proofs.Markup.Writing
/-!
# RoundTrip — documents that are written and read again

A document that was read from a source is written as HTML that reads as the same document: the reader goes through what
is written of a node with its own events (`Rereads`).
-/
set_option linter.all false

namespace ReactiveTemplate.Markup
open List
open Document

open Lexer

variable {s : String} {cs : List Char} {es : List Event}

/-! ## Nodes that survive being written -/

def isSteady (s : String) : Bool := !s.toList.contains '\r' && !s.toList.contains '\ufeff'

def Kind.isSteady : Kind → Bool
  | .element e => e.attributes.all (fun a => Markup.isSteady a.value && a.rawName.toList.head? != some '=')
  | .text s => Markup.isSteady s
  | _ => true

def Tree.isSteady (t : Tree) : Bool := t.preorder.all (fun u => u.kind.isSteady)

lemma isSteady_iff : isSteady s = true ↔ '\r' ∉ s.toList ∧ '\ufeff' ∉ s.toList := by
  simp [isSteady]

structure Faithful (t : Tree) : Prop where
  sound : t.Sound
  leafy : t.Leafy
  tidy : t.kind.Tidy
  steady : t.kind.isSteady = true

/-! ## Elements -/

def Token.ofElement (e : Element) : Token := .startTag e.tag (e.attributes.map (fun a => (a.rawName, a.value))) false

section

variable {e : Element} (htag : IsTagName e.tag.toList) (htidy : (Kind.element e).Tidy)
  (hsteady : (Kind.element e).isSteady = true)

include htag htidy in
lemma elementOf_eq : Builder.elementOf e.tag (e.attributes.map (fun a => (a.rawName, a.value))) = e := by
  have hattributes : (e.attributes.map (fun a => (a.rawName, a.value))).map (fun a => Attribute.new a.1 a.2) =
      e.attributes := by
    rw [map_map]
    exact (map_congr_left fun a ha => (htidy.1 a ha).symm).trans (map_id _)
  rw [Builder.elementOf, lower_of_isTagName htag, hattributes]

include htag htidy in
lemma events_ofElement :
    (Token.ofElement e).events = if e.isVoid then [.opened e, .closed e.tag] else [.opened e] := by
  rw [Token.ofElement, Token.events, elementOf_eq htag htidy, Bool.or_false]

include htag htidy in
lemma bracket?_ofElement :
    (Token.ofElement e).bracket? = if e.isVoid then none else some (.opening e.tag) := by
  rw [Token.ofElement, Token.bracket?, elementOf_eq htag htidy, lower_of_isTagName htag, Bool.or_false]

include htidy hsteady in
lemma fits_written_of_tidy : ∀ w ∈ e.attributes.map Attribute.written, w.Fits := by
  intro w hw
  obtain ⟨a, ha, rfl⟩ := mem_map.1 hw
  obtain ⟨hname, -⟩ := htidy.2.each (a.rawName, a.value) (mem_map_of_mem ha)
  have hhead : a.rawName.toList.head? ≠ some '=' := by
    have := all_eq_true.1 hsteady a ha
    rw [Bool.and_eq_true] at this
    exact bne_iff_ne.1 this.2
  refine Attribute.fits_written hname.ne_nil fun c hc => ?_
  obtain ⟨hlower, hspace, hslash, hend, hline⟩ := isKept_iff.1 (hname.kept c hc)
  refine isAttributeChar_iff.2 ⟨?_, hspace, hslash, hend, ?_, hline⟩
  · rintro rfl
    exact absurd hlower (by decide)
  · rintro rfl
    obtain ⟨d, rest, hcs⟩ := exists_cons_of_ne_nil hname.ne_nil
    have htail := hname.tail
    rw [hcs] at hc hhead htail
    rcases mem_cons.1 hc with rfl | hc
    · exact hhead rfl
    · exact htail hc

end

lemma map_shown_of_not_mem (h : '\x00' ∉ cs) : cs.map shown = cs :=
  (map_congr_left fun _ hc => shown_of_ne (fun heq => h (heq ▸ hc))).trans (map_id _)

lemma not_mem_escaped {f : Char → List Char} (hf : Reference.Escapes f) {x : Char}
    (hx : x ∈ ['\x00', '\r', '\ufeff']) (h : x ∉ cs) : x ∉ cs.flatMap f := by
  intro hmem
  obtain ⟨c, hc, hcmem⟩ := mem_flatMap.1 hmem
  rcases hf c with ⟨hself, -⟩ | ⟨written, hwritten, hself, -⟩
  · rw [hself, mem_singleton] at hcmem
    exact h (hcmem ▸ hc)
  · have hall : ∀ x ∈ ['\x00', '\r', '\ufeff'], ∀ written ∈ Reference.writtenNames, x ∉ '&' :: written.1.toList := by
      simp [Reference.writtenNames]
    rw [hself] at hcmem
    exact hall x hx written hwritten hcmem

lemma take_written {a : Attribute} (hname : IsAttributeName a.rawName.toList) (hvalue : '\x00' ∉ a.value.toList)
    {tag : Draft} (hnew : a.rawName ∉ tag.attributes.map (·.1)) :
    tag.take a.written =
      { tag with attributes := tag.attributes ++ [(a.rawName, a.value.toList.flatMap escapeValueChar)] } := by
  have hlower : a.rawName.toList.map Char.toLower = a.rawName.toList := by
    refine (map_congr_left fun c hc => ?_).trans (map_id _)
    rw [← (isKept_iff.1 (hname.kept c hc)).1, toLower_toLower, id_eq]
  have hread : (a.written.value.getD []).map shown = a.value.toList.flatMap escapeValueChar := by
    have hnone : a.value.toList = [] → [] = a.value.toList.flatMap escapeValueChar := fun h => by rw [h]; rfl
    have hgetD : a.written.value.getD [] = a.value.toList.flatMap escapeValueChar := by
      rw [Attribute.written]
      dsimp only
      split
      · exact hnone ‹_›
      · rfl
    rw [hgetD, map_shown_of_not_mem (not_mem_escaped Reference.escapes_value (by decide) hvalue)]
  have hany : tag.attributes.any (fun b => b.1 == a.rawName) = false := by
    rw [any_eq_false]
    exact fun b hb hname => hnew (mem_map.2 ⟨b, hb, beq_iff_eq.1 hname⟩)
  have hname' : a.written.name = a.rawName.toList := rfl
  rw [Draft.take, Draft.add, hname', hlower, reverse_reverse, String.ofList_toList, hread, reverse_reverse, hany,
    if_neg Bool.false_ne_true]

lemma foldl_take_written : ∀ (attributes : List Attribute) (tag : Draft),
    (∀ a ∈ attributes, IsAttributeName a.rawName.toList ∧ '\x00' ∉ a.value.toList) →
    (tag.attributes.map (·.1) ++ attributes.map (·.rawName)).Nodup →
    (attributes.map Attribute.written).foldl Draft.take tag =
      { tag with attributes :=
          tag.attributes ++ attributes.map (fun a => (a.rawName, a.value.toList.flatMap escapeValueChar)) }
  | [], tag, _, _ => by rw [map_nil, map_nil, append_nil]; rfl
  | a :: attributes, tag, hall, hnodup => by
    obtain ⟨⟨hname, hvalue⟩, hrest⟩ := forall_mem_cons.1 hall
    have hnew : a.rawName ∉ tag.attributes.map (·.1) := fun hmem =>
      (nodup_append.1 hnodup).2.2 _ hmem _ (.head _) rfl
    rw [map_cons, foldl_cons, take_written hname hvalue hnew, foldl_take_written attributes _ hrest]
    · simp
    · simpa using hnodup

lemma emitTag_written {e : Element} (htidy : (Kind.element e).Tidy) (l : Lexer) :
    l.emitTag ((e.attributes.map Attribute.written).foldl Draft.take ⟨false, e.tag.toList.reverse, []⟩) false =
      { l.emit (.ofElement e) with content := contentOf e.tag, lastStart := e.tag } := by
  have hnodup : ((Draft.mk false e.tag.toList.reverse []).attributes.map (·.1) ++ e.attributes.map (·.rawName)).Nodup := by
    simpa [Function.comp_def] using htidy.2.nodup
  have heach : ∀ a ∈ e.attributes, IsAttributeName a.rawName.toList ∧ '\x00' ∉ a.value.toList := fun a ha =>
    htidy.2.each (a.rawName, a.value) (mem_map_of_mem ha)
  have hdecode : (e.attributes.map (fun a => (a.rawName, a.value.toList.flatMap escapeValueChar))).map
      (fun a => (a.1, String.ofList (Reference.decode true a.2))) = e.attributes.map (fun a => (a.rawName, a.value)) := by
    simp [Reference.escapes_value.decode_flatMap]
  rw [foldl_take_written _ _ heach hnodup, emitTag]
  simp only [nil_append, hdecode, reverse_reverse, String.ofList_toList]
  rfl

/-! ## What has been read -/

lemma wellNested_nil : WellNested [] := ⟨nofun, .nil⟩

lemma WellNested.append {ts us : List Token} (hts : WellNested ts) (hus : WellNested us) : WellNested (ts ++ us) := by
  refine ⟨fun reason hmem => ?_, ?_⟩
  · rcases mem_append.1 hmem with hmem | hmem
    · exact hts.1 reason hmem
    · exact hus.1 reason hmem
  · rw [brackets_append]
    exact hts.2.append hus.2

lemma wellNested_singleton {t : Token} (hbracket : t.bracket? = none) (ht : ∀ reason, t ≠ .truncated reason) :
    WellNested [t] :=
  ⟨fun reason hmem => ht reason (mem_singleton.1 hmem).symm, by rw [brackets_leaf hbracket]; exact .nil⟩

namespace Lexer

def texts (cs : List Char) : List Token := ((text? cs).map Token.text).toList

lemma texts_of_ne_nil (h : cs ≠ []) : texts cs = [.text (String.ofList cs)] := by
  rw [texts, text?, if_neg h]
  rfl

lemma wellNested_texts (cs : List Char) : WellNested (texts cs) := by
  unfold texts
  cases text? cs with
  | none => exact wellNested_nil
  | some s => exact wellNested_singleton rfl nofun

lemma reverse_texts (cs : List Char) : (texts cs).reverse = texts cs := by
  unfold texts
  cases text? cs <;> rfl

lemma done_flush_of_nil {l : Lexer} (h : l.pending = []) : l.flush.done = l.done := by
  have hdecode : ∀ content : Content, content.decode [] = [] := fun content => by cases content <;> rfl
  rw [done_flush, h, reverse_nil, hdecode]
  rfl

lemma reverse_done_flush (l : Lexer) :
    l.flush.done.reverse = l.done.reverse ++ texts (l.content.decode l.pending.reverse) := by
  rw [done_flush, reverse_append, ← texts, reverse_texts]

def events (l : Lexer) : List Event := l.flush.done.reverse.flatMap Token.events

lemma events_eq (l : Lexer) : l.events =
    l.done.reverse.flatMap Token.events ++ (texts (l.content.decode l.pending.reverse)).flatMap Token.events := by
  rw [events, reverse_done_flush, flatMap_append]

structure Emitted (l l' : Lexer) (t : Token) : Prop where
  pending : l'.pending = []
  done : l'.done = t :: l.flush.done

lemma emitted_emit (l : Lexer) (t : Token) : Emitted l (l.emit t) t := ⟨pending_flush l, rfl⟩

lemma emitted_closing (l : Lexer) (tag : String) :
    Emitted l (l.emitTag ⟨true, tag.toList.reverse, []⟩ false) (.endTag tag) := by
  rw [emitTag, reverse_reverse, String.ofList_toList]
  exact ⟨pending_flush l, rfl⟩

namespace Emitted

variable {l l' : Lexer} {t : Token} (h : Emitted l l' t)

include h

lemma events : l'.events = l.events ++ t.events := by
  rw [Lexer.events, done_flush_of_nil h.pending, h.done, reverse_cons, flatMap_append, flatMap_singleton]
  rfl

lemma exists_done : ∃ cs, l'.done.reverse = l.done.reverse ++ (texts cs ++ [t]) :=
  ⟨_, by rw [h.done, reverse_cons, reverse_done_flush, append_assoc]⟩

end Emitted

/-- Some events were read between two lexers, from tokens that are well nested. -/
structure Reads (l l' : Lexer) (es : List Event) : Prop where
  events : Event.merge l'.events = Event.merge (l.events ++ es)
  tokens : ∃ ts, l'.done.reverse = l.done.reverse ++ ts ∧ WellNested ts

lemma Reads.refl (l : Lexer) : Reads l l [] :=
  ⟨by rw [append_nil], [], by rw [append_nil], wellNested_nil⟩

lemma Reads.trans {l m n : Lexer} {fs : List Event} (h : Reads l m es) (h' : Reads m n fs) :
    Reads l n (es ++ fs) := by
  obtain ⟨ts, hts, hnested⟩ := h.tokens
  obtain ⟨us, hus, hnested'⟩ := h'.tokens
  refine ⟨?_, ts ++ us, by rw [hus, hts, append_assoc], hnested.append hnested'⟩
  rw [h'.events, Event.merge_append, h.events, ← Event.merge_append, append_assoc]

lemma Emitted.reads {l l' : Lexer} {t : Token} (h : Emitted l l' t) (ht : WellNested [t]) : Reads l l' t.events := by
  obtain ⟨cs, hdone⟩ := h.exists_done
  exact ⟨by rw [h.events], texts cs ++ [t], hdone, (wellNested_texts cs).append ht⟩

lemma reads_pushAll {l : Lexer} (hne : s.toList ≠ [])
    (hdecode : l.content.decode (l.pending.reverse ++ cs) = l.content.decode l.pending.reverse ++ s.toList) :
    Reads l (l.pushAll cs) [.leaf (.text s)] := by
  refine ⟨?_, [], (append_nil _).symm, wellNested_nil⟩
  have hpending : (l.pushAll cs).pending.reverse = l.pending.reverse ++ cs := by
    rw [pushAll, reverse_append, reverse_reverse]
  have hcontent : (l.pushAll cs).content = l.content := rfl
  have hdone : (l.pushAll cs).done = l.done := rfl
  rw [events_eq, events_eq, hcontent, hpending, hdone, hdecode, append_assoc, Event.merge_append, Event.merge_append]
  generalize l.content.decode l.pending.reverse = before
  rw [texts_of_ne_nil (fun h => hne (append_eq_nil_iff.1 h).2)]
  by_cases hbefore : before = []
  · rw [hbefore, nil_append, String.ofList_toList]
    rfl
  · rw [texts_of_ne_nil hbefore]
    show Event.join _ (.leaf (.text (String.ofList (before ++ s.toList)))) =
      Event.join (Event.join _ (.leaf (.text (String.ofList before)))) (.leaf (.text s))
    rw [Event.join_join, String.ofList_append, String.ofList_toList]

lemma reads_element {e : Element} (htag : IsTagName e.tag.toList) (htidy : (Kind.element e).Tidy)
    (hvoid : e.isVoid = false) {l l₁ l₂ l₃ : Lexer} (hopen : Emitted l l₁ (.ofElement e))
    (hinside : Reads l₁ l₂ es) (hclose : Emitted l₂ l₃ (.endTag e.tag)) :
    Reads l l₃ (.opened e :: (es ++ [.closed e.tag])) := by
  have hevents : (Token.ofElement e).events = [.opened e] := by
    rw [events_ofElement htag htidy, hvoid]
    rfl
  obtain ⟨before, hopen'⟩ := hopen.exists_done
  obtain ⟨ts, hts, hnested⟩ := hinside.tokens
  obtain ⟨after, hclose'⟩ := hclose.exists_done
  refine ⟨?_, texts before ++ (.ofElement e :: (ts ++ texts after) ++ [.endTag e.tag]), ?_, ?_⟩
  · rw [hclose.events, Event.merge_append, hinside.events, ← Event.merge_append, hopen.events, hevents]
    simp [Token.events]
  · rw [hclose', hts, hopen']
    simp
  · refine (wellNested_texts before).append ⟨fun reason hmem => ?_, ?_⟩
    · have hmem' : Token.truncated reason ∈ ts ++ texts after := by simpa [Token.ofElement] using hmem
      exact (hnested.append (wellNested_texts after)).1 reason hmem'
    · have hopen : (Builder.elementOf e.tag (e.attributes.map (fun a => (a.rawName, a.value)))).isVoid = false := by
        rwa [elementOf_eq htag htidy]
      have hbalanced := balanced_element hopen (hnested.append (wellNested_texts after)).2
      rwa [lower_of_isTagName htag] at hbalanced

/-- Text is read, and the text that is pending is an escaped one. -/
structure Settled (l : Lexer) : Prop extends Ready l where
  pending : ∃ cs : List Char, l.pending.reverse = cs.flatMap escapeTextChar

lemma Emitted.settled {l l' : Lexer} {t : Token} (h : Emitted l l' t) (hready : l'.Ready) : l'.Settled :=
  ⟨hready, [], by rw [h.pending]; rfl⟩

def Rereads (l : Lexer) (cs : List Char) (es : List Event) : Prop := (l.run cs).Settled ∧ Reads l (l.run cs) es

lemma Rereads.append {l : Lexer} {a b : List Char} {fs : List Event} (h : Rereads l a es)
    (h' : Rereads (l.run a) b fs) : Rereads l (a ++ b) (es ++ fs) := by
  rw [Rereads, run_append]
  exact ⟨h'.1, h.2.trans h'.2⟩

/-! ## Nodes without children -/

lemma Ready.pushAll {l : Lexer} (h : l.Ready) (cs : List Char) : (l.pushAll cs).Ready := ⟨h.state, h.content⟩

lemma Ready.run_text {l : Lexer} (h : l.Ready) : ∀ {cs : List Char}, '<' ∉ cs → '\x00' ∉ cs → l.run cs = l.pushAll cs
  | [], _, _ => rfl
  | c :: cs, hlt, hnul => by
    rw [mem_cons, not_or] at hlt hnul
    have hstep : l.step c = l.push c := by
      rw [h.step_of_ne (Ne.symm hlt.1), if_neg (Ne.symm hnul.1), ← h.state]
      rfl
    have hready : (l.push c).Ready := h.pushAll [c]
    rw [run_cons, hstep, hready.run_text hlt.2 hnul.2, pushAll_cons]

namespace Settled

variable {l : Lexer} (hl : l.Settled)

include hl

lemma rereads_text (hne : s.toList ≠ []) (hnul : '\x00' ∉ s.toList) :
    Rereads l (escapeText s).toList [.leaf (.text s)] := by
  obtain ⟨cs, hcs⟩ := hl.pending
  have hescaped : l.pending.reverse ++ (escapeText s).toList = (cs ++ s.toList).flatMap escapeTextChar := by
    rw [hcs, toList_escapeText, flatMap_append]
  have hdecode : ∀ cs, Content.normal.decode (cs.flatMap escapeTextChar) = cs :=
    Reference.escapes_text.decode_flatMap false
  have hrun : l.run (escapeText s).toList = l.pushAll (escapeText s).toList := by
    refine hl.run_text ?_ ?_ <;> rw [toList_escapeText]
    · exact not_mem_flatMap_of_forall lt_not_mem_escapeTextChar _
    · exact not_mem_escaped Reference.escapes_text (by decide) hnul
  rw [Rereads, hrun]
  refine ⟨⟨hl.toReady.pushAll _, cs ++ s.toList, ?_⟩, reads_pushAll hne ?_⟩
  · rw [← hescaped, pushAll, reverse_append, reverse_reverse]
  · rw [hl.content, hescaped, hcs, hdecode, hdecode]

lemma rereads_comment (hs : CommentText s.toList) :
    Rereads l (commentChars s.toList) [.leaf (.comment s)] := by
  have hemitted := emitted_emit l (.comment s)
  rw [Rereads, run_comment hl.toReady hs, emitComment, reverse_reverse, String.ofList_toList]
  exact ⟨hemitted.settled (hl.toReady.emit _), hemitted.reads (wellNested_singleton rfl (by simp))⟩

lemma rereads_doctype {name : String} (hname : IsDoctypeName name.toList) :
    Rereads l (doctypeChars name.toList) [.leaf (.doctype name)] := by
  have hemitted := emitted_emit l (.doctype (some name))
  rw [Rereads, run_doctype hl.toReady hname, emitDoctype, Option.map_some, reverse_reverse, String.ofList_toList]
  exact ⟨hemitted.settled (hl.toReady.emit _), hemitted.reads (wellNested_singleton rfl (by simp))⟩

end Settled

/-! ## Elements and what is in them -/

section

variable {e : Element} (htag : IsTagName e.tag.toList) (htidy : (Kind.element e).Tidy)
  (hsteady : (Kind.element e).isSteady = true) {l : Lexer} (hl : l.Settled)

include htag htidy hsteady hl

lemma run_written : l.run e.opening.toList =
    { l.emit (.ofElement e) with content := contentOf e.tag, lastStart := e.tag } := by
  rw [← e.openingChars_eq, run_opening hl.toReady htag (fits_written_of_tidy htidy hsteady), emitTag_written htidy]

lemma emitted_opening : Emitted l (l.run e.opening.toList) (.ofElement e) := by
  rw [run_written htag htidy hsteady hl]
  exact ⟨pending_flush l, rfl⟩

lemma rereads_void (hvoid : e.isVoid = true) : Rereads l e.opening.toList [.opened e, .closed e.tag] := by
  have hnormal : contentOf e.tag = .normal := by
    by_contra hraw
    rw [Layer.isVoid_of_contentOf hraw] at hvoid
    cases hvoid
  have hemitted := emitted_opening htag htidy hsteady hl
  have hready : (l.run e.opening.toList).Ready := by
    rw [run_written htag htidy hsteady hl]
    exact ⟨rfl, hnormal⟩
  have hnested : WellNested [.ofElement e] := by
    refine wellNested_singleton ?_ nofun
    rw [bracket?_ofElement htag htidy, hvoid, if_pos rfl]
  have hreads := hemitted.reads hnested
  rw [events_ofElement htag htidy, hvoid] at hreads
  exact ⟨hemitted.settled hready, hreads⟩

lemma rereads_element (hvoid : e.isVoid = false) (hnormal : contentOf e.tag = .normal)
    (hinside : ∀ {l : Lexer}, l.Settled → Rereads l cs es) :
    Rereads l (e.opening.toList ++ cs ++ e.closing.toList) (.opened e :: (es ++ [.closed e.tag])) := by
  have hopen := emitted_opening htag htidy hsteady hl
  have hready : (l.run e.opening.toList).Ready := by
    rw [run_written htag htidy hsteady hl]
    exact ⟨rfl, hnormal⟩
  obtain ⟨hsettled, hreads⟩ := hinside (hopen.settled hready)
  have hclose := emitted_closing ((l.run e.opening.toList).run cs) e.tag
  rw [Rereads, run_append, run_append, ← e.closingChars_eq, run_closing hsettled.toReady htag]
  exact ⟨hclose.settled (emitTag_closed _ e.tag).1, reads_element htag htidy hvoid hopen hreads hclose⟩

lemma rereads_raw (hraw : contentOf e.tag ≠ .normal) (hcs : Rescans e.tag cs) (hnul : '\x00' ∉ cs)
    (hinside : ∀ {l : Lexer}, l.content = contentOf e.tag → l.pending = [] → Reads l (l.pushAll cs) es) :
    Rereads l (e.opening.toList ++ cs ++ e.closing.toList) (.opened e :: (es ++ [.closed e.tag])) := by
  have hopen := emitted_opening htag htidy hsteady hl
  obtain ⟨hstate, hcontent, hlast⟩ : (l.run e.opening.toList).state = .content .none ∧
      (l.run e.opening.toList).content = contentOf e.tag ∧ (l.run e.opening.toList).lastStart = e.tag := by
    rw [run_written htag htidy hsteady hl]
    exact ⟨rfl, rfl, rfl⟩
  have hclose := emitted_closing ((l.run e.opening.toList).pushAll cs) e.tag
  rw [Rereads, append_assoc, run_append, ← e.closingChars_eq, hcs _ hstate hcontent hlast, map_shown_of_not_mem hnul]
  exact ⟨hclose.settled (emitTag_closed _ e.tag).1,
    reads_element htag htidy (Layer.isVoid_of_contentOf hraw) hopen (hinside hcontent hopen.pending) hclose⟩

end

lemma reads_rawText {tag : String} (hraw : contentOf tag ≠ .normal) (htext : IsTextOf tag s) (hne : s.toList ≠ [])
    (hnul : '\x00' ∉ s.toList) :
    let cs := (if verbatimTags.contains tag then s else escapeText s).toList
    Rescans tag cs ∧ '\x00' ∉ cs ∧
      ∀ {l : Lexer}, l.content = contentOf tag → l.pending = [] → Reads l (l.pushAll cs) [.leaf (.text s)] := by
  have hreads : ∀ {cs : List Char}, (contentOf tag).decode cs = s.toList → ∀ {l : Lexer}, l.content = contentOf tag →
      l.pending = [] → Reads l (l.pushAll cs) [.leaf (.text s)] := by
    intro cs hdecode l hcontent hpending
    have hnil : (contentOf tag).decode [] = [] := by cases contentOf tag <;> rfl
    refine reads_pushAll hne ?_
    rw [hcontent, hpending, reverse_nil, nil_append, hdecode, hnil, nil_append]
  by_cases hverbatim : verbatimTags.contains tag = true
  · -- Text that is kept as it is, is neither escaped nor decoded.
    rw [if_pos hverbatim]
    have hcontent : contentOf tag = .script ∨ contentOf tag = .verbatim := by
      rcases tag_of_verbatim hverbatim with rfl | rfl
      · exact .inl rfl
      · exact .inr rfl
    have hrescans : Rescans tag s.toList := by
      rcases htext with hescapable | ⟨-, hrescans⟩
      · rw [hescapable] at hcontent
        rcases hcontent with h | h <;> cases h
      · exact hrescans
    have hdecode : (contentOf tag).decode s.toList = s.toList := by rcases hcontent with h | h <;> rw [h] <;> rfl
    exact ⟨hrescans, hnul, hreads hdecode⟩
  · rw [if_neg hverbatim, toList_escapeText]
    have hcontent : contentOf tag = .escapable := by
      rcases tag_of_contentOf hraw with rfl | rfl | rfl | rfl
      · exact absurd rfl hverbatim
      · exact absurd rfl hverbatim
      · rfl
      · rfl
    have hdecode : (contentOf tag).decode (s.toList.flatMap escapeTextChar) = s.toList := by
      rw [hcontent]
      exact Reference.escapes_text.decode_flatMap false s.toList
    exact ⟨rescans_of_not_mem hraw (not_mem_flatMap_of_forall lt_not_mem_escapeTextChar _),
      not_mem_escaped Reference.escapes_text (by decide) hnul, hreads hdecode⟩

mutual

theorem rereads_tree : ∀ (t : Tree), t.Each Faithful → ∀ {l : Lexer}, l.Settled →
    Rereads l (t.renderIn false).toList t.events
  | .node .document position children, h, l, hl => absurd rfl (Tree.each_node.1 h).1.leafy.1
  | .node (.text s) position children, h, l, hl => by
    obtain ⟨hne, hnul⟩ := (Tree.each_node.1 h).1.tidy
    exact hl.rereads_text hne hnul
  | .node (.comment s) position children, h, l, hl => by
    have hread := hl.rereads_comment (Tree.each_node.1 h).1.sound.1
    rwa [commentChars_eq] at hread
  | .node (.doctype name) position children, h, l, hl => by
    have hread := hl.rereads_doctype (Tree.each_node.1 h).1.sound
    rwa [doctypeChars_eq] at hread
  | .node (.raw html) position children, h, l, hl => (Tree.each_node.1 h).1.sound.elim
  | .node (.element e) position children, h, l, hl => by
    obtain ⟨⟨⟨htag, hsound⟩, hleafy, htidy, hsteady⟩, hchildren⟩ := Tree.each_node.1 h
    rw [Tree.renderIn, Tree.events]
    cases hvoid : e.isVoid with
    | true =>
      rw [hleafy hvoid]
      exact rereads_void htag htidy hsteady hl hvoid
    | false =>
      rw [if_neg Bool.false_ne_true, String.toList_append, String.toList_append]
      by_cases hnormal : contentOf e.tag = .normal
      · rw [not_verbatim_of_contentOf hnormal]
        exact rereads_element htag htidy hsteady hl hvoid hnormal (rereads_trees children hchildren)
      · rcases hsound.resolve_left hnormal with rfl | ⟨s, at_, rfl, htext⟩
        · exact rereads_raw htag htidy hsteady hl hnormal (rescans_of_not_mem hnormal not_mem_nil) not_mem_nil
            (fun _ _ => .refl _)
        · obtain ⟨hne, hnul⟩ := (Tree.each_leaf.1 (hchildren _ (.head _))).tidy
          obtain ⟨hrescans, hnul', hinside⟩ := reads_rawText hnormal htext hne hnul
          have hread := rereads_raw htag htidy hsteady hl hnormal hrescans hnul' hinside
          rwa [Tree.renderAllIn, Tree.renderAllIn, String.append_empty, Tree.eventsAll_singleton]

theorem rereads_trees : ∀ (ts : List Tree), (∀ t ∈ ts, t.Each Faithful) → ∀ {l : Lexer}, l.Settled →
    Rereads l (Tree.renderAllIn false ts).toList (Tree.eventsAll ts)
  | [], _, l, hl => ⟨hl, .refl l⟩
  | t :: ts, h, l, hl => by
    obtain ⟨ht, hts⟩ := forall_mem_cons.1 h
    have hfirst := rereads_tree t ht hl
    rw [Tree.renderAllIn, String.toList_append]
    exact hfirst.append (rereads_trees ts hts hfirst.1)

end

/-! ## The whole document -/

lemma Settled.finish_eq {l : Lexer} (h : l.Settled) : l.finish = l.flush := by
  obtain ⟨cs, hcs⟩ := h.pending
  have hcut : Reference.cutShort? l.pending.reverse = none := by
    rw [hcs]
    exact Reference.cutShort?_eq_none (Reference.escapes_text.not_infix cs)
  rw [finish, h.state]
  simp [finishContent, h.content, hcut]

end Lexer

namespace Tree

lemma line_not_mem_opening {e : Element} (htag : IsTagName e.tag.toList) (htidy : (Kind.element e).Tidy)
    (hsteady : (Kind.element e).isSteady = true) : '\r' ∉ e.opening.toList := by
  rw [← e.openingChars_eq, openingChars]
  have hfits := fits_written_of_tidy htidy hsteady
  have hattributes : '\r' ∉ (e.attributes.map Attribute.written).flatMap Written.chars := by
    intro hmem
    obtain ⟨w, hw, hchar⟩ := mem_flatMap.1 hmem
    have hname : '\r' ∉ w.name := fun hmem => (isAttributeChar_iff.1 ((hfits w hw).name _ hmem)).2.2.2.2.2 rfl
    have hvalue : ∀ v, w.value = some v → '\r' ∉ v := by
      intro v hv
      obtain ⟨a, ha, rfl⟩ := mem_map.1 hw
      have hall := all_eq_true.1 hsteady a ha
      rw [Bool.and_eq_true] at hall
      rw [Attribute.written] at hv
      split at hv
      · cases hv
      · cases hv
        exact not_mem_escaped Reference.escapes_value (by decide) (isSteady_iff.1 hall.1).1
    rw [Written.chars] at hchar
    cases hw : w.value with
    | none => simp [hw, hname] at hchar
    | some v => simp [hw, hname, hvalue v hw] at hchar
  simp [htag.not_mem, hattributes]

mutual

theorem line_not_mem : ∀ (t : Tree) (isVerbatim : Bool), t.Each Faithful → '\r' ∉ (t.renderIn isVerbatim).toList
  | .node .document position children, isVerbatim, h => absurd rfl (Tree.each_node.1 h).1.leafy.1
  | .node (.text s) position children, isVerbatim, h => by
    have hline := (isSteady_iff.1 (Tree.each_node.1 h).1.steady).1
    rw [renderIn]
    split
    · exact hline
    · rw [toList_escapeText]
      exact not_mem_escaped Reference.escapes_text (by decide) hline
  | .node (.comment s) position children, isVerbatim, h => by
    have hline := (Tree.each_node.1 h).1.sound.2
    rw [renderIn]
    simp [hline]
  | .node (.doctype name) position children, isVerbatim, h => by
    have hline : '\r' ∉ name.toList := fun hmem => ((Tree.each_node.1 h).1.sound.kept _ hmem).2.2.2 rfl
    rw [renderIn]
    simp [hline]
  | .node (.raw html) position children, isVerbatim, h => (Tree.each_node.1 h).1.sound.elim
  | .node (.element e) position children, isVerbatim, h => by
    obtain ⟨⟨⟨htag, -⟩, -, htidy, hsteady⟩, hchildren⟩ := Tree.each_node.1 h
    have hopening := line_not_mem_opening htag htidy hsteady
    have hclosing : '\r' ∉ e.closing.toList := by
      rw [← e.closingChars_eq, closingChars]
      simp [htag.not_mem]
    rw [renderIn]
    split
    · exact hopening
    · rw [String.toList_append, String.toList_append, mem_append, mem_append, not_or, not_or]
      exact ⟨⟨hopening, line_not_mem_all children _ hchildren⟩, hclosing⟩

theorem line_not_mem_all : ∀ (ts : List Tree) (isVerbatim : Bool), (∀ t ∈ ts, t.Each Faithful) →
    '\r' ∉ (renderAllIn isVerbatim ts).toList
  | [], isVerbatim, _ => not_mem_nil
  | t :: ts, isVerbatim, h => by
    obtain ⟨ht, hts⟩ := forall_mem_cons.1 h
    rw [renderAllIn, String.toList_append, mem_append, not_or]
    exact ⟨line_not_mem t isVerbatim ht, line_not_mem_all ts isVerbatim hts⟩

end

lemma head?_ne_of_faithful {ts : List Tree} (h : ∀ t ∈ ts, t.Each Faithful) :
    (renderAllIn false ts).toList.head? ≠ some '\ufeff' := by
  cases ts with
  | nil => exact nofun
  | cons t ts =>
    have hfaithful : Faithful t := h t (.head _) t (by cases t; exact (.head _))
    suffices hhead : ∃ c cs, (t.renderIn false).toList = c :: cs ∧ c ≠ '\ufeff' by
      obtain ⟨c, cs, hcs, hc⟩ := hhead
      rw [renderAllIn, String.toList_append, hcs]
      exact fun h => hc (Option.some.inj h)
    obtain ⟨kind, position, children⟩ := t
    cases kind with
    | document => exact absurd rfl hfaithful.leafy.1
    | raw html => exact hfaithful.sound.elim
    | text s =>
      have hmark : '\ufeff' ∉ (escapeText s).toList := by
        rw [toList_escapeText]
        exact not_mem_escaped Reference.escapes_text (by decide) (isSteady_iff.1 hfaithful.steady).2
      have hne : (escapeText s).toList ≠ [] := by
        rw [toList_escapeText]
        intro hnil
        have := Reference.escapes_text.decode_flatMap false s.toList
        rw [hnil] at this
        exact hfaithful.tidy.1 this.symm
      obtain ⟨c, cs, hcs⟩ := exists_cons_of_ne_nil hne
      exact ⟨c, cs, hcs, fun hc => hmark (by rw [hcs, hc]; exact (.head _))⟩
    | comment s =>
      rw [renderIn, ← commentChars_eq]
      exact ⟨_, _, rfl, by decide⟩
    | doctype name =>
      rw [renderIn, ← doctypeChars_eq]
      exact ⟨_, _, rfl, by decide⟩
    | element e =>
      have hopening : ∃ cs, e.opening.toList = '<' :: cs := ⟨_, e.openingChars_eq.symm⟩
      obtain ⟨cs, hcs⟩ := hopening
      rw [renderIn]
      split
      · exact ⟨_, _, hcs, by decide⟩
      · rw [String.toList_append, String.toList_append, hcs]
        exact ⟨_, _, rfl, by decide⟩

end Tree

lemma tokens_renderAllIn {ts : List Tree} (h : ∀ t ∈ ts, t.Each Faithful) :
    WellNested (tokens (Tree.renderAllIn false ts)) ∧
      Event.merge ((tokens (Tree.renderAllIn false ts)).flatMap Token.events) = Event.merge (Tree.eventsAll ts) := by
  obtain ⟨hsettled, hevents, us, hdone, hnested⟩ := rereads_trees ts h (l := {}) ⟨⟨rfl, rfl⟩, [], rfl⟩
  have htokens : tokens (Tree.renderAllIn false ts) =
      (({} : Lexer).run (Tree.renderAllIn false ts).toList).flush.done.reverse := by
    rw [tokens, unifyLines_dropMark (Tree.head?_ne_of_faithful h) (Tree.line_not_mem_all ts false h), hsettled.finish_eq]
  constructor
  · rw [htokens, reverse_done_flush, hdone]
    exact hnested.append (wellNested_texts _)
  · rw [htokens]
    exact hevents

/-- **Reading undoes writing.**  A document that was read from a source is written as HTML that is read again, as the
same tree up to positions. -/
theorem parse_render {source file : String} {d : Document} (h : parse source file = .ok d)
    (hsteady : (d.toTree root).isSteady = true) (file' : String) :
    ∃ d', parse (d.render root) file' = .ok d' ∧
      (d'.toTree root).unplaced = (d.toTree root).unplaced := by
  obtain ⟨forest, htree, hleafy, hevents⟩ := toTree_of_ofTokens h
  have hrender : d.render root = Tree.renderAllIn false forest := by
    rw [render, htree, Tree.renderIn]
  have hfaithful : ∀ t ∈ forest, t.Each Faithful := by
    have hsound := sound_of_parse h
    have htidy := tidy_of_parse h
    have hsteady' : (d.toTree root).Every (fun kind => kind.isSteady = true) := List.all_eq_true.1 hsteady
    rw [htree] at hsound htidy hsteady'
    intro t ht u hu
    exact ⟨(Tree.each_node.1 hsound).2 t ht u hu, hleafy t ht u hu, (Tree.every_node.1 htidy).2 t ht u hu,
      (Tree.every_node.1 hsteady').2 t ht u hu⟩
  obtain ⟨hnested, hmerge⟩ := tokens_renderAllIn hfaithful
  obtain ⟨d', hd'⟩ := exists_ofTokens (Tree.renderAllIn false forest) file' hnested
  obtain ⟨forest', htree', hleafy', hevents'⟩ := toTree_of_ofTokens hd'
  refine ⟨d', by rw [hrender, parse_eq, hd'], ?_⟩
  have heq : Tree.eventsAll forest' ++ [] = Tree.eventsAll forest ++ [] := by
    rw [hevents', hmerge, hevents, Event.merge_merge]
  have hcloses : Tree.Closes [] := fun e he => by cases he
  rw [htree, htree', Tree.unplaced, Tree.unplaced, (Tree.unplacedAll_eq hleafy' hleafy hcloses hcloses heq).1]

namespace RoundTrip

def page : String :=
  "<!DOCTYPE html><p class='a \"b\"' hidden>x > y<br>z</p><script>if (a<b) c = '<!--'</script>" ++
    "<textarea><b></textarea><!-- d --><?e>"

end RoundTrip

theorem parse_render_page : ∃ d d', parse RoundTrip.page "" = .ok d ∧
    (d.toTree root).isSteady = true ∧ parse (d.render root) "" = .ok d' ∧
    (d'.toTree root).unplaced = (d.toTree root).unplaced := by
  have hpage : (parse RoundTrip.page "").toOption.any (fun d => (d.toTree root).isSteady) = true := by
    rw [parse_eq_ofChars RoundTrip.page
      (String.toList_append.trans (congrArg₂ HAppend.hAppend String.toList_ofList String.toList_ofList))]
    decide +kernel
  obtain ⟨d, hparse, hsteady⟩ := exists_ok_of_any hpage
  obtain ⟨d', hagain, hsame⟩ := parse_render hparse hsteady ""
  exact ⟨d, d', hparse, hsteady, hagain, hsame⟩

end ReactiveTemplate.Markup
