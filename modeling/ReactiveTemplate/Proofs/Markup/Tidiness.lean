import ReactiveTemplate.Proofs.Markup.Decoding
import ReactiveTemplate.Proofs.Markup.Nesting
import ReactiveTemplate.Proofs.Markup.Scanning
/-!
# Tidiness — attributes and texts of sources

The reader hands out attributes with distinct names that read again as they are, and no text or value holds a NUL: a
step keeps this up (`Tidy.step`), so parsed documents are tidy (`tidy_of_parse`).
-/
set_option linter.all false

namespace ReactiveTemplate.Markup
open List

open Lexer

def Token.Tidy : Token → Prop
  | .startTag _ attributes _ => TidyAttributes String.toList attributes
  | .text s => s.toList ≠ [] ∧ '\x00' ∉ s.toList
  | _ => True

namespace Lexer

/-- Attributes only count where text is read as markup: elsewhere every tag is an end tag. -/
structure Tidy (l : Lexer) : Prop where
  state : l.content = .normal → l.state.Tidy
  pending : '\x00' ∉ l.pending.reverse ++ l.state.unread
  done : ∀ t ∈ l.done, t.Tidy

lemma State.tidy_of_isNote {s : State} (h : s.isNote = true) : s.Tidy ∧ s.unread = [] := by
  cases s <;> cases h <;> exact ⟨trivial, rfl⟩

namespace Tidy

variable {l : Lexer} {c : Char}

lemma not_mem_pending (h : l.Tidy) : '\x00' ∉ l.pending.reverse := fun hmem => h.pending (mem_append_left _ hmem)

lemma goto (h : l.Tidy) {s : State} (hs : s.Tidy) (hunread : s.unread = [] := by rfl) : (l.goto s).Tidy :=
  ⟨fun _ => hs, by rw [state_goto, hunread, append_nil]; exact h.not_mem_pending, h.done⟩

lemma pushAll (h : l.Tidy) {cs : List Char} (hcs : '\x00' ∉ cs) : (l.pushAll cs).Tidy := by
  refine ⟨h.state, ?_, h.done⟩
  show '\x00' ∉ (cs.reverse ++ l.pending).reverse ++ l.state.unread
  simpa [hcs] using h.pending

lemma push (h : l.Tidy) (hc : c ≠ '\x00') : (l.push c).Tidy := h.pushAll (by simpa using Ne.symm hc : '\x00' ∉ [c])

lemma decode (h : l.Tidy) : '\x00' ∉ l.content.decode l.pending.reverse := by
  have hpending := h.not_mem_pending
  cases l.content with
  | normal => exact Reference.not_mem_decode hpending
  | escapable => exact Reference.not_mem_decode hpending
  | verbatim => exact hpending
  | script => exact hpending

lemma flush (h : l.Tidy) : ∀ t ∈ l.flush.done, t.Tidy := by
  rw [done_flush]
  intro t ht
  rcases mem_append.1 ht with ht | ht
  · obtain ⟨s, hs, rfl⟩ := Option.map_eq_some_iff.1 (Option.mem_toList.1 ht)
    show s.toList ≠ [] ∧ '\x00' ∉ s.toList
    obtain ⟨htext, hne⟩ := toList_of_text? hs
    rw [htext]
    exact ⟨hne, h.decode⟩
  · exact h.done t ht

lemma emit (h : l.Tidy) {t : Token} (ht : t.Tidy) : (l.emit t).Tidy := by
  refine ⟨fun _ => trivial, ?_, forall_mem_cons.2 ⟨ht, h.flush⟩⟩
  show '\x00' ∉ l.flush.pending.reverse ++ []
  rw [pending_flush]
  exact not_mem_nil

variable {tag : Draft}

lemma emitTag (h : l.Tidy) (htag : tag.Tidy) (selfClosing : Bool) : (l.emitTag tag selfClosing).Tidy := by
  unfold Lexer.emitTag
  dsimp only
  split
  · have hemit := h.emit (t := .endTag (String.ofList tag.name.reverse)) trivial
    exact ⟨fun _ => trivial, hemit.pending, hemit.done⟩
  · have hattributes : TidyAttributes String.toList
        (tag.attributes.map (fun a => (a.1, String.ofList (Reference.decode true a.2)))) := by
      refine ⟨by simpa [map_map, Function.comp_def] using htag.nodup, fun a ha => ?_⟩
      obtain ⟨b, hb, rfl⟩ := mem_map.1 ha
      obtain ⟨hname, hvalue⟩ := htag.each b hb
      exact ⟨hname, by rw [String.toList_ofList]; exact Reference.not_mem_decode hvalue⟩
    have hemit := h.emit (t := .startTag (String.ofList tag.name.reverse) _ selfClosing) hattributes
    exact ⟨fun _ => trivial, hemit.pending, hemit.done⟩

/-! ## Where text is read as markup -/

lemma stepContent (h : l.Tidy) (hcontent : l.content = .normal) (e : Escape) (c : Char) :
    (l.stepContent e c).Tidy := by
  simp only [Lexer.stepContent, hcontent]
  split
  · exact h.goto trivial
  split
  · exact h.emit trivial
  · rename_i hnul
    exact (h.push hnul).goto trivial

lemma stepTagOpen (h : l.Tidy) (hcontent : l.content = .normal) (c : Char) : (l.stepTagOpen c).Tidy := by
  unfold Lexer.stepTagOpen
  split
  · exact h.goto trivial
  split
  · exact h.goto trivial
  split
  · exact h.goto trivial
  split
  · exact h.goto (Draft.tidy_nil _ _)
  · exact (h.push (by decide)).stepContent hcontent _ _

lemma stepEndTagOpen (h : l.Tidy) (c : Char) : (l.stepEndTagOpen c).Tidy := by
  unfold Lexer.stepEndTagOpen
  split
  · exact h.emit trivial
  split
  · exact h.goto (Draft.tidy_nil _ _)
  · exact h.goto trivial

lemma stepTagName (h : l.Tidy) (htag : tag.Tidy) (c : Char) : (l.stepTagName tag c).Tidy := by
  unfold Lexer.stepTagName
  split
  · exact h.goto htag
  split
  · exact h.goto htag
  split
  · exact h.emitTag htag _
  · exact h.goto (s := .tagName _) htag

lemma tagStep (h : l.Tidy) {tidy : Prop} (htidy : tidy) {m : Lexer} (hm : TagStep l tag tidy m) : m.Tidy := by
  cases hm with
  | goto hs _ hnext => exact h.goto (hnext htidy) (State.unread_of_tag? hs)
  | emit selfClosing _ hnext => exact h.emitTag (hnext htidy) selfClosing

lemma noteStep (h : l.Tidy) {m : Lexer} (hm : NoteStep l m) : m.Tidy := by
  cases hm with
  | goto hs => exact h.goto (State.tidy_of_isNote hs).1 (State.tidy_of_isNote hs).2
  | comment text => exact h.emit trivial
  | doctype name => exact h.emit trivial

lemma step_outside (h : l.Tidy) (hsound : l.Outside) (hc : c ≠ '\r') : (l.step c).Tidy := by
  have hstate := h.state hsound.content
  by_cases hnote : l.state.isNote = true
  · exact h.noteStep (Lexer.noteStep hnote c)
  cases htag : l.state.tag? with
  | some tag => exact h.tagStep ⟨hstate, hc⟩ (Lexer.tagStep htag c)
  | none =>
    have hs := hsound.state
    unfold Lexer.step
    split <;> rename_i heq <;> rw [heq] at hstate hs hnote htag <;>
      first | exact absurd hs id | exact absurd rfl hnote | cases htag
    · exact h.stepContent hsound.content _ c
    · exact h.stepTagOpen hsound.content c
    · exact h.stepEndTagOpen c
    · exact h.stepTagName hstate c

/-! ## Where it is not -/

lemma insideStep (h : l.Tidy) (hsound : l.Inside) {m : Lexer} (hm : InsideStep l c m) : m.Tidy := by
  cases hm with
  | text _ hread =>
    refine ⟨fun hnormal => absurd (hsound.content.symm.trans hnormal) hsound.raw, fun hmem => ?_, h.done⟩
    exact (mem_append.1 (hread _ hmem)).elim h.pending (fun hmem => shown_ne c (mem_singleton.1 hmem).symm)
  | ends =>
    have hemit := h.emit (t := .endTag l.lastStart) trivial
    exact ⟨fun _ => trivial, hemit.pending, hemit.done⟩

lemma run (h : l.Tidy) (hsound : l.Sound) {cs : List Char} (hcs : '\r' ∉ cs) : (l.run cs).Tidy := by
  induction cs generalizing l with
  | nil => exact h
  | cons c cs ih =>
    rw [mem_cons, not_or] at hcs
    have hstep : (l.step c).Tidy := hsound.elim (h.step_outside · (Ne.symm hcs.1)) (fun hs => h.insideStep hs (hs.insideStep c))
    exact ih hstep (hsound.step (Ne.symm hcs.1)) hcs.2

lemma finishContent (h : l.Tidy) (e : Escape) : ∀ t ∈ (l.finishContent e).done, t.Tidy := by
  unfold Lexer.finishContent
  dsimp only
  split
  · exact Tidy.done (h.emit trivial)
  · exact h.flush
  · exact Tidy.done (h.emit trivial)

lemma finish (h : l.Tidy) : ∀ t ∈ l.finish.done, t.Tidy := by
  have hunread : '\x00' ∉ l.state.unread := fun hmem => h.pending (mem_append_right _ hmem)
  unfold Lexer.finish
  split <;> first
    | exact Tidy.done (h.emit trivial)
    | exact h.finishContent _
    | exact (h.push (by decide)).finishContent _
    | exact (h.pushAll (by decide)).finishContent _
    | skip
  rename_i hs
  rw [hs] at hunread
  exact (h.pushAll hunread).finishContent _

end Tidy

end Lexer

lemma tidy_tokens (source : String) : ∀ t ∈ tokens source, t.Tidy := by
  have hstart : ({} : Lexer).Tidy := ⟨fun _ => trivial, not_mem_nil, nofun⟩
  intro t ht
  exact (hstart.run sound_start (not_mem_line _)).finish t (mem_reverse.1 ht)

/-! ## The nodes of a document -/

def Kind.Tidy : Kind → Prop
  | .element e => (∀ a ∈ e.attributes, a = Attribute.new a.rawName a.value) ∧
      TidyAttributes String.toList (e.attributes.map (fun a => (a.rawName, a.value)))
  | .text s => s.toList ≠ [] ∧ '\x00' ∉ s.toList
  | _ => True

lemma tidy_of_parse {source file : String} {d : Document} (h : Document.parse source file = .ok d) :
    (d.toTree Document.root).Every Kind.Tidy := by
  refine every_of_parse h trivial (fun s s' hs hs' => ?_) (fun t ht kind hkind => ?_)
  · show (s ++ s').toList ≠ [] ∧ '\x00' ∉ (s ++ s').toList
    rw [String.toList_append, mem_append, not_or]
    exact ⟨fun hnil => hs.1 (append_eq_nil_iff.1 hnil).1, hs.2, hs'.2⟩
  · have htidy := tidy_tokens source t ht
    cases t with
    | startTag name attributes selfClosing =>
      cases hkind
      refine ⟨fun a ha => ?_, ?_⟩
      · obtain ⟨b, -, rfl⟩ := mem_map.1 ha
        rfl
      · rw [Builder.elementOf, map_map]
        exact (map_id attributes).symm ▸ htidy
    | text s =>
      cases hkind
      exact htidy
    | comment s => cases hkind; trivial
    | doctype name => cases hkind; trivial
    | endTag name => cases hkind
    | ignored => cases hkind
    | truncated reason => cases hkind

end ReactiveTemplate.Markup
