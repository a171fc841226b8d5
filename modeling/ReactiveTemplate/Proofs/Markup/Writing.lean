import ReactiveTemplate.Proofs.Markup.Spelling
/-!
# Writing — nodes as they are written

What is written of a node, as the characters that the reader is known to read: the start tag of an element with its
attributes, its end tag, comments and doctypes.
-/
namespace ReactiveTemplate.Markup

open Lexer (Written contentOf)

/-! ## Escaped characters -/

lemma lt_not_mem_escapeTextChar (c : Char) : '<' ∉ escapeTextChar c := by
  unfold escapeTextChar
  split
  · decide
  · split
    · decide
    · rename_i hlt
      split
      · decide
      · simpa using fun h => hlt h.symm

lemma lt_not_mem_escapeHtmlChar (c : Char) : '<' ∉ escapeHtmlChar c := by
  unfold escapeHtmlChar
  split
  · decide
  · split
    · decide
    · exact lt_not_mem_escapeTextChar c

lemma quote_not_mem_escapeValueChar (c : Char) : '"' ∉ escapeValueChar c := by
  unfold escapeValueChar
  split
  · decide
  · split
    · decide
    · rename_i hquote
      simpa using fun h => hquote h.symm

lemma not_mem_flatMap_of_forall {x : Char} {f : Char → List Char} (h : ∀ c, x ∉ f c) (cs : List Char) :
    x ∉ cs.flatMap f := by
  intro hmem
  obtain ⟨c, -, hc⟩ := List.mem_flatMap.1 hmem
  exact h c hc

/-! ## Elements as they are written -/

def Attribute.written (a : Attribute) : Written :=
  ⟨a.rawName.toList, if a.value.toList = [] then none else some (a.value.toList.flatMap escapeValueChar)⟩

lemma Attribute.chars_written (a : Attribute) : a.written.chars = a.render.toList := by
  rw [toList_render, Written.chars, written]
  split <;> simp

lemma Attribute.fits_written {a : Attribute} (hne : a.rawName.toList ≠ [])
    (hname : ∀ c ∈ a.rawName.toList, Lexer.isAttributeChar c = true) : a.written.Fits := by
  refine ⟨hne, hname, fun v hv => ?_⟩
  simp only [written] at hv
  split at hv
  · cases hv
  · cases hv
    exact not_mem_flatMap_of_forall quote_not_mem_escapeValueChar _

lemma Element.openingChars_eq (e : Element) :
    Lexer.openingChars e.tag.toList (e.attributes.map Attribute.written) = e.opening.toList := by
  rw [Element.toList_opening, toList_renderAttributes, Lexer.openingChars, List.flatMap_map]
  simp [Attribute.chars_written]

lemma Element.closingChars_eq (e : Element) : Lexer.closingChars e.tag.toList = e.closing.toList := by
  rw [Element.toList_closing, Lexer.closingChars]
  simp

lemma commentChars_eq (s : String) : Lexer.commentChars s.toList = ("<!--" ++ s ++ "-->").toList := by
  rw [String.toList_append, String.toList_append]
  rfl

lemma doctypeChars_eq (s : String) : Lexer.doctypeChars s.toList = ("<!DOCTYPE " ++ s ++ ">").toList := by
  rw [String.toList_append, String.toList_append]
  rfl

lemma tag_of_verbatim {tag : String} (h : verbatimTags.contains tag = true) : tag = "script" ∨ tag = "style" := by
  simpa [verbatimTags] using h

lemma not_verbatim_of_contentOf {tag : String} (h : contentOf tag = .normal) : verbatimTags.contains tag = false := by
  refine Bool.eq_false_iff.2 (fun hverbatim => ?_)
  rcases tag_of_verbatim hverbatim with rfl | rfl <;> cases h

end ReactiveTemplate.Markup
