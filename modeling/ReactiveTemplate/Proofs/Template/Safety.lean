import ReactiveTemplate.Proofs.Markup.Contents
import ReactiveTemplate.Proofs.Markup.Writing
import ReactiveTemplate.Proofs.Template.Meaning
/-!
# Safety — values make no markup

`Page.markup` is the sequence of tags, comments and doctypes that a tree shows when it is told which conditions hold.
-/
set_option linter.all false

namespace ReactiveTemplate
open List

namespace Markup

open Lexer (contentOf Rescans)

def Kind.isEscaped : Kind → Bool
  | .text s => !Text.contains s "#\x7b"
  | _ => true

lemma Kind.isEscaped_text {s : String} : (Kind.text s).isEscaped = true ↔ Text.contains s "#\x7b" = false := by
  rw [isEscaped, Bool.not_eq_true']

def Tree.isEscaped (t : Tree) : Bool := t.preorder.all (fun u => u.kind.isEscaped)

def Fills (tag : String) (cs : List Char) (ts : List Token) : Prop :=
  (contentOf tag = .normal ∧ Spells cs ts) ∨
    (contentOf tag ≠ .normal ∧ ts = [] ∧ ('<' ∉ cs ∨ '\r' ∉ cs ∧ Rescans tag cs))

end Markup

open Markup

namespace Page

/-! ## The markup of a tree -/

def tagged (e : Element) (content : List Token) : List Token :=
  .opened e.tag (e.attributes.map (·.rawName.toList)) :: (if e.isVoid then [] else content ++ [.endTag e.tag])

def guardedMarkup (holds : String → Bool) (content : List Token) : List Attribute → Element → List Token
  | [], e => tagged e content
  | [a], e => if holds a.value then tagged (e.remove "if") content else []
  | _ :: b :: more, e => guardedMarkup holds content (b :: more) (e.remove "if")

mutual
def markup (holds : String → Bool) : Tree → List Token
  | .node .document _ children => markups holds children
  | .node (.element e) _ children =>
    if e.tag = "if" then if holds (conditionOf e) then markups holds children else []
    else guardedMarkup holds (markups holds children) (guards e) e
  | .node (.comment s) _ _ => [.comment s]
  | .node (.doctype name) _ _ => [.doctype (some name)]
  | .node _ _ _ => []

def markups (holds : String → Bool) : List Tree → List Token
  | [] => []
  | t :: ts => markup holds t ++ markups holds ts
end

def deciding? (e : Element) : Option String :=
  if e.tag = "if" then some (conditionOf e) else (guards e).getLast?.map (·.value)

mutual
/-- The conditions that are evaluated to show a tree: none of those that stand in what is not shown. -/
def conditions (holds : String → Bool) : Tree → List String
  | .node .document _ children => allConditions holds children
  | .node (.element e) _ children =>
    (deciding? e).toList ++ if (deciding? e).all holds then allConditions holds children else []
  | .node _ _ _ => []

def allConditions (holds : String → Bool) : List Tree → List String
  | [] => []
  | t :: ts => conditions holds t ++ allConditions holds ts
end

/-! ## Markup depends on conditions only -/

section

variable {p q : String → Bool}

lemma guardedMarkup_congr {content₁ content₂ : List Token} : ∀ (as : List Attribute) (e : Element),
    (∀ a ∈ as.getLast?, p a.value = q a.value) →
    (as.getLast?.all (fun a => p a.value) = true → content₁ = content₂) →
    guardedMarkup p content₁ as e = guardedMarkup q content₂ as e
  | [], e, _, hcontent => by
    rw [guardedMarkup, guardedMarkup, hcontent rfl]
  | [a], e, hlast, hcontent => by
    rw [guardedMarkup, guardedMarkup, ← hlast a rfl]
    split
    · rename_i hholds
      rw [hcontent (by simpa using hholds)]
    · rfl
  | _ :: b :: more, e, hlast, hcontent => by
    exact guardedMarkup_congr (b :: more) _ hlast hcontent

mutual
theorem markup_congr : ∀ t : Tree, (∀ source ∈ conditions p t, p source = q source) → markup p t = markup q t
  | .node .document _ children, h => by
    exact markups_congr children h
  | .node (.element e) _ children, h => by
    rw [conditions] at h
    have hdecide : ∀ source ∈ deciding? e, p source = q source := fun source hsource =>
      h source (mem_append_left _ (Option.mem_toList.2 hsource))
    have hbelow : (deciding? e).all p = true → markups p children = markups q children := by
      intro hall
      rw [if_pos hall] at h
      exact markups_congr children (fun source hsource => h source (mem_append_right _ hsource))
    rw [markup, markup]
    unfold deciding? at hdecide hbelow
    split
    · rename_i htag
      rw [if_pos htag] at hdecide hbelow
      rw [← hdecide _ rfl]
      split
      · rename_i hholds
        exact hbelow hholds
      · rfl
    · rename_i htag
      rw [if_neg htag] at hdecide hbelow
      refine guardedMarkup_congr _ e (fun a ha => hdecide _ (Option.mem_map_of_mem _ ha)) (fun hall => hbelow ?_)
      rwa [Option.all_map]
  | .node (.text _) _ _, _ => rfl
  | .node (.comment _) _ _, _ => rfl
  | .node (.doctype _) _ _, _ => rfl
  | .node (.raw _) _ _, _ => rfl

theorem markups_congr : ∀ ts : List Tree, (∀ source ∈ allConditions p ts, p source = q source) →
    markups p ts = markups q ts
  | [], _ => rfl
  | t :: ts, h => by
    rw [markups, markups, markup_congr t (fun source hsource => h source (mem_append_left _ hsource)),
      markups_congr ts (fun source hsource => h source (mem_append_right _ hsource))]
end

end

/-! ## Names as they are written -/

def names (a : Attribute) : String × String := (a.rawName, a.name)

lemma names_setIn (rawName value : String) : ∀ {as : List Attribute},
    normalName rawName ∈ as.map (fun a => (names a).2) →
    (setIn as (Attribute.new rawName value)).map names = as.map names
  | [], h => by cases h
  | a :: as, h => by
    rw [setIn]
    split
    · rfl
    · rename_i hne
      rw [Attribute.name_new, beq_iff_eq, eq_comm] at hne
      rw [map_cons, mem_cons] at h
      have hrest := h.resolve_left hne
      rw [map_cons, map_cons, names_setIn rawName value hrest]

lemma names_fill (scope : Json) : ∀ (as : List Attribute) (e : Json → Element) (s : Sequence),
    (∀ a ∈ as, normalName a.rawName ∈ (e scope).attributes.map (fun a => (names a).2)) →
    ((fill as e s).1 scope).attributes.map names = (e scope).attributes.map names
  | [], _, _, _ => rfl
  | a :: as, e, s, h => by
    have hset := names_setIn a.rawName (String.ofList (attributeText scope (scan a.value s).1.parts))
      (h a (.head _))
    rw [fill, names_fill scope as]
    · exact hset
    · intro b hb
      have hname := congrArg (map Prod.snd) hset
      rw [map_map, map_map] at hname
      exact hname ▸ h b (.tail _ hb)

lemma rawNames_filled {e : Element} (hnamed : ∀ a ∈ e.attributes, a.name = normalName a.rawName) (s : Sequence)
    (scope : Json) :
    ((filled e s).1 scope).attributes.map (·.rawName.toList) = e.attributes.map (·.rawName.toList) := by
  have hfill := names_fill scope (e.attributes.filter (fun a => Interpolation.hasMarkers a.value))
    (fun _ => e) s (fun a ha => ?_)
  · have := congrArg (map (fun pair => pair.1.toList)) hfill
    rwa [map_map, map_map] at this
  · have ha := mem_of_mem_filter ha
    rw [← hnamed a ha]
    exact mem_map_of_mem ha

/-! ## What is shown spells out its markup -/

/-- A node that reads again as it is written, and in which values are escaped. -/
structure Safe (t : Tree) : Prop where
  sound : t.Sound
  plain : t.kind.isPlain = true
  escaped : t.kind.isEscaped = true
  named : ∀ a ∈ t.kind.attributes, a.name = Markup.normalName a.rawName

lemma spells_element {e : Element} (htag : Lexer.IsTagName e.tag.toList)
    (hnames : ∀ a ∈ e.attributes, a.rawName.toList ≠ [] ∧ ∀ c ∈ a.rawName.toList, isNameChar c = true)
    {below : List Tree} {ts : List Token}
    (hbelow : Fills e.tag (Tree.renderAllIn (verbatimTags.contains e.tag) below).toList ts)
    (position : Position) (isVerbatim : Bool) :
    Spells ((Markup.Tree.node (.element e) position below).renderIn isVerbatim).toList (tagged e ts) := by
  have hws : ∀ w ∈ e.attributes.map Attribute.written, w.Fits := by
    intro w hw
    obtain ⟨a, ha, rfl⟩ := mem_map.1 hw
    exact Attribute.fits_written (hnames a ha).1
      (fun c hc => Lexer.isAttributeChar_of_isNameChar ((hnames a ha).2 c hc))
  have hmap : (e.attributes.map Attribute.written).map (·.name) = e.attributes.map (·.rawName.toList) := by
    rw [map_map]
    rfl
  rw [Tree.renderIn, tagged, ← hmap]
  rcases hbelow with ⟨hnormal, hspells⟩ | ⟨hraw, rfl, htext⟩
  · have hopening := Spells.ofPiece (.opening htag hws hnormal)
    rw [Element.openingChars_eq] at hopening
    split
    · exact hopening
    · have hclosing := Spells.ofPiece (.closing htag)
      rw [Element.closingChars_eq] at hclosing
      rw [String.toList_append, String.toList_append, append_assoc]
      exact hopening.append (hspells.append hclosing)
  · rw [Layer.isVoid_of_contentOf hraw]
    have hall := Spells.ofPiece (.raw htag hws hraw htext)
    rw [Element.openingChars_eq, Element.closingChars_eq] at hall
    simp only [Bool.false_eq_true, if_false]
    rw [String.toList_append, String.toList_append, append_assoc]
    exact hall

lemma spells_filled {e : Element} {position : Position} {below : View (List Tree)} {scope : Json} {ts : List Token}
    (htag : Lexer.IsTagName e.tag.toList) (hplain : ∀ a ∈ e.attributes, a.isPlain = true)
    (hnamed : ∀ a ∈ e.attributes, a.name = normalName a.rawName)
    (hbelow : ∀ q, Fills e.tag
      (Tree.renderAllIn (verbatimTags.contains e.tag) ((below q).1 scope)).toList ts)
    (isVerbatim : Bool) (q : Sequence) :
    Spells (((element below position e q).1 scope).renderIn isVerbatim).toList (tagged e ts) := by
  have heq : ((filled e q).1 scope).tag = e.tag := tag_fill _ _ q scope
  have htagged : tagged ((filled e q).1 scope) ts = tagged e ts := by
    rw [tagged, tagged, rawNames_filled hnamed, Element.isVoid, Element.isVoid, heq]
  rw [← htagged]
  refine spells_element (heq ▸ htag) (Compile.plain_filled hplain q scope) ?_ position isVerbatim
  rw [heq]
  exact hbelow _

lemma spells_guarded {position : Position} {below : View (List Tree)} {scope : Json} {ts : List Token} :
    ∀ (guards : List Attribute) (e : Element) (q : Sequence), Lexer.IsTagName e.tag.toList →
    (∀ a ∈ e.attributes, a.isPlain = true) → (∀ a ∈ e.attributes, a.name = normalName a.rawName) →
    (∀ q, Fills e.tag (Tree.renderAllIn (verbatimTags.contains e.tag) ((below q).1 scope)).toList ts) →
    Spells (((guarded below position guards e q).1 scope).renderIn false).toList
      (guardedMarkup (holds scope) ts guards e) := by
  intro guards
  induction guards with
  | nil => exact fun e q htag hplain hnamed hbelow => spells_filled htag hplain hnamed hbelow false q
  | cons a more ih =>
    intro e q htag hplain hnamed hbelow
    have hsub : (e.remove "if").attributes ⊆ e.attributes := eraseP_subset
    have hplain' := fun b hb => hplain b (hsub hb)
    have hnamed' := fun b hb => hnamed b (hsub hb)
    cases more with
    | nil =>
      rw [guarded, guardedMarkup]
      simp only [optional]
      rw [Tree.renderIn]
      split
      · rw [Tree.renderAllIn, Tree.renderAllIn, String.append_empty]
        exact spells_filled (e := e.remove "if") htag hplain' hnamed' hbelow false q
      · exact .nil
    | cons b more => exact ih (e.remove "if") _ htag hplain' hnamed' hbelow

lemma not_mem_textHtml (scope : Json) {pieces : List Piece}
    (h : ∀ i, Piece.expression i ∈ pieces → i.isSafe = true) : '<' ∉ textHtml scope pieces := by
  induction pieces with
  | nil => simp [textHtml, Interpolation.joined]
  | cons piece pieces ih =>
    rw [textHtml_cons, mem_append, not_or]
    refine ⟨?_, ih (fun i hi => h i (.tail _ hi))⟩
    cases piece with
    | literal literal =>
      rw [textHtml_literal, toList_escapeText]
      exact not_mem_flatMap_of_forall lt_not_mem_escapeTextChar _
    | expression i =>
      rw [textHtml_expression, inserted, h i mem_cons_self, if_pos rfl, toList_escapeHtml]
      exact not_mem_flatMap_of_forall lt_not_mem_escapeHtmlChar _

lemma not_mem_text {s : String} (h : Text.contains s "#\x7b" = false) (position : Position) (children : List Tree)
    (q : Sequence) (scope : Json) :
    '<' ∉ (((node false (.node (.text s) position children) q).1 scope).renderIn false).toList := by
  rw [node]
  split
  · simp only [Tree.leaf]
    rw [Tree.renderIn, String.toList_ofList]
    exact not_mem_textHtml scope (fun i hi => isSafe_of_mem_parts h hi)
  · rw [Tree.renderIn]
    simp only [Bool.false_eq_true, if_false, toList_escapeText]
    exact not_mem_flatMap_of_forall lt_not_mem_escapeTextChar _

lemma fills_text {tag s : String} (hraw : Lexer.contentOf tag ≠ .normal) (htext : IsTextOf tag s)
    (h : Text.contains s "#\x7b" = false) (position : Position) (q : Sequence) (scope : Json) :
    Fills tag (Tree.renderAllIn (verbatimTags.contains tag)
      ((nodes (verbatimTags.contains tag) [.leaf (.text s) position] q).1 scope)).toList [] := by
  refine .inr ⟨hraw, rfl, ?_⟩
  simp only [nodes]
  rw [Tree.renderAllIn, Tree.renderAllIn, String.append_empty]
  cases hverbatim : verbatimTags.contains tag with
  | false => exact .inl (not_mem_text h position [] q scope)
  | true =>
    refine .inr (htext.resolve_left (fun hescapable => ?_))
    rcases tag_of_verbatim hverbatim with rfl | rfl <;> cases hescapable

mutual
theorem spells_node (scope : Json) : ∀ (t : Tree) (q : Sequence), t.Each Safe →
    Spells (((node false t q).1 scope).renderIn false).toList (markup (holds scope) t)
  | .node .document position children, q, h => spells_nodes scope children q (Tree.each_node.1 h).2
  | .node (.element e) position children, q, h => by
    obtain ⟨⟨⟨htag, hcontent⟩, hplain, -, hnamed⟩, hbelow⟩ := Tree.each_node.1 h
    rw [node, markup]
    split
    · simp only [optional]
      split
      · exact spells_nodes scope children q hbelow
      · exact .nil
    · refine spells_guarded _ e q htag (Kind.isPlain_element.1 hplain).2.2 hnamed (fun q => ?_)
      by_cases hnormal : Lexer.contentOf e.tag = .normal
      · refine .inl ⟨hnormal, ?_⟩
        rw [not_verbatim_of_contentOf hnormal]
        exact spells_nodes scope children q hbelow
      · rcases hcontent.resolve_left hnormal with rfl | ⟨s, at_, rfl, htext⟩
        · exact .inr ⟨hnormal, rfl, .inl (by simp [nodes, Tree.renderAllIn])⟩
        · have hescaped := (Tree.each_leaf.1 (hbelow _ (.head _))).escaped
          exact fills_text hnormal htext (Kind.isEscaped_text.1 hescaped) at_ q scope
  | .node (.text s) position children, q, h => by
    have hescaped := (Tree.each_node.1 h).1.escaped
    exact .ofText (not_mem_text (Kind.isEscaped_text.1 hescaped) position children q scope)
  | .node (.comment s) position children, q, h => by
    obtain ⟨htext, hline⟩ := (Tree.each_node.1 h).1.sound
    have hpiece := Spells.ofPiece (.comment htext hline)
    rwa [commentChars_eq] at hpiece
  | .node (.doctype name) position children, q, h => by
    have hname := (Tree.each_node.1 h).1.sound
    have hpiece := Spells.ofPiece (.doctype hname)
    rwa [doctypeChars_eq] at hpiece
  | .node (.raw html) position children, q, h => (Tree.each_node.1 h).1.sound.elim

theorem spells_nodes (scope : Json) : ∀ (ts : List Tree) (q : Sequence), (∀ t ∈ ts, t.Each Safe) →
    Spells (Tree.renderAllIn false ((nodes false ts q).1 scope)).toList (markups (holds scope) ts)
  | [], _, _ => .nil
  | t :: ts, q, h => by
    simp only [nodes]
    rw [Tree.renderAllIn, String.toList_append]
    exact (spells_node scope t q (h t (.head _))).append
      (spells_nodes scope ts _ (fun u hu => h u (.tail _ hu)))
end

lemma safe_of_parse {source file : String} {d : Document} (h : Document.parse source file = .ok d)
    (hplain : (d.toTree Document.root).isPlain = true)
    (hescaped : (d.toTree Document.root).isEscaped = true) : (d.toTree Document.root).Each Safe :=
  fun u hu => ⟨sound_of_parse h u hu, List.all_eq_true.1 hplain u hu, List.all_eq_true.1 hescaped u hu,
    name_of_parse h u hu⟩

end Page

lemma Compiler.bare_tokens_render {c : Compiler} {source : String} {d : Document} {out : CompileOutput}
    (hr : c.registry = Registry.standard) (hparse : Document.parse source c.options.file = .ok d)
    (hplain : (d.toTree Document.root).isPlain = true)
    (hescaped : (d.toTree Document.root).isEscaped = true) (hout : (c.compile source).1 = .ok out) (scope : Json) :
    ∃ html, out.compiled.render scope = .ok html ∧ (tokens html).filterMap Token.bare? =
      Page.markup (Page.holds scope) (d.toTree Document.root) := by
  refine ⟨_, render_compile hr hparse hplain hout scope, bare_tokens ?_⟩
  have hspells := Page.spells_node scope _ c.sequence (Page.safe_of_parse hparse hplain hescaped)
  obtain ⟨ts, -, htree⟩ := takes_of_parse hparse
  rw [nodesOf, htree]
  rw [htree] at hspells
  exact hspells

/-- **Values make no markup**: two scopes under which the conditions that are evaluated come out alike render to the same
tags with the same names of attributes, and to the same comments and doctypes. -/
theorem Compiler.render_same_markup {c : Compiler} {source : String} {d : Markup.Document} {out : CompileOutput}
    (hr : c.registry = Registry.standard) (hparse : Markup.Document.parse source c.options.file = .ok d)
    (hplain : (d.toTree Markup.Document.root).isPlain = true)
    (hescaped : (d.toTree Markup.Document.root).isEscaped = true) (hout : (c.compile source).1 = .ok out)
    {scope₁ scope₂ : Json} (hconditions : ∀ source ∈ Page.conditions (Page.holds scope₁) (d.toTree Markup.Document.root),
      Page.holds scope₁ source = Page.holds scope₂ source) :
    ∃ html₁ html₂, out.compiled.render scope₁ = .ok html₁ ∧ out.compiled.render scope₂ = .ok html₂ ∧
      (Markup.tokens html₁).filterMap Token.bare? = (Markup.tokens html₂).filterMap Token.bare? := by
  obtain ⟨html₁, hrender₁, hmarkup₁⟩ := bare_tokens_render hr hparse hplain hescaped hout scope₁
  obtain ⟨html₂, hrender₂, hmarkup₂⟩ := bare_tokens_render hr hparse hplain hescaped hout scope₂
  refine ⟨html₁, html₂, hrender₁, hrender₂, ?_⟩
  rw [hmarkup₁, hmarkup₂]
  exact Page.markup_congr _ hconditions

namespace Page

def sample : String := "<p title=\"$\x7bb\x7d\">$\x7bb\x7d</p><if cond=\"a\"><b>yes</b></if>"

def harmless : Json := .object [("a", .bool true), ("b", .string "no")]

def hostile : Json := .object [("a", .bool true), ("b", .string "\"><i>")]

/-- A value that reads as markup changes nothing but the text and the value that it stands in. -/
theorem render_hostile : ∃ d out, Markup.Document.parse sample "" = .ok d ∧
    (d.toTree Markup.Document.root).isPlain = true ∧ (d.toTree Markup.Document.root).isEscaped = true ∧
    compile sample {} = .ok out ∧
    (∀ source ∈ conditions (holds harmless) (d.toTree Markup.Document.root),
      holds harmless source = holds hostile source) ∧
    ∃ html₁ html₂, out.compiled.render harmless = .ok html₁ ∧ out.compiled.render hostile = .ok html₂ ∧
      (Markup.tokens html₁).filterMap Token.bare? = (Markup.tokens html₂).filterMap Token.bare? := by
  rw [compile]
  have hd : (Document.parse sample "").toOption.any (fun d =>
      (d.toTree Document.root).isPlain && ((d.toTree Document.root).isEscaped &&
        (conditions (holds harmless) (d.toTree Document.root)).all (fun source =>
          holds harmless source == holds hostile source))) = true := by
    rw [Document.parse_eq_ofChars sample String.toList_ofList]
    decide +kernel
  have hc : ((Compiler.new Registry.standard {}).compile sample).1.toOption.any (fun _ => true) = true := by
    rw [Compiler.compile_eq, Document.parse_eq_ofChars sample String.toList_ofList]
    decide +kernel
  obtain ⟨d, hparse, hd⟩ := exists_ok_of_any hd
  obtain ⟨out, hout, -⟩ := exists_ok_of_any hc
  simp only [Bool.and_eq_true, all_eq_true, beq_iff_eq] at hd
  obtain ⟨hplain, hescaped, hconditions⟩ := hd
  exact ⟨d, out, hparse, hplain, hescaped, hout, hconditions,
    Compiler.render_same_markup (c := Compiler.new Registry.standard {}) rfl hparse hplain hescaped hout hconditions⟩

end Page
end ReactiveTemplate
