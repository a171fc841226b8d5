import ReactiveTemplate.Proofs.Characters
import ReactiveTemplate.Proofs.Markup.Nesting
import ReactiveTemplate.Proofs.Template.Rendering
/-!
# Meaning — a template read off its tree

`Meaning.tree` is what a template means under a scope, by recursion on its tree.
-/
set_option linter.all false

namespace ReactiveTemplate
open List
open Interpolation
open Markup

open Markup (Tree Element Attribute)
open Interpolation (spelled segmentsOf)

namespace Meaning

def text (scope : Json) (s : String) : String :=
  String.ofList (spelled (·.flatMap escapeTextChar) (Page.inserted scope) (segmentsOf s))

def value (scope : Json) (s : String) : String :=
  String.ofList (spelled id (fun _ source => (Page.valueText scope source).toList) (segmentsOf s))

def element (scope : Json) (e : Element) : Element :=
  ⟨e.tag, e.attributes.map (fun a => a.withValue (value scope a.value))⟩

def tagged (e : Element) (content : String) : String :=
  if e.isVoid then e.opening else e.opening ++ content ++ e.closing

mutual
/-- What a tree means; `isVerbatim` says whether it stands in an element that keeps its text as it is. -/
def tree (scope : Json) (isVerbatim : Bool) : Tree → String
  | .node .document _ children => trees scope false children
  | .node (.element e) _ children =>
    if e.tag = "if" then
      if Page.holds scope ((e.value? "cond").getD "false") then trees scope false children else ""
    else
      let content := trees scope (verbatimTags.contains e.tag) children
      match e.value? "if" with
      | none => tagged (element scope e) content
      | some source => if Page.holds scope source then tagged (element scope (e.remove "if")) content else ""
  | .node (.text s) _ _ => if isVerbatim then s else text scope s
  | .node (.comment s) _ _ => "<!--" ++ s ++ "-->"
  | .node (.doctype name) _ _ => "<!DOCTYPE " ++ name ++ ">"
  | .node (.raw html) _ _ => html

def trees (scope : Json) (isVerbatim : Bool) : List Tree → String
  | [] => ""
  | t :: ts => tree scope isVerbatim t ++ trees scope isVerbatim ts
end

mutual
def texts (isVerbatim : Bool) : Tree → List String
  | .node .document _ children => allTexts false children
  | .node (.element e) _ children =>
    if e.tag = "if" then allTexts false children
    else (e.remove "if").attributes.map (·.value) ++ allTexts (verbatimTags.contains e.tag) children
  | .node (.text s) _ _ => if isVerbatim then [] else [s]
  | .node _ _ _ => []

def allTexts (isVerbatim : Bool) : List Tree → List String
  | [] => []
  | t :: ts => texts isVerbatim t ++ allTexts isVerbatim ts
end

/-! ## Values -/

variable {s : String} {q : Sequence} {e : Element}

lemma value_of_not_hasMarkers (h : hasMarkers s = false) (scope : Json) : value scope s = s := by
  rw [value, spelled_of_not_hasMarkers rfl (fun _ _ => rfl) h, id_eq, String.ofList_toList]

lemma text_of_not_hasMarkers (h : hasMarkers s = false) (scope : Json) :
    text scope s = escapeText s := by
  rw [text, spelled_of_not_hasMarkers rfl (fun _ _ => flatMap_append) h]
  rfl

lemma ofList_attributeText (h : isClear s q = true) (scope : Json) :
    String.ofList (Page.attributeText scope (scan s q).1.parts) = value scope s := by
  rw [Page.attributeText, joined_parts rfl (fun _ _ => rfl) h]
  rfl

lemma ofList_textHtml (h : isClear s q = true) (scope : Json) :
    String.ofList (Page.textHtml scope (scan s q).1.parts) = text scope s := by
  rw [Page.textHtml, joined_parts rfl (fun _ _ => flatMap_append) h]
  rfl

/-! ## Attributes -/

def Named (kind : Kind) : Prop :=
  (∀ a ∈ kind.attributes, a.name = normalName a.rawName) ∧ (kind.attributes.map (·.name)).Nodup

def isUnambiguous (t : Tree) : Bool := t.preorder.all (fun u => decide (u.kind.attributes.map (·.name)).Nodup)

lemma setIn_append {pre post : List Attribute} {a : Attribute} (hname : a.name = normalName a.rawName)
    (hpre : ∀ b ∈ pre, b.name ≠ a.name) (s : String) :
    setIn (pre ++ a :: post) (Attribute.new a.rawName s) = pre ++ a.withValue s :: post := by
  induction pre with
  | nil =>
    rw [nil_append, nil_append, setIn, if_pos]
    · rfl
    · simp [Attribute.new, hname]
  | cons b pre ih =>
    have hb : (b.name == (Attribute.new a.rawName s).name) = false := by
      have := hpre b (.head _)
      rw [hname] at this
      simpa [Attribute.new] using this
    rw [cons_append, cons_append, setIn, hb]
    simp only [Bool.false_eq_true, if_false]
    rw [ih (fun c hc => hpre c (mem_cons_of_mem _ hc))]

lemma withValue_self (a : Attribute) : a.withValue a.value = a := rfl

lemma fill_eq (tag : String) (scope : Json) : ∀ (post pre : List Attribute) (f : Json → Element) (q : Sequence),
    (∀ a ∈ post, a.name = normalName a.rawName) → ((pre ++ post).map (·.name)).Nodup →
    areClear q (post.map (·.value)) = true →
    f scope = ⟨tag, pre.map (fun a => a.withValue (value scope a.value)) ++ post⟩ →
    (Page.fill (post.filter (fun a => hasMarkers a.value)) f q).1 scope =
        ⟨tag, (pre ++ post).map (fun a => a.withValue (value scope a.value))⟩ ∧
      (Page.fill (post.filter (fun a => hasMarkers a.value)) f q).2 =
        after q (post.map (·.value))
  | [], pre, f, q, _, _, _, hf => by
    rw [filter_nil, Page.fill]
    exact ⟨by simpa using hf, rfl⟩
  | a :: post, pre, f, q, hnamed, hnodup, hclear, hf => by
    have hsplit : pre ++ a :: post = (pre ++ [a]) ++ post := by simp
    have hnamed' : ∀ b ∈ post, b.name = normalName b.rawName := fun b hb => hnamed b (.tail _ hb)
    rw [map_cons, Interpolation.areClear, Bool.and_eq_true] at hclear
    rw [map_cons, Interpolation.after, foldl_cons]
    by_cases hmarkers : Interpolation.hasMarkers a.value = true
    · rw [filter_cons, if_pos hmarkers, Page.fill, hsplit]
      refine fill_eq tag scope post (pre ++ [a]) _ _ hnamed' (hsplit ▸ hnodup) hclear.2 ?_
      have hpre : ∀ b ∈ pre.map (fun a => a.withValue (value scope a.value)), b.name ≠ a.name := by
        intro b hb
        obtain ⟨c, hc, rfl⟩ := mem_map.1 hb
        rw [map_append, nodup_append] at hnodup
        exact hnodup.2.2 c.name (mem_map_of_mem hc) a.name (by simp)
      simp only [hf, Element.set]
      rw [setIn_append (hnamed a mem_cons_self) hpre, ofList_attributeText hclear.1]
      simp
    · have hmarkers' : hasMarkers a.value = false := by simpa using hmarkers
      rw [filter_cons, if_neg hmarkers, hsplit, scan_of_not_hasMarkers hmarkers']
      rw [scan_of_not_hasMarkers hmarkers'] at hclear
      refine fill_eq tag scope post (pre ++ [a]) f q hnamed' (hsplit ▸ hnodup) hclear.2 ?_
      rw [hf, map_append, map_singleton, value_of_not_hasMarkers hmarkers', withValue_self]
      simp

lemma filled_eq (hnamed : Named (.element e))
    (hclear : areClear q (e.attributes.map (·.value)) = true) (scope : Json) :
    (Page.filled e q).1 scope = element scope e ∧
      (Page.filled e q).2 = after q (e.attributes.map (·.value)) :=
  fill_eq e.tag scope e.attributes [] (fun _ => e) q hnamed.1 hnamed.2 hclear rfl

lemma Named.remove (h : Named (.element e)) (name : String) : Named (.element (e.remove name)) :=
  have hsub : (e.remove name).attributes.Sublist e.attributes := eraseP_sublist
  ⟨fun a ha => h.1 a (hsub.subset ha), h.2.sublist (hsub.map _)⟩

lemma guards_eq (h : Named (.element e)) :
    (e.value? "if" = none ∧ Page.guards e = [] ∧ e.remove "if" = e) ∨
      ∃ a, e.value? "if" = some a.value ∧ Page.guards e = [a] := by
  have hfind : e.attribute? "if" = (Page.guards e).head? := by
    rw [Element.attribute?, findIn, Page.guards, head?_filter]
  have hnames : ((Page.guards e).map (·.name)).Nodup := h.2.sublist (filter_sublist.map _)
  cases hguards : Page.guards e with
  | nil =>
    refine Or.inl ⟨by rw [Element.value?, hfind, hguards]; rfl, rfl, ?_⟩
    have hnone := filter_eq_nil_iff.1 hguards
    rw [Element.remove, removeFrom, eraseP_of_forall_not hnone]
  | cons a more =>
    refine Or.inr ⟨a, by rw [Element.value?, hfind, hguards]; rfl, ?_⟩
    have hif : ∀ b ∈ Page.guards e, b.name = "if" := fun b hb => by simpa using of_mem_filter hb
    rw [hguards] at hnames hif
    cases more with
    | nil => rfl
    | cons b more =>
      have heq : a.name = b.name :=
        (hif a (.head _)).trans (hif b (.tail _ (.head _))).symm
      simp [heq] at hnames

/-! ## Nodes -/

lemma renderIn_element (isVerbatim : Bool) (e : Element) (position : Position) (children : List Tree) :
    (Markup.Tree.node (.element e) position children).renderIn isVerbatim =
      tagged e (Tree.renderAllIn (verbatimTags.contains e.tag) children) := by
  rw [Tree.renderIn, tagged]

lemma element_eq {scope : Json} {children : List Tree} {position : Position} (hnamed : Named (.element e))
    (hclear : areClear q
      (e.attributes.map (·.value) ++ allTexts (verbatimTags.contains e.tag) children) = true)
    (hbelow : ∀ q, areClear q (allTexts (verbatimTags.contains e.tag) children) = true →
      Tree.renderAllIn (verbatimTags.contains e.tag)
          ((Page.nodes (verbatimTags.contains e.tag) children q).1 scope) =
        trees scope (verbatimTags.contains e.tag) children ∧
      (Page.nodes (verbatimTags.contains e.tag) children q).2 =
        after q (allTexts (verbatimTags.contains e.tag) children)) (isVerbatim : Bool) :
    ((Page.element (Page.nodes (verbatimTags.contains e.tag) children) position e q).1 scope).renderIn
        isVerbatim =
        tagged (element scope e) (trees scope (verbatimTags.contains e.tag) children) ∧
      (Page.element (Page.nodes (verbatimTags.contains e.tag) children) position e q).2 =
        after q
          (e.attributes.map (·.value) ++ allTexts (verbatimTags.contains e.tag) children) := by
  rw [areClear_append] at hclear
  obtain ⟨hshown, hafter⟩ := filled_eq hnamed hclear.1 scope
  obtain ⟨hcontent, hlast⟩ := hbelow _ hclear.2
  rw [after_append, ← hafter]
  rw [← hafter] at hcontent hlast
  refine ⟨?_, hlast⟩
  simp only [Page.element]
  rw [renderIn_element, hshown]
  simp only [element]
  rw [hcontent]

mutual
theorem node_eq (scope : Json) : ∀ (isVerbatim : Bool) (t : Tree) (q : Sequence), t.Every Named →
    areClear q (texts isVerbatim t) = true →
    ((Page.node isVerbatim t q).1 scope).renderIn isVerbatim = tree scope isVerbatim t ∧
      (Page.node isVerbatim t q).2 = after q (texts isVerbatim t)
  | isVerbatim, .node .document position children, q, hnamed, hclear => by
    rw [Page.node, tree, texts]
    rw [texts] at hclear
    exact nodes_eq scope false children q (Tree.every_node.1 hnamed).2 hclear
  | isVerbatim, .node (.element e) position children, q, hnamed, hclear => by
    obtain ⟨hthis, hbelow⟩ := Tree.every_node.1 hnamed
    rw [texts] at hclear ⊢
    rw [Page.node, tree]
    by_cases htag : e.tag = "if"
    · rw [if_pos htag] at hclear ⊢
      rw [if_pos htag, if_pos htag]
      obtain ⟨hcontent, hlast⟩ := nodes_eq scope false children q hbelow hclear
      refine ⟨?_, hlast⟩
      simp only [Page.optional]
      rw [Tree.renderIn, Page.conditionOf]
      split
      · exact hcontent
      · rw [Tree.renderAllIn]
    · rw [if_neg htag] at hclear ⊢
      rw [if_neg htag, if_neg htag]
      have hcontent := fun q => nodes_eq scope (verbatimTags.contains e.tag) children q hbelow
      rcases guards_eq hthis with ⟨hnone, hguards, hremove⟩ | ⟨a, hsome, hguards⟩
      · rw [hguards, hnone, hremove]
        rw [hremove] at hclear
        rw [Page.guarded]
        exact element_eq hthis hclear hcontent isVerbatim
      · obtain ⟨hshown, hlast⟩ := element_eq (hthis.remove "if") hclear hcontent false
        rw [hguards, hsome]
        refine ⟨?_, hlast⟩
        simp only [Page.guarded, Page.optional]
        rw [Tree.renderIn]
        split
        · rw [Tree.renderAllIn, Tree.renderAllIn, String.append_empty]
          exact hshown
        · rw [Tree.renderAllIn]
  | isVerbatim, .node (.text s) position children, q, hnamed, hclear => by
    rw [Page.node, tree, texts]
    rw [texts] at hclear
    cases isVerbatim with
    | true => exact ⟨rfl, rfl⟩
    | false =>
      simp only [Bool.false_eq_true, if_false, areClear, Bool.and_true] at hclear
      simp only [Bool.not_false, Bool.true_and, Bool.false_eq_true, if_false]
      split
      · exact ⟨ofList_textHtml hclear scope, rfl⟩
      · rename_i hmarkers
        have hmarkers : hasMarkers s = false := by simpa using hmarkers
        refine ⟨(text_of_not_hasMarkers hmarkers scope).symm, ?_⟩
        rw [Interpolation.after, foldl_cons, Interpolation.scan_of_not_hasMarkers hmarkers, foldl_nil]
  | isVerbatim, .node (.comment s) position children, q, hnamed, hclear => ⟨rfl, rfl⟩
  | isVerbatim, .node (.doctype name) position children, q, hnamed, hclear => ⟨rfl, rfl⟩
  | isVerbatim, .node (.raw html) position children, q, hnamed, hclear => ⟨rfl, rfl⟩

theorem nodes_eq (scope : Json) : ∀ (isVerbatim : Bool) (ts : List Tree) (q : Sequence), (∀ t ∈ ts, t.Every Named) →
    areClear q (allTexts isVerbatim ts) = true →
    Tree.renderAllIn isVerbatim ((Page.nodes isVerbatim ts q).1 scope) = trees scope isVerbatim ts ∧
      (Page.nodes isVerbatim ts q).2 = after q (allTexts isVerbatim ts)
  | _, [], _, _, _ => ⟨rfl, rfl⟩
  | isVerbatim, t :: ts, q, hnamed, hclear => by
    rw [allTexts, areClear_append] at hclear
    obtain ⟨hfirst, hnext⟩ := node_eq scope isVerbatim t q (hnamed t (.head _)) hclear.1
    obtain ⟨hrest, hlast⟩ := nodes_eq scope isVerbatim ts (after q (texts isVerbatim t))
      (fun u hu => hnamed u (.tail _ hu)) hclear.2
    rw [← hnext] at hrest hlast
    rw [allTexts, after_append, ← hnext]
    refine ⟨?_, hlast⟩
    simp only [Page.nodes]
    rw [Tree.renderAllIn, hfirst, hrest, trees]
end

lemma named_of_parse {source file : String} {d : Document} (h : Document.parse source file = .ok d)
    (hnames : isUnambiguous (d.toTree Document.root) = true) :
    (d.toTree Document.root).Every Named := by
  have hread := name_of_parse h
  exact fun u hu => ⟨hread u hu, of_decide_eq_true (List.all_eq_true.1 hnames u hu)⟩

end Meaning

/-- **A compiled page renders to its meaning**, where none of its texts holds the placeholder of an interpolation ahead
of it. -/
theorem Compiler.render_eq_meaning {c : Compiler} {source : String} {d : Document} {out : CompileOutput}
    (hr : c.registry = Registry.standard) (hparse : Document.parse source c.options.file = .ok d)
    (hplain : (d.toTree Document.root).isPlain = true)
    (hnames : Meaning.isUnambiguous (d.toTree Document.root) = true)
    (hclear : areClear c.sequence (Meaning.texts false (d.toTree Document.root)) = true)
    (hout : (c.compile source).1 = .ok out) (scope : Json) :
    out.compiled.render scope = .ok (Meaning.tree scope false (d.toTree Document.root)) := by
  have hnamed := Meaning.named_of_parse hparse hnames
  have hmeaning := (Meaning.node_eq scope false _ c.sequence hnamed hclear).1
  rw [render_compile hr hparse hplain hout, nodesOf]
  obtain ⟨ts, -, htree⟩ := takes_of_parse hparse
  rw [htree] at hmeaning ⊢
  rw [← hmeaning]
  rfl

namespace Meaning

def sample : String :=
  "<!DOCTYPE html><p title=\"${b}!\">${b}, #{b}</p><i if=\"!a\">${c}</i><if cond=\"a\">yes</if><style>${b}</style>"

def sampleScope : Json := .object [("a", .bool true), ("b", .string "<i>")]

/-- The page renders to what it means. -/
theorem render_sample : ∃ d out, Document.parse sample "" = .ok d ∧
    (d.toTree Document.root).isPlain = true ∧ isUnambiguous (d.toTree Document.root) = true ∧
    areClear ⟨"", 0⟩ (texts false (d.toTree Document.root)) = true ∧ compile sample {} = .ok out ∧
    out.compiled.render sampleScope = .ok (tree sampleScope false (d.toTree Document.root)) ∧
    tree sampleScope false (d.toTree Document.root) =
      "<!DOCTYPE html><p title=\"<i>!\">&lt;i&gt;, <i></p>yes<style>${b}</style>" := by
  rw [compile]
  have hd : (Document.parse sample "").toOption.any (fun d =>
      (d.toTree Document.root).isPlain && (isUnambiguous (d.toTree Document.root) &&
        (areClear ⟨"", 0⟩ (texts false (d.toTree Document.root)) &&
          tree sampleScope false (d.toTree Document.root) ==
            "<!DOCTYPE html><p title=\"<i>!\">&lt;i&gt;, <i></p>yes<style>${b}</style>"))) = true := by
    rw [Document.parse_eq_ofChars sample String.toList_ofList]
    decide +kernel
  have hc : ((Compiler.new Registry.standard {}).compile sample).1.toOption.any (fun _ => true) = true := by
    rw [Compiler.compile_eq, Document.parse_eq_ofChars sample String.toList_ofList]
    decide +kernel
  obtain ⟨d, hparse, hd⟩ := exists_ok_of_any hd
  obtain ⟨out, hout, -⟩ := exists_ok_of_any hc
  simp only [Bool.and_eq_true, beq_iff_eq] at hd
  obtain ⟨hplain, hnames, hclear, htree⟩ := hd
  exact ⟨d, out, hparse, hplain, hnames, hclear, hout,
    Compiler.render_eq_meaning (c := Compiler.new Registry.standard {}) rfl hparse hplain hnames hclear hout sampleScope,
    htree⟩

/-- A text that holds the first placeholder of a sequence without salt, and behind it an interpolation. -/
def stolen : String := "<p>_i_2TcdFKChOLY ${a}</p>"

/-- A placeholder that a text holds ahead of its interpolation takes the value of the interpolation. -/
theorem render_stolen : ∃ d out, Document.parse stolen "" = .ok d ∧
    (d.toTree Document.root).isPlain = true ∧ isUnambiguous (d.toTree Document.root) = true ∧
    compile stolen {} = .ok out ∧
    out.compiled.render (.object [("a", .bool true)]) = .ok "<p>true _i_2TcdFKChOLY</p>" ∧
    tree (.object [("a", .bool true)]) false (d.toTree Document.root) = "<p>_i_2TcdFKChOLY true</p>" := by
  have hd : (Document.parse stolen "").toOption.any (fun d =>
      (d.toTree Document.root).isPlain && (isUnambiguous (d.toTree Document.root) &&
        tree (.object [("a", .bool true)]) false (d.toTree Document.root) == "<p>_i_2TcdFKChOLY true</p>")) =
      true := by
    rw [Document.parse_eq_ofChars stolen String.toList_ofList]
    decide +kernel
  have hc : (compile stolen {}).toOption.any (fun out =>
      (out.compiled.render (.object [("a", .bool true)])).toOption.any (· == "<p>true _i_2TcdFKChOLY</p>")) = true := by
    rw [compile, Compiler.compile_eq, Document.parse_eq_ofChars stolen String.toList_ofList]
    decide +kernel
  obtain ⟨d, hparse, hd⟩ := exists_ok_of_any hd
  obtain ⟨out, hout, hc⟩ := exists_ok_of_any hc
  obtain ⟨html, hrender, hhtml⟩ := exists_ok_of_any hc
  simp only [Bool.and_eq_true, beq_iff_eq] at hd hhtml
  exact ⟨d, out, hparse, hd.1, hd.2.1, hout, hhtml ▸ hrender, hd.2.2⟩

end Meaning
end ReactiveTemplate
