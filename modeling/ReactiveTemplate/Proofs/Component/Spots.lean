import ReactiveTemplate.Proofs.Component.Identifiers
import ReactiveTemplate.Proofs.Component.Taken
/-!
# Spots — the elements of a bound template

A `Spot` is an element of a bound template with what it stands for and the class that it is found by; `Placed` lists
them in document order.
-/
set_option linter.all false

namespace ReactiveTemplate
open List

open Markup (Tree Element Attribute)

namespace Markup

variable {e : Element}

def Tree.elementsOf (ts : List Tree) : List Element := (preorderAll ts).filterMap element?

namespace Element

def classes (e : Element) : List String :=
  Text.words (((e.attributes.find? (fun a => a.rawName == "class")).map (·.value)).getD "")

def HasPlainClass (e : Element) : Prop := ∀ a ∈ e.attributes, a.name = "class" ↔ a.rawName = "class"

instance (e : Element) : Decidable e.HasPlainClass :=
  inferInstanceAs (Decidable (∀ a ∈ e.attributes, a.name = "class" ↔ a.rawName = "class"))

lemma classes_eq (h : e.HasPlainClass) : e.classes = Text.words ((e.value? "class").getD "") := by
  have hfind : ∀ as : List Attribute, (∀ a ∈ as, a.name = "class" ↔ a.rawName = "class") →
      as.find? (fun a => a.rawName == "class") = findIn as "class" := by
    intro as
    induction as with
    | nil => exact fun _ => rfl
    | cons a as ih =>
      intro has
      have hfirst := has a (.head _)
      rw [findIn_cons, find?_cons, ← ih (fun b hb => has b (mem_cons_of_mem _ hb))]
      by_cases hraw : a.rawName = "class"
      · simp [hraw, hfirst.2 hraw]
      · have hbeq : (a.rawName == "class") = false := by simpa using hraw
        rw [if_neg (mt hfirst.1 hraw), hbeq]
  rw [classes, hfind e.attributes h]
  rfl

lemma HasPlainClass.addClass (h : e.HasPlainClass) (c : String) : (e.addClass c).HasPlainClass := by
  have hset : ∀ (x : Attribute) (as : List Attribute), (x.name = "class" ↔ x.rawName = "class") →
      (∀ a ∈ as, a.name = "class" ↔ a.rawName = "class") → ∀ a ∈ setIn as x, a.name = "class" ↔ a.rawName = "class" := by
    intro x as hx
    induction as with
    | nil =>
      intro _ a ha
      rw [mem_singleton.1 ha]
      exact hx
    | cons b as ih =>
      intro has a ha
      rw [setIn_cons] at ha
      split at ha
      · rcases mem_cons.1 ha with rfl | ha
        · exact has b (.head _)
        · exact has a (.tail _ ha)
      · rcases mem_cons.1 ha with rfl | ha
        · exact has a (.head _)
        · exact ih (fun b hb => has b (.tail _ hb)) a ha
  rw [addClass_eq]
  split
  · exact h
  · refine hset _ e.attributes ?_ h
    rw [Attribute.name_new, normalName_class]
    exact ⟨fun _ => rfl, fun _ => rfl⟩

lemma mem_classes_addClass (h : e.HasPlainClass) {c : String} (hc : Text.IsWord c) (d : String) :
    d ∈ (e.addClass c).classes ↔ d ∈ e.classes ∨ d = c := by
  rw [classes_eq (h.addClass c), classes_eq h]
  exact mem_words_addClass hc e d

end Element
end Markup

namespace Component

/-! ## Regular elements -/

lemma isSeparable_of_nodup {e : Element} (h : (e.attributes.map (·.name)).Nodup) : IsSeparable e :=
  (pairwise_map.1 h).imp (fun hne heq => absurd heq hne)

lemma mem_classes_remainder {e : Element} (hnames : (e.attributes.map (·.name)).Nodup) (hplain : e.HasPlainClass)
    {c : String} (hc : c ∈ (remainder e).classes) : c ∈ e.classes := by
  rw [remainder_of_isSeparable (isSeparable_of_nodup hnames)] at hc
  have hsub : ∀ a ∈ (kept e).attributes, a ∈ e.attributes := fun a ha => (mem_filter.1 ha).1
  rw [Element.classes_eq (fun a ha => hplain a (hsub a ha))] at hc
  rw [Element.classes_eq hplain]
  -- an attribute that is found in what is left is the only one of its name
  cases hfind : (kept e).attribute? "class" with
  | none =>
    rw [Element.value?, hfind] at hc
    exact absurd hc not_mem_nil
  | some a =>
    have hmem := hsub a (mem_of_find?_eq_some hfind)
    have hname : a.name = "class" := by simpa using find?_some hfind
    have hsame : e.attribute? "class" = some a := by
      cases hfind' : e.attribute? "class" with
      | none => exact absurd (find?_eq_none.1 hfind' a hmem) (by simp [hname])
      | some a' =>
        have hname' : a'.name = "class" := by simpa using find?_some hfind'
        rw [inj_on_of_nodup_map hnames (mem_of_find?_eq_some hfind') hmem (hname'.trans hname.symm)]
    rw [Element.value?, hfind] at hc
    rw [Element.value?, hsame]
    exact hc

lemma HasPlainClass.remainder {e : Element} (hnames : (e.attributes.map (·.name)).Nodup) (hplain : e.HasPlainClass) :
    (remainder e).HasPlainClass := by
  rw [remainder_of_isSeparable (isSeparable_of_nodup hnames)]
  exact fun a ha => hplain a (mem_filter.1 ha).1

/-- A template as it is parsed, whose elements have one attribute of a name at most and no second kind of class. -/
structure IsRegular (template : List Tree) : Prop where
  leaves : ∀ t ∈ Tree.preorderAll template, t.element? = none → t.children = []
  names : ∀ e ∈ Tree.elementsOf template, (e.attributes.map (·.name)).Nodup
  classes : ∀ e ∈ Tree.elementsOf template, e.HasPlainClass

instance (template : List Tree) : Decidable (IsRegular template) :=
  decidable_of_iff ((∀ t ∈ Tree.preorderAll template, t.element? = none → t.children = []) ∧
      ∀ e ∈ Tree.elementsOf template, (e.attributes.map (·.name)).Nodup ∧ e.HasPlainClass)
    ⟨fun h => ⟨h.1, fun e he => (h.2 e he).1, fun e he => (h.2 e he).2⟩,
      fun h => ⟨h.leaves, fun e he => ⟨h.names e he, h.classes e he⟩⟩⟩

/-! ## Spots -/

inductive Origin where
  /-- An interpolation of a text, which was scanned with a sequence. -/
  | piece (text : String) (sequence : Sequence) (found : Interpolation)
  | carrier (e : Element)

/-- An element of a bound template, with what it stands for and the class that it is found by. -/
structure Spot where
  origin : Origin
  element : Element
  handle : Option String

namespace Spot

def carrier? (spot : Spot) : Option Element :=
  match spot.origin with
  | .piece _ _ _ => none
  | .carrier e => some e

def ofPiece (text : String) (sequence : Sequence) : Piece → Option Spot
  | .literal _ => none
  | .expression found =>
    some ⟨.piece text sequence found, Binding.embed found.placeholder, some found.placeholder⟩

end Spot

def flow (pieces : List Piece) : List (Char ⊕ (Bool × String)) :=
  Interpolation.joined (map .inl) (fun isSafe expression => [.inr (isSafe, expression)]) pieces

def flowOf (text : String) : List (Char ⊕ (Bool × String)) :=
  Interpolation.spelled (map .inl) (fun isSafe expression => [.inr (isSafe, expression)])
    (Interpolation.segmentsOf text)

structure Cuts (text : String) (sequence : Sequence) (pieces : List Piece) : Prop where
  parts : pieces = (scan text sequence).1.parts
  clear : Interpolation.isClear text sequence = true → flow pieces = flowOf text

lemma Cuts.scan (text : String) (sequence : Sequence) : Cuts text sequence (scan text sequence).1.parts :=
  ⟨rfl, fun hclear => Interpolation.joined_parts map_nil (fun _ _ => map_append) hclear⟩

/-- A template, the bound template and its spots in document order. -/
inductive Placed : Bool → List Tree → List Tree → List Spot → Prop
  | nil (isVerbatim : Bool) : Placed isVerbatim [] [] []
  | element {isVerbatim : Bool} {e bound : Element} {handle : Option String} {position : Position}
      {children below ts us : List Tree} {inner outer : List Spot} (helement : Marks e bound handle)
      (hbelow : Placed (Markup.verbatimTags.contains e.tag) children below inner)
      (hrest : Placed isVerbatim ts us outer) :
      Placed isVerbatim (.node (.element e) position children :: ts) (.node (.element bound) position below :: us)
        (⟨.carrier e, bound, handle⟩ :: (inner ++ outer))
  | text {s : String} {position : Position} {children ts us : List Tree} {sequence : Sequence} {pieces : List Piece}
      {outer : List Spot} (hmarkers : Interpolation.hasMarkers s = true) (hcuts : Cuts s sequence pieces)
      (hrest : Placed false ts us outer) :
      Placed false (.node (.text s) position children :: ts) (pieces.map (pieceNode position) ++ us)
        (pieces.filterMap (Spot.ofPiece s sequence) ++ outer)
  | other {isVerbatim : Bool} {t : Tree} {ts us : List Tree} {outer : List Spot} (helement : t.element? = none)
      (htext : ∀ s, t.kind = .text s → isVerbatim = true ∨ Interpolation.hasMarkers s = false)
      (hrest : Placed isVerbatim ts us outer) : Placed isVerbatim (t :: ts) (t :: us) outer

lemma elementsOf_cons (t : Tree) (ts : List Tree) :
    Tree.elementsOf (t :: ts) = t.preorder.filterMap Tree.element? ++ Tree.elementsOf ts := by
  rw [Tree.elementsOf, Tree.preorderAll, filterMap_append]
  rfl

lemma elementsOf_element (e : Element) (position : Position) (children ts : List Tree) :
    Tree.elementsOf (.node (.element e) position children :: ts) =
      e :: (Tree.elementsOf children ++ Tree.elementsOf ts) := by
  rw [elementsOf_cons]
  rfl

lemma elementsOf_leaf {t : Tree} (helement : t.element? = none) (hleaf : t.children = []) (ts : List Tree) :
    Tree.elementsOf (t :: ts) = Tree.elementsOf ts := by
  obtain ⟨kind, position, children⟩ := t
  obtain rfl : children = [] := hleaf
  rw [elementsOf_cons, Tree.preorder, filterMap_cons, helement]
  rfl

lemma elementsOf_pieces (text : String) (sequence : Sequence) (position : Position) (us : List Tree) :
    ∀ pieces : List Piece, Tree.elementsOf (pieces.map (pieceNode position) ++ us) =
      (pieces.filterMap (Spot.ofPiece text sequence)).map (·.element) ++ Tree.elementsOf us
  | [] => rfl
  | .literal s :: pieces => by
    rw [map_cons, cons_append, elementsOf_leaf rfl rfl, elementsOf_pieces text sequence position us pieces]
    rfl
  | .expression found :: pieces => by
    rw [map_cons, cons_append, pieceNode, Tree.leaf, elementsOf_element,
      elementsOf_pieces text sequence position us pieces]
    rfl

namespace Placed

variable {isVerbatim : Bool} {ts us : List Tree} {spots : List Spot}

lemma mem_preorder_self (t : Tree) : t ∈ t.preorder := by
  cases t
  exact (.head _)

lemma leaves_cons {t : Tree} {ts : List Tree}
    (h : ∀ u ∈ Tree.preorderAll (t :: ts), u.element? = none → u.children = []) :
    (∀ u ∈ t.preorder, u.element? = none → u.children = []) ∧
      ∀ u ∈ Tree.preorderAll ts, u.element? = none → u.children = [] := by
  exact ⟨fun u hu => h u (mem_append_left _ hu), fun u hu => h u (mem_append_right _ hu)⟩

lemma elements_eq (h : Placed isVerbatim ts us spots)
    (hleaves : ∀ t ∈ Tree.preorderAll ts, t.element? = none → t.children = []) :
    Tree.elementsOf us = spots.map (·.element) ∧ Tree.elementsOf ts = spots.filterMap Spot.carrier? := by
  induction h with
  | nil isVerbatim => exact ⟨rfl, rfl⟩
  | element helement hbelow hrest ihbelow ihrest =>
    obtain ⟨hfirst, houter⟩ := leaves_cons hleaves
    obtain ⟨hbound, htemplate⟩ := ihbelow (fun t ht => hfirst t (.tail _ ht))
    obtain ⟨hbound', htemplate'⟩ := ihrest houter
    rw [elementsOf_element, elementsOf_element, hbound, hbound', htemplate, htemplate', map_cons, map_append,
      filterMap_cons, filterMap_append]
    exact ⟨rfl, rfl⟩
  | @text s position children ts us sequence pieces outer hmarkers hcuts hrest ihrest =>
    obtain ⟨hfirst, houter⟩ := leaves_cons hleaves
    obtain ⟨hbound, htemplate⟩ := ihrest houter
    have hleaf : children = [] := hfirst _ (mem_preorder_self (.node (.text s) position children)) rfl
    have hpieces : (pieces.filterMap (Spot.ofPiece s sequence)).filterMap Spot.carrier? = [] := by
      rw [filterMap_filterMap]
      refine filterMap_eq_nil_iff.2 (fun piece _ => ?_)
      cases piece <;> rfl
    rw [elementsOf_pieces s sequence, hbound, elementsOf_leaf (t := .node (.text s) position children) rfl hleaf,
      htemplate, map_append, filterMap_append, hpieces]
    exact ⟨rfl, rfl⟩
  | @other isVerbatim t ts us outer helement htext hrest ihrest =>
    obtain ⟨hfirst, houter⟩ := leaves_cons hleaves
    have hleaf : t.children = [] := hfirst t (mem_preorder_self t) helement
    rw [elementsOf_leaf helement hleaf, elementsOf_leaf helement hleaf]
    exact ihrest houter

lemma cases_of_mem (h : Placed isVerbatim ts us spots) {spot : Spot} (hspot : spot ∈ spots) :
    (∃ text sequence found, Piece.expression found ∈ (scan text sequence).1.parts ∧
      spot = ⟨.piece text sequence found, Binding.embed found.placeholder, some found.placeholder⟩) ∨
    ∃ e bound handle, Marks e bound handle ∧ spot = ⟨.carrier e, bound, handle⟩ := by
  induction h with
  | nil isVerbatim => cases hspot
  | element helement hbelow hrest ihbelow ihrest =>
    rcases mem_cons.1 hspot with rfl | hspot
    · exact Or.inr ⟨_, _, _, helement, rfl⟩
    · rcases mem_append.1 hspot with hspot | hspot
      · exact ihbelow hspot
      · exact ihrest hspot
  | text hmarkers hcuts hrest ihrest =>
    rcases mem_append.1 hspot with hspot | hspot
    · obtain ⟨piece, hpiece, hof⟩ := mem_filterMap.1 hspot
      cases piece with
      | literal s => cases hof
      | expression found =>
        cases hof
        exact Or.inl ⟨_, _, found, hcuts.parts ▸ hpiece, rfl⟩
    · exact ihrest hspot
  | other helement htext hrest ihrest => exact ihrest hspot

lemma isWord_placeholder {text : String} {sequence : Sequence} {found : Interpolation}
    (h : Piece.expression found ∈ (scan text sequence).1.parts) : Text.IsWord found.placeholder := by
  refine ⟨?_, fun c hc => Markup.isBlank_of_isNameChar (isNameChar_of_expression h c hc)⟩
  obtain ⟨ids, -, -, hids⟩ := draws_scan text sequence
  have hmem : found.placeholder ∈ ids.map (Identifier.handle sequence.salt) := by
    rw [← hids]
    exact mem_filterMap.2 ⟨_, h, rfl⟩
  obtain ⟨id, -, hid⟩ := mem_map.1 hmem
  rw [← hid]
  cases id <;> simp [Identifier.handle, Sequence.referenceHandle]

lemma classes_embed {placeholder : String} (h : Text.IsWord placeholder) :
    (Binding.embed placeholder).classes = [placeholder] := by
  have hclasses : (Binding.embed placeholder).classes = Text.words placeholder := by
    have hhidden : Markup.normalName "hidden" = "hidden" := by decide +kernel
    have hattributes : (Binding.embed placeholder).attributes =
        [Attribute.new "hidden" "", Attribute.new "class" placeholder] := by
      rw [Binding.embed, Element.set, Element.set, Element.new, Markup.setIn, Markup.setIn_cons, Attribute.name_new,
        Attribute.name_new, hhidden, Element.normalName_class, if_neg (by decide), Markup.setIn]
    rw [Element.classes, hattributes]
    rfl
  rw [hclasses, h.words_eq]

lemma mem_classes_iff (h : Placed isVerbatim ts us spots) (hregular : IsRegular ts) {c : String}
    (hc : ∀ e ∈ Tree.elementsOf ts, c ∉ e.classes) {spot : Spot} (hspot : spot ∈ spots) :
    c ∈ spot.element.classes ↔ spot.handle = some c := by
  obtain ⟨text, sequence, found, hfound, rfl⟩ | ⟨e, bound, handle, hmarks, rfl⟩ := h.cases_of_mem hspot
  · rw [classes_embed (isWord_placeholder hfound), mem_singleton, Option.some.injEq, eq_comm]
  · have hmem : e ∈ Tree.elementsOf ts := by
      rw [(h.elements_eq hregular.leaves).2]
      exact mem_filterMap.2 ⟨_, hspot, rfl⟩
    cases handle with
    | none =>
      obtain ⟨-, rfl⟩ := hmarks
      exact ⟨fun hclass => absurd hclass (hc _ hmem), fun heq => nomatch heq⟩
    | some handle =>
      obtain ⟨-, hhandle, rfl⟩ := hmarks
      have hnames := hregular.names e hmem
      have hplain := hregular.classes e hmem
      rw [Element.mem_classes_addClass (HasPlainClass.remainder hnames hplain) hhandle.isWord, Option.some.injEq, eq_comm]
      exact ⟨fun hclass => hclass.resolve_left (fun hleft => hc e hmem (mem_classes_remainder hnames hplain hleft)),
        Or.inr⟩

lemma countP_classes (h : Placed isVerbatim ts us spots) (hregular : IsRegular ts)
    (hdistinct : (spots.filterMap (·.handle)).Nodup) {c : String} (hc : c ∈ spots.filterMap (·.handle))
    (hwritten : ∀ e ∈ Tree.elementsOf ts, c ∉ e.classes) :
    (Tree.elementsOf us).countP (fun e => e.classes.contains c) = 1 := by
  have hcount : spots.countP (fun spot => spot.element.classes.contains c) =
      spots.countP (fun spot => spot.handle == some c) :=
    countP_congr (fun spot hspot => by
      rw [contains_iff_mem, beq_iff_eq]
      exact h.mem_classes_iff hregular hwritten hspot)
  rw [(h.elements_eq hregular.leaves).1, countP_map]
  refine hcount.trans ?_
  rw [← count_filterMap, List.Nodup.count hdistinct, if_pos hc]

end Placed
end Component
end ReactiveTemplate
