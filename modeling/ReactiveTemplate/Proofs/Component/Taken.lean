import ReactiveTemplate.Proofs.Component.Remainder
/-!
# Taken — what a component keeps on the server

Texts are cut at their interpolations, and of each element its remainder is left (`Binds`).
-/
set_option linter.all false

namespace ReactiveTemplate.Component
open List

open Markup (Tree Element Attribute)

variable {isVerbatim : Bool} {ts us : List Tree}

/-- What binding makes of a template, `R` being what it makes of an element: a text with interpolations outside of
verbatim text is cut into its pieces, and everything else stays. -/
inductive Binds (R : Element → Element → Prop) : Bool → List Tree → List Tree → Prop
  | nil (isVerbatim : Bool) : Binds R isVerbatim [] []
  | element {isVerbatim : Bool} {e bound : Element} {position : Position} {children below ts us : List Tree}
      (helement : R e bound) (hbelow : Binds R (Markup.verbatimTags.contains e.tag) children below)
      (hrest : Binds R isVerbatim ts us) :
      Binds R isVerbatim (.node (.element e) position children :: ts) (.node (.element bound) position below :: us)
  | text {s : String} {position : Position} {children ts us : List Tree} (sequence : Sequence)
      (hmarkers : Interpolation.hasMarkers s = true) (hrest : Binds R false ts us) :
      Binds R false (.node (.text s) position children :: ts)
        ((scan s sequence).1.parts.map (pieceNode position) ++ us)
  | other {isVerbatim : Bool} {t : Tree} {ts us : List Tree} (helement : t.element? = none)
      (htext : ∀ s, t.kind = .text s → isVerbatim = true ∨ Interpolation.hasMarkers s = false)
      (hrest : Binds R isVerbatim ts us) : Binds R isVerbatim (t :: ts) (t :: us)

lemma Binds.imp {R S : Element → Element → Prop} (h : Binds R isVerbatim ts us)
    (himp : ∀ t ∈ Tree.preorderAll ts, ∀ e, t.element? = some e → ∀ bound, R e bound → S e bound) :
    Binds S isVerbatim ts us := by
  induction h with
  | nil isVerbatim => exact .nil isVerbatim
  | element helement _ _ ihbelow ihrest =>
    simp only [Tree.preorderAll, Tree.preorder, cons_append, mem_cons, mem_append] at himp
    refine .element (himp _ (Or.inl rfl) _ rfl _ helement) (ihbelow ?_) (ihrest ?_)
    · exact fun t ht => himp t (Or.inr (Or.inl ht))
    · exact fun t ht => himp t (Or.inr (Or.inr ht))
  | text sequence hmarkers _ ihrest =>
    refine .text sequence hmarkers (ihrest (fun t ht => himp t ?_))
    exact mem_append_right _ ht
  | other helement htext _ ihrest =>
    refine .other helement htext (ihrest (fun t ht => himp t ?_))
    exact mem_append_right _ ht

mutual
/-- Whether no attribute of the elements of a tree is one of some, and no text outside of verbatim text has markers. -/
def isFree (p : Attribute → Bool) (isVerbatim : Bool) : Tree → Bool
  | .node (.element e) _ children =>
    e.attributes.all (fun a => !p a) && areFree p (Markup.verbatimTags.contains e.tag) children
  | .node (.text s) _ _ => isVerbatim || !Interpolation.hasMarkers s
  | .node _ _ _ => true

def areFree (p : Attribute → Bool) (isVerbatim : Bool) : List Tree → Bool
  | [] => true
  | t :: ts => isFree p isVerbatim t && areFree p isVerbatim ts
end

lemma areFree_append (p : Attribute → Bool) (isVerbatim : Bool) (us ts : List Tree) :
    areFree p isVerbatim (ts ++ us) = (areFree p isVerbatim ts && areFree p isVerbatim us) := by
  induction ts with
  | nil => rw [nil_append, areFree, Bool.true_and]
  | cons t ts ih => rw [cons_append, areFree, areFree, ih, Bool.and_assoc]

lemma isTaken_embed {placeholder : String} (h : ∀ c ∈ placeholder.toList, Markup.isNameChar c = true) :
    ∀ a ∈ (Binding.embed placeholder).attributes, isTaken a = false := by
  have hhidden : Markup.normalName "hidden" = "hidden" := by decide +kernel
  have hmarkers := Interpolation.hasMarkersIn_name_append h []
  rw [append_nil] at hmarkers
  intro a ha
  rw [Binding.embed, Element.set, Element.set, Element.new, Markup.setIn, Markup.setIn_cons, Attribute.name_new,
    Attribute.name_new, hhidden, Element.normalName_class, if_neg (by decide), Markup.setIn] at ha
  simp only [mem_cons, not_mem_nil, or_false] at ha
  rcases ha with rfl | rfl
  · rw [isTaken, isBound, Attribute.name_new, hhidden]
    decide
  · have hvalue : Interpolation.hasMarkers placeholder = false := hmarkers
    rw [isTaken, isBound, Attribute.name_new, Element.normalName_class, Attribute.new, hvalue]
    decide

lemma areFree_pieces {p : Attribute → Bool} (hp : ∀ a, isTaken a = false → p a = false) {s : String}
    {sequence : Sequence} {position : Position} :
    areFree p false ((scan s sequence).1.parts.map (pieceNode position)) = true := by
  have hall : ∀ pieces : List Piece, (∀ piece ∈ pieces, isFree p false (pieceNode position piece) = true) →
      areFree p false (pieces.map (pieceNode position)) = true := by
    intro pieces
    induction pieces with
    | nil => exact fun _ => rfl
    | cons piece pieces ih =>
      intro hpieces
      rw [map_cons, areFree, hpieces piece mem_cons_self,
        ih (fun piece hmem => hpieces piece (.tail _ hmem))]
      rfl
  refine hall _ (fun piece hpiece => ?_)
  cases piece with
  | literal s =>
    rw [pieceNode, Tree.leaf, isFree, hasMarkers_of_literal hpiece]
    rfl
  | expression found =>
    rw [pieceNode, Tree.leaf, isFree, areFree, Bool.and_true, all_eq_true]
    intro a ha
    rw [hp a (isTaken_embed (isNameChar_of_expression hpiece) a ha)]
    rfl

lemma Binds.areFree {R : Element → Element → Prop} {p : Attribute → Bool}
    (hR : ∀ e bound, R e bound → bound.tag = e.tag ∧ ∀ a ∈ bound.attributes, p a = false)
    (hp : ∀ a, isTaken a = false → p a = false)
    (h : Binds R isVerbatim ts us) : areFree p isVerbatim us = true := by
  induction h with
  | nil isVerbatim => rfl
  | element helement _ _ ihbelow ihrest =>
    obtain ⟨htag, hattributes⟩ := hR _ _ helement
    rw [Component.areFree, isFree, htag, ihbelow, ihrest, Bool.and_true, Bool.and_true, all_eq_true]
    intro a ha
    rw [hattributes a ha]
    rfl
  | text sequence hmarkers _ ihrest => rw [areFree_append, areFree_pieces hp, ihrest, Bool.and_true]
  | @other isVerbatim t ts us helement htext _ ihrest =>
    rw [Component.areFree, ihrest, Bool.and_true]
    obtain ⟨kind, position, children⟩ := t
    cases kind with
    | element e => cases helement
    | text s =>
      rw [isFree]
      rcases htext s rfl with hverbatim | hmarkers
      · rw [hverbatim, Bool.true_or]
      · rw [hmarkers, Bool.not_false, Bool.or_true]
    | _ => rfl

lemma Binding.Passes.binds {site : Site} {b b' : Binder}
    (h : Binding.Passes site isVerbatim ts us b b') : Binds BindsTo isVerbatim ts us := by
  induction h with
  | nil => exact .nil _
  | element helement _ _ ihbelow ihrest => exact .element (Binding.bindsTo_element helement) ihbelow ihrest
  | text hmarkers htext _ ihrest =>
    rw [(Binding.gives_text htext).1]
    exact .text _ hmarkers ihrest
  | other helement htext _ ihrest => exact .other helement htext ihrest

variable {file : String} {sequence : Sequence} {assetOf : String → Option String} {e : Element} {position : Position}
  {children : List Tree} {built : Built}

lemma binds_of_build (h : build file sequence assetOf e position children = .ok built) :
    ∃ parts, Parts.ofChildren file children = .ok parts ∧ Binds BindsTo false parts.template built.template := by
  obtain ⟨parts, binder, hparts, -, hrun, -⟩ := build_cases h
  obtain ⟨names, b₁, analysed, hooks, -, -, hpasses⟩ := Binding.gives_bindTemplate hrun
  exact ⟨parts, hparts, hpasses.binds⟩

/-- **What a component keeps on the server.**  The bound template is the template with its texts cut at their
interpolations, and with what `remainder` leaves of each element.  So no text has markers and no event stays.  If the
elements can be separated, nothing with markers and no reference stays either, and every other attribute does. -/
theorem build_taken (h : build file sequence assetOf e position children = .ok built) :
    ∃ parts, Parts.ofChildren file children = .ok parts ∧ Binds BindsTo false parts.template built.template ∧
      areFree (fun a => isEvent a.name) false built.template = true ∧
      ((∀ t ∈ Tree.preorderAll parts.template, ∀ e, t.element? = some e → IsSeparable e) →
        Binds Keeps false parts.template built.template ∧ areFree isTaken false built.template = true) := by
  obtain ⟨parts, hparts, hbinds⟩ := binds_of_build h
  refine ⟨parts, hparts, hbinds, ?_, fun hseparable => ?_⟩
  · refine hbinds.areFree (fun e bound hbound => ⟨tag_of_bindsTo hbound, isEvent_of_bindsTo hbound⟩) (fun a ha => ?_)
    rw [isTaken, isBound, Bool.or_eq_false_iff, Bool.or_eq_false_iff] at ha
    exact ha.2.1
  · have hkeeps := hbinds.imp (fun t ht e he bound hbound => keeps_of_bindsTo hbound (hseparable t ht e he))
    exact ⟨hkeeps, hkeeps.areFree (fun e bound hbound => ⟨tag_of_keeps hbound, isTaken_of_keeps hbound⟩) (fun a ha => ha)⟩

/-- The counter keeps nothing of what it binds. -/
theorem build_taken_counter : ∃ built parts, Counter.result = .ok built ∧
    Parts.ofChildren "" Counter.content = .ok parts ∧ Binds Keeps false parts.template built.template ∧
      areFree isTaken false built.template = true := by
  obtain ⟨built, hbuilt, -⟩ := Counter.result_eq_ok
  obtain ⟨parts, hparts, -, -, hkeeps⟩ := build_taken hbuilt
  have hall : (Parts.ofChildren "" Counter.content).toOption.all (fun parts => (Tree.preorderAll parts.template).all
      (fun t => t.element?.all (fun e => decide (IsSeparable e)))) = true := by
    decide +kernel
  rw [hparts] at hall
  obtain ⟨hbinds, hfree⟩ := hkeeps (fun t ht e he => by
    have ht := List.all_eq_true.1 hall t ht
    rw [he] at ht
    exact of_decide_eq_true ht)
  exact ⟨built, parts, hbuilt, hparts, hbinds, hfree⟩

def written (ts : List Tree) : List (String × String) :=
  (Tree.preorderAll ts).flatMap (fun t => ((t.element?.map (·.attributes)).getD []).map (fun a => (a.rawName, a.value)))

/-- A component with two attributes that are looked up by one name, the second of which is bound. -/
def paired : List Tree :=
  [.node (.element ⟨"p", [Attribute.new "title" "a", Attribute.new "data-title" "$\x7bb\x7d"]⟩) {} [],
   Counter.tagged "script" [] [Counter.text "let b"]]

/-- The attribute that is bound stays, and the other one goes. -/
theorem build_paired : ∃ built, build "" (.new "") (fun _ => none) Counter.host {} paired = .ok built ∧
    ("title", "a") ∉ written built.template ∧ ("data-title", "$\x7bb\x7d") ∈ written built.template := by
  have h : (build "" (.new "") (fun _ => none) Counter.host {} paired).toOption.any (fun built =>
      decide (("title", "a") ∉ written built.template ∧ ("data-title", "$\x7bb\x7d") ∈ written built.template)) = true := by
    decide +kernel
  obtain ⟨built, hbuild, h⟩ := exists_ok_of_any h
  exact ⟨built, hbuild, of_decide_eq_true h⟩

end ReactiveTemplate.Component
