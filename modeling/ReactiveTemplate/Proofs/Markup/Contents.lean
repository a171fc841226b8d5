import ReactiveTemplate.Proofs.Markup.Nesting
import ReactiveTemplate.Proofs.Markup.Scanning
/-!
# Contents — the trees of sources

The tree of a source is made of tokens as the reader hands them out, so its names and comments read again as they are
written, and an element whose text is not read as markup holds at most one text, which stays inside of it
(`sound_of_parse`).
-/
set_option linter.all false

namespace ReactiveTemplate.Markup
open List

open Lexer

def Tree.Sound : Tree → Prop
  | .node .document _ _ => True
  | .node (.element e) _ children => IsTagName e.tag.toList ∧ (contentOf e.tag = .normal ∨ children = [] ∨
      ∃ s position, children = [.leaf (.text s) position] ∧ IsTextOf e.tag s)
  | .node (.text _) _ _ => True
  | .node (.comment s) _ _ => CommentText s.toList ∧ '\r' ∉ s.toList
  | .node (.doctype name) _ _ => IsDoctypeName name.toList
  | .node (.raw _) _ _ => False

def Kind.Opens : Kind → Prop
  | .document => True
  | .element e => IsTagName e.tag.toList ∧ contentOf e.tag = .normal
  | _ => False

lemma Kind.Opens.sound (e : Element) (h : (Kind.element e).Opens) (position : Position) (children : List Tree) :
    (Tree.node (.element e) position children).Sound := ⟨h.1, .inl h.2⟩

lemma lower_of_isTagName {name : String} (h : IsTagName name.toList) : Text.lower name = name := by
  have hmap : name.toList.map Char.toLower = name.toList := by
    refine (map_congr_left fun c hc => ?_).trans (map_id _)
    have hlower := (isKept_iff.1 (h.kept c hc)).1
    rw [← hlower, toLower_toLower, id_eq]
  rw [Text.lower, hmap, String.ofList_toList]

lemma sound_leaf {t : Token} (ht : t.Sound) {kind : Kind} (hkind : t.kind? = some kind) (position : Position) :
    (Tree.leaf kind position).Sound := by
  cases t with
  | startTag name attributes selfClosing =>
    cases hkind
    refine ⟨?_, .inr (.inl rfl)⟩
    show IsTagName (Text.lower name).toList
    rwa [lower_of_isTagName ht]
  | endTag name => cases hkind
  | text s =>
    cases hkind
    trivial
  | comment s =>
    cases hkind
    exact ht
  | doctype name =>
    cases hkind
    cases name with
    | none =>
      have hkept : "html".toList.all (fun c =>
          decide ((shown c).toLower = c ∧ isSpace c = false ∧ c ≠ '>' ∧ c ≠ '\r')) = true := by decide
      exact ⟨by decide, fun c hc => of_decide_eq_true (all_eq_true.1 hkept c hc)⟩
    | some name => exact ht
  | ignored => cases hkind
  | truncated reason => cases hkind

namespace Layer

variable {nest nest' : List Layer} {tag : String}

lemma each_takes_token {t : Token} (ht : t.Sound) (hraw : t.opensText = false)
    (h : Takes [t] nest nest') (hnest : Each Kind.Opens Tree.Sound nest) : Each Kind.Opens Tree.Sound nest' := by
  cases h with
  | cons position htake hrest =>
    cases hrest
    refine each_take Kind.Opens.sound (fun _ _ _ _ _ _ => trivial) ?_ (fun kind hkind => sound_leaf ht hkind position) htake hnest
    rintro name attributes rfl -
    have hname : Text.lower name = name := lower_of_isTagName ht
    have hnormal : contentOf name = .normal := by simpa [Token.opensText] using hraw
    show IsTagName (Text.lower name).toList ∧ contentOf (Text.lower name) = .normal
    rw [hname]
    exact ⟨ht, hnormal⟩

lemma isVoid_of_contentOf {e : Element} (h : contentOf e.tag ≠ .normal) : e.isVoid = false := by
  rw [Element.isVoid]
  rcases tag_of_contentOf h with htag | htag | htag | htag <;> rw [htag] <;> decide

lemma take_startTag {attributes : List (String × String)} (htag : IsTagName tag.toList)
    (hraw : contentOf tag ≠ .normal) {position : Position}
    (h : take position (.startTag tag attributes false) nest = some nest') :
    ∃ inner outer, nest = inner :: outer ∧
      nest' = ⟨.element (Builder.elementOf tag attributes), position, []⟩ :: inner :: outer := by
  have hlower : (Builder.elementOf tag attributes).tag = tag := lower_of_isTagName htag
  have hvoid : (Builder.elementOf tag attributes).isVoid = false := isVoid_of_contentOf (by rwa [hlower])
  cases nest with
  | nil => cases h
  | cons inner outer =>
    simp only [take, hvoid, Option.some.injEq] at h
    exact ⟨inner, outer, rfl, h.symm⟩

lemma takes_endTag {inner around : Layer} {outer : List Layer}
    (h : Takes [.endTag tag] (inner :: around :: outer) nest') : nest' = around.add inner.toTree :: outer := by
  cases h with
  | cons position htake hrest =>
    cases hrest
    simp only [take] at htake
    split at htake
    · exact (Option.some.inj htake).symm
    · cases htake

lemma each_takes_element {attributes : List (String × String)} {text : Option String}
    (htag : IsTagName tag.toList) (hraw : contentOf tag ≠ .normal) (htext : ∀ s, text = some s → IsTextOf tag s)
    (h : Takes (.startTag tag attributes false :: (text.map Token.text).toList ++ [.endTag tag]) nest nest')
    (hnest : Each Kind.Opens Tree.Sound nest) : Each Kind.Opens Tree.Sound nest' := by
  have hlower : (Builder.elementOf tag attributes).tag = tag := lower_of_isTagName htag
  cases h with
  | cons position htake hrest =>
    obtain ⟨inner, outer, rfl, rfl⟩ := take_startTag htag hraw htake
    have hsound : ∀ children, (children = [] ∨ ∃ s p, children = [Tree.leaf (.text s) p] ∧ IsTextOf tag s) →
        (Tree.node (.element (Builder.elementOf tag attributes)) position children).Sound := fun children hchildren =>
      ⟨by rwa [hlower], .inr (by rwa [hlower])⟩
    cases text with
    | none =>
      rw [takes_endTag hrest]
      exact each_add hnest (Tree.each_leaf.2 (hsound [] (.inl rfl)))
    | some s =>
      obtain ⟨middle, hmiddle, hend⟩ := takes_append.1 hrest
      cases hmiddle with
      | cons position' htake' hnil =>
        cases hnil
        cases htake'
        rw [takes_endTag hend]
        refine each_add hnest (Tree.each_node.2 ⟨hsound _ (.inr ⟨s, position', rfl, htext s rfl⟩), ?_⟩)
        exact fun t ht => mem_singleton.1 ht ▸ Tree.each_leaf.2 trivial

lemma each_of_ordered {ts : List Token} (h : Ordered ts) (htakes : Takes ts nest nest')
    (hnest : Each Kind.Opens Tree.Sound nest) : Each Kind.Opens Tree.Sound nest' := by
  induction h generalizing nest' with
  | nil =>
    cases htakes
    exact hnest
  | token _ ht hraw ih =>
    obtain ⟨middle, hbefore, hlast⟩ := takes_append.1 htakes
    exact each_takes_token ht hraw hlast (ih hbefore)
  | element _ htag hraw htext ih =>
    obtain ⟨middle, hbefore, hlast⟩ := takes_append.1 htakes
    exact each_takes_element htag hraw htext hlast (ih hbefore)

lemma length_takes_rest {ts : List Token} (hts : ∀ t ∈ ts, IsRest t) (h : Takes ts nest nest') :
    nest'.length = nest.length := by
  induction h with
  | nil nest => rfl
  | @cons t ts nest nest₁ nest' position htake _ ih =>
    rw [ih (fun u hu => hts u (mem_cons_of_mem _ hu))]
    rcases hts t (.head _) with ⟨s, rfl⟩ | ⟨reason, rfl⟩
    · cases nest with
      | nil => cases htake
      | cons inner outer =>
        cases htake
        rfl
    · cases nest <;> cases htake

end Layer

lemma sound_of_parse {source file : String} {d : Document} (h : Document.parse source file = .ok d) :
    (d.toTree Document.root).Each Tree.Sound := by
  obtain ⟨ts, htakes, htree⟩ := takes_of_parse h
  have hnest : Layer.Each Kind.Opens Tree.Sound [⟨.document, {}, []⟩] := by
    rintro l hl
    rw [mem_singleton.1 hl]
    exact ⟨trivial, fun t ht => by cases ht⟩
  rw [htree]
  have hscanned := scanned_tokens source
  generalize tokens source = all at hscanned htakes
  cases hscanned with
  | complete hordered =>
    have hdone := (Layer.each_of_ordered hordered htakes hnest) _ (.head _)
    exact Tree.each_node.2 ⟨trivial, hdone.2⟩
  | cut hordered htag hraw hrest =>
    -- The element stays open, so more than the document node is open in the end.
    obtain ⟨middle, -, hcut⟩ := Layer.takes_append.1 htakes
    cases hcut with
    | cons position htake hafter =>
      obtain ⟨inner, outer, rfl, rfl⟩ := Layer.take_startTag htag hraw htake
      have hlength := Layer.length_takes_rest hrest hafter
      simp at hlength

end ReactiveTemplate.Markup
