import ReactiveTemplate.Proofs.Markup.Layers
import Mathlib.Data.List.Chain
/-!
# Events — a tree written out

A tree written out is a list of events: an element opens and closes, and every other node is one event (`Tree.events`).
-/
set_option linter.all false

namespace ReactiveTemplate.Markup
open List

inductive Event where
  | opened (e : Element)
  | closed (tag : String)
  | leaf (kind : Kind)
  deriving Repr, DecidableEq

def Event.text? : Event → Option String
  | .leaf kind => kind.text?
  | _ => none

def Token.events : Token → List Event
  | .startTag name attributes selfClosing =>
    let e := Builder.elementOf name attributes
    if e.isVoid || selfClosing then [.opened e, .closed e.tag] else [.opened e]
  | .endTag name => [.closed name]
  | .text s => [.leaf (.text s)]
  | .comment s => [.leaf (.comment s)]
  | .doctype name => [.leaf (.doctype (name.getD "html"))]
  | .ignored => []
  | .truncated _ => []

def Event.join : List Event → Event → List Event
  | [], e => [e]
  | [.leaf (.text s)], .leaf (.text s') => [.leaf (.text (s ++ s'))]
  | e :: es, e' => e :: join es e'

def Event.merge (es : List Event) : List Event := es.foldl join []

namespace Tree

mutual
def events : Tree → List Event
  | node (.element e) _ children => .opened e :: (eventsAll children ++ [.closed e.tag])
  | node kind _ _ => [.leaf kind]

def eventsAll : List Tree → List Event
  | [] => []
  | t :: ts => t.events ++ eventsAll ts
end

def Leafy : Tree → Prop
  | node (.element e) _ children => e.isVoid = true → children = []
  | node kind _ children => kind ≠ .document ∧ children = []

lemma eventsAll_append (ts us : List Tree) : eventsAll (ts ++ us) = eventsAll ts ++ eventsAll us := by
  induction ts with
  | nil => rfl
  | cons t ts ih => rw [cons_append, eventsAll, eventsAll, ih, append_assoc]

lemma eventsAll_singleton (t : Tree) : eventsAll [t] = t.events := by
  rw [eventsAll, eventsAll, append_nil]

lemma events_of_tag {kind : Kind} {tag : String} (h : kind.tag? = some tag) (position : Position)
    (children : List Tree) :
    ∃ e : Element, kind = .element e ∧ e.tag = tag ∧
      (node kind position children).events = .opened e :: (eventsAll children ++ [.closed tag]) := by
  cases kind with
  | element e =>
    cases h
    exact ⟨e, rfl, rfl, by rw [events]⟩
  | _ => cases h

lemma events_of_tag?_eq_none {kind : Kind} (h : kind.tag? = none) (position : Position) (children : List Tree) :
    (node kind position children).events = [.leaf kind] := by
  rw [events]
  rintro e rfl
  cases h

lemma events_eq_concat (t : Tree) : ∃ es e, t.events = es ++ [e] ∧ e.text? = t.kind.text? := by
  obtain ⟨kind, position, children⟩ := t
  cases htag : kind.tag? with
  | none => exact ⟨[], .leaf kind, events_of_tag?_eq_none htag position children, rfl⟩
  | some tag =>
    obtain ⟨e, rfl, -, hevents⟩ := events_of_tag htag position children
    exact ⟨.opened e :: eventsAll children, .closed tag, hevents, rfl⟩

end Tree

namespace Event

lemma join_cons (a b : Event) (es : List Event) (e : Event) : join (a :: b :: es) e = a :: join (b :: es) e := by
  rw [join]
  simp

lemma join_text (s s' : String) : ∀ es : List Event,
    join (es ++ [.leaf (.text s)]) (.leaf (.text s')) = es ++ [.leaf (.text (s ++ s'))]
  | [] => rfl
  | [a] => join_cons a _ [] _
  | a :: b :: es => by
    rw [cons_append, cons_append, join_cons]
    exact congrArg (a :: ·) (join_text s s' (b :: es))

lemma eq_text {e : Event} {s : String} (h : e.text? = some s) : e = .leaf (.text s) := by
  cases e with
  | leaf kind => cases kind <;> cases h; rfl
  | _ => cases h

lemma join_other {x e : Event} (h : x.text? = none ∨ e.text? = none) : ∀ es : List Event,
    join (es ++ [x]) e = es ++ [x] ++ [e]
  | [] => by
    rw [nil_append, join]
    · rfl
    · rintro s s' rfl rfl
      rcases h with h | h <;> cases h
  | [a] => by
    rw [cons_append, nil_append, join_cons]
    exact congrArg (a :: ·) (join_other h [])
  | a :: b :: es => by
    rw [cons_append, cons_append, join_cons]
    exact congrArg (a :: ·) (join_other h (b :: es))

lemma join_of_text?_eq_none {e : Event} (h : e.text? = none) (es : List Event) : join es e = es ++ [e] := by
  rcases eq_nil_or_concat' es with rfl | ⟨es, x, rfl⟩
  · rfl
  · exact join_other (.inr h) es

lemma merge_append (es fs : List Event) : merge (es ++ fs) = fs.foldl join (merge es) := foldl_append

lemma merge_concat (es : List Event) (e : Event) : merge (es ++ [e]) = join (merge es) e := merge_append es [e]

def Apart (es : List Event) : Prop := es.IsChain (fun x e => x.text? = none ∨ e.text? = none)

lemma apart_concat {es : List Event} {x e : Event} (h : Apart (es ++ [x])) (hxe : x.text? = none ∨ e.text? = none) :
    Apart (es ++ [x] ++ [e]) := by
  refine isChain_append.2 ⟨h, isChain_singleton _, ?_⟩
  intro a ha b hb
  rw [getLast?_concat, Option.mem_some_iff] at ha
  rw [head?_singleton, Option.mem_some_iff] at hb
  rwa [← ha, ← hb]

lemma apart_join {es : List Event} (h : Apart es) (e : Event) : Apart (join es e) := by
  rcases eq_nil_or_concat' es with rfl | ⟨es, x, rfl⟩
  · exact isChain_singleton _
  by_cases hxe : x.text? = none ∨ e.text? = none
  · rw [join_other hxe]
    exact apart_concat h hxe
  · rw [not_or] at hxe
    obtain ⟨s, hs⟩ := Option.ne_none_iff_exists'.1 hxe.1
    obtain ⟨s', hs'⟩ := Option.ne_none_iff_exists'.1 hxe.2
    rw [eq_text hs] at h ⊢
    rw [eq_text hs', join_text]
    obtain ⟨hes, -, hlast⟩ := isChain_append.1 h
    refine isChain_append.2 ⟨hes, isChain_singleton _, fun a ha b hb => .inl ?_⟩
    exact (hlast a ha _ rfl).resolve_right nofun

lemma apart_merge (es : List Event) : Apart (merge es) := by
  induction es using reverseRecOn with
  | nil => exact isChain_nil
  | append_singleton es e ih =>
    rw [merge_concat]
    exact apart_join ih e

lemma merge_of_apart {es : List Event} (h : Apart es) : merge es = es := by
  induction es using reverseRecOn with
  | nil => rfl
  | append_singleton es e ih =>
    obtain ⟨hes, -, hlast⟩ := isChain_append.1 h
    rw [merge_concat, ih hes]
    rcases eq_nil_or_concat' es with rfl | ⟨es, x, rfl⟩
    · rfl
    · exact join_other (hlast x (by rw [getLast?_concat]; rfl) e rfl) es

lemma merge_merge (es : List Event) : merge (merge es) = merge es := merge_of_apart (apart_merge es)

lemma join_join (es : List Event) (s s' : String) :
    join (join es (.leaf (.text s))) (.leaf (.text s')) = join es (.leaf (.text (s ++ s'))) := by
  rcases eq_nil_or_concat' es with rfl | ⟨es, x, rfl⟩
  · rfl
  cases hx : x.text? with
  | none => rw [join_other (.inl hx), join_other (.inl hx), join_text]
  | some t => rw [eq_text hx, join_text, join_text, join_text, String.append_assoc]

end Event

/-! ## What events tell of a tree -/

namespace Tree

mutual
def unplaced : Tree → Tree
  | node kind _ children => node kind {} (unplacedAll children)

def unplacedAll : List Tree → List Tree
  | [] => []
  | t :: ts => t.unplaced :: unplacedAll ts
end

/-- What may follow the events of trees: nothing, or the end of the element that they are in. -/
def Closes (es : List Event) : Prop := ∀ e, es.head? = some e → ∃ tag, e = .closed tag

lemma exists_events_cons (t : Tree) : ∃ e es, t.events = e :: es ∧ ∀ tag, e ≠ .closed tag := by
  obtain ⟨kind, position, children⟩ := t
  cases htag : kind.tag? with
  | none => exact ⟨_, _, events_of_tag?_eq_none htag position children, nofun⟩
  | some tag =>
    obtain ⟨e, rfl, -, hevents⟩ := events_of_tag htag position children
    exact ⟨_, _, hevents, nofun⟩

lemma not_closes_eventsAll (t : Tree) (ts : List Tree) (es : List Event) : ¬ Closes (eventsAll (t :: ts) ++ es) := by
  intro h
  obtain ⟨e, rest, hevents, hne⟩ := t.exists_events_cons
  obtain ⟨tag, rfl⟩ := h e (by rw [eventsAll, hevents]; rfl)
  exact hne tag rfl

lemma children_of_leafy {kind : Kind} {position : Position} {children : List Tree}
    (h : (node kind position children).Leafy) (htag : kind.tag? = none) : children = [] := by
  cases kind with
  | element e => cases htag
  | _ => exact h.2

lemma unplacedAll_eq : ∀ {ts us : List Tree} {x y : List Event}, (∀ t ∈ ts, t.Each Leafy) → (∀ u ∈ us, u.Each Leafy) →
    Closes x → Closes y → eventsAll ts ++ x = eventsAll us ++ y → unplacedAll ts = unplacedAll us ∧ x = y
  | [], [], x, y, _, _, _, _, h => ⟨rfl, h⟩
  | [], u :: us, x, y, _, _, hx, _, h => by
    have hx' : x = eventsAll (u :: us) ++ y := h
    exact absurd (hx' ▸ hx) (not_closes_eventsAll u us y)
  | t :: ts, [], x, y, _, _, _, hy, h => by
    have hy' : eventsAll (t :: ts) ++ x = y := h
    exact absurd (hy' ▸ hy) (not_closes_eventsAll t ts x)
  | node kind position children :: ts, node kind' position' children' :: us, x, y, hts, hus, hx, hy, h => by
    obtain ⟨ht, htail⟩ := forall_mem_cons.1 hts
    obtain ⟨hu, hutail⟩ := forall_mem_cons.1 hus
    rw [eventsAll, eventsAll, append_assoc, append_assoc] at h
    cases htag : kind.tag? with
    | none =>
      rw [events_of_tag?_eq_none htag] at h
      cases htag' : kind'.tag? with
      | none =>
        rw [events_of_tag?_eq_none htag'] at h
        obtain ⟨hkind, hrest⟩ := cons.inj h
        cases hkind
        obtain ⟨hall, hxy⟩ := unplacedAll_eq htail hutail hx hy hrest
        have hchildren := children_of_leafy (each_node.1 ht).1 htag
        have hchildren' := children_of_leafy (each_node.1 hu).1 htag
        rw [unplacedAll, hchildren, hchildren', hall]
        exact ⟨rfl, hxy⟩
      | some tag =>
        obtain ⟨e, -, -, hevents⟩ := events_of_tag htag' position' children'
        rw [hevents] at h
        cases (cons.inj h).1
    | some tag =>
      obtain ⟨e, rfl, rfl, hevents⟩ := events_of_tag htag position children
      rw [hevents] at h
      cases htag' : kind'.tag? with
      | none =>
        rw [events_of_tag?_eq_none htag'] at h
        cases (cons.inj h).1
      | some tag =>
        obtain ⟨e', rfl, rfl, hevents'⟩ := events_of_tag htag' position' children'
        rw [hevents', cons_append, cons_append] at h
        obtain ⟨he, hrest⟩ := cons.inj h
        cases he
        rw [append_assoc, append_assoc] at hrest
        -- The end of the element closes the events in it.
        have hcloses : ∀ es, Closes ([.closed e.tag] ++ es) := fun es e₁ he₁ => ⟨e.tag, (Option.some.inj he₁).symm⟩
        obtain ⟨hinside, hbehind⟩ :=
          unplacedAll_eq (each_node.1 ht).2 (each_node.1 hu).2 (hcloses _) (hcloses _) hrest
        obtain ⟨hall, hxy⟩ := unplacedAll_eq htail hutail hx hy (cons.inj hbehind).2
        rw [unplacedAll, unplaced, hinside, hall]
        exact ⟨rfl, hxy⟩

end Tree

namespace Layer

inductive Proper : List Layer → Prop
  | outermost (position : Position) (done : List Tree) : Proper [⟨.document, position, done⟩]
  | inside (e : Element) (position : Position) (done : List Tree) {outer : List Layer} :
    Proper outer → Proper (⟨.element e, position, done⟩ :: outer)

variable {l : Layer} {position : Position} {nest nest' : List Layer} {ts : List Token}

lemma Proper.with_done {outer : List Layer} (h : Proper (l :: outer)) (done : List Tree) :
    Proper ({ l with done := done } :: outer) := by
  cases h with
  | outermost position _ => exact .outermost position done
  | inside e position _ h => exact .inside e position done h

lemma Proper.outer {inner around : Layer} {outer : List Layer} (h : Proper (inner :: around :: outer)) :
    Proper (around :: outer) := by
  cases h with
  | inside _ _ _ h => exact h

lemma Proper.take {position : Position} {t : Token} {nest nest' : List Layer} (hnest : Proper nest)
    (h : take position t nest = some nest') : Proper nest' := by
  unfold Layer.take at h
  split at h
  · cases h
    split
    · exact hnest.with_done _
    · exact .inside _ _ _ hnest
  · split at h
    · cases h
      exact hnest.outer.with_done _
    · cases h
  · cases h
    exact hnest.with_done _
  · cases h
    exact hnest.with_done _
  · cases h
    exact hnest.with_done _
  · cases h
    exact hnest
  · cases h

def start (l : Layer) : List Event :=
  match l.kind with
  | .element e => [.opened e]
  | _ => []

def events : List Layer → List Event
  | [] => []
  | l :: outer => events outer ++ l.start ++ Tree.eventsAll l.done

lemma events_add (l : Layer) (t : Tree) (outer : List Layer) :
    events (l.add t :: outer) = events (l :: outer) ++ t.events := by
  show events outer ++ l.start ++ Tree.eventsAll (l.done ++ [t]) = _
  rw [Tree.eventsAll_append, Tree.eventsAll_singleton, ← append_assoc]
  rfl

lemma Proper.events_start {outer : List Layer} (h : Proper (l :: outer)) :
    events outer ++ l.start = [] ∨ ∃ es e, events outer ++ l.start = es ++ [.opened e] := by
  cases h with
  | outermost position done => exact .inl rfl
  | inside e position done h => exact .inr ⟨events outer, e, rfl⟩

lemma Proper.events_appendText {outer : List Layer} (h : Proper (l :: outer)) (s : String) (position : Position) :
    events ({ l with done := Tree.appendText s position l.done } :: outer) =
      Event.join (events (l :: outer)) (.leaf (.text s)) := by
  show events outer ++ l.start ++ Tree.eventsAll (Tree.appendText s position l.done) =
    Event.join (events outer ++ l.start ++ Tree.eventsAll l.done) (.leaf (.text s))
  have htext : ∀ s position below, (Tree.node (.text s) position below).events = [.leaf (.text s)] :=
    fun s position below => Tree.events_of_tag?_eq_none rfl position below
  rcases eq_nil_or_concat' l.done with hnil | ⟨ts, ⟨kind, at_, below⟩, hconcat⟩
  · rw [hnil, Tree.appendText, Tree.eventsAll_singleton, Tree.leaf, htext, Tree.eventsAll, append_nil]
    rcases h.events_start with hstart | ⟨es, e, hstart⟩
    · rw [hstart]
      rfl
    · rw [hstart, Event.join_other (.inl rfl)]
  · rw [hconcat]
    cases hkind : kind.text? with
    | none =>
      obtain ⟨es, x, hevents, hx⟩ := (Tree.node kind at_ below).events_eq_concat
      rw [Tree.appendText_other s position (t := .node kind at_ below) hkind, Tree.eventsAll_append,
        Tree.eventsAll_append, Tree.eventsAll_singleton, Tree.eventsAll_singleton, hevents, Tree.leaf, htext]
      simp only [← append_assoc]
      rw [Event.join_other (.inl (hx.trans hkind))]
    | some existing =>
      have hexisting : kind = .text existing := by
        cases kind <;> cases hkind
        rfl
      subst hexisting
      rw [Tree.appendText_text, Tree.eventsAll_append, Tree.eventsAll_append, Tree.eventsAll_singleton,
        Tree.eventsAll_singleton, htext, htext, ← append_assoc, ← append_assoc, Event.join_text]

lemma Proper.events_take {t : Token} (hnest : Proper nest)
    (h : Layer.take position t nest = some nest') : events nest' = t.events.foldl Event.join (events nest) := by
  have hleaf : ∀ {inner : Layer} {outer : List Layer} (kind : Kind), kind.tag? = none → kind.text? = none →
      events (inner.add (.leaf kind position) :: outer) = Event.join (events (inner :: outer)) (.leaf kind) := by
    intro inner outer kind htag htext
    rw [events_add, Event.join_of_text?_eq_none (e := .leaf kind) htext, Tree.leaf, Tree.events_of_tag?_eq_none htag]
  unfold Layer.take at h
  split at h
  · rename_i name attributes selfClosing inner outer
    cases h
    rw [Token.events]
    split
    · rw [events_add, foldl_cons, foldl_cons, Event.join_of_text?_eq_none rfl,
        Event.join_of_text?_eq_none rfl, append_assoc]
      rfl
    · rw [foldl_cons, foldl_nil, Event.join_of_text?_eq_none rfl]
      show events (inner :: outer) ++ [Event.opened _] ++ [] = _
      rw [append_nil]
  · rename_i name inner around outer
    split at h
    · rename_i htag
      cases h
      obtain ⟨e, hkind, -, hevents⟩ := Tree.events_of_tag htag inner.position inner.done
      have hstart : inner.start = [.opened e] := by rw [start, hkind]
      rw [events_add, toTree, hevents, Token.events, foldl_cons, Event.join_of_text?_eq_none rfl]
      show _ = events (around :: outer) ++ inner.start ++ Tree.eventsAll inner.done ++ [Event.closed name]
      rw [hstart, append_assoc, append_assoc]
      rfl
    · cases h
  · cases h
    exact hnest.events_appendText _ _
  · cases h
    exact hleaf _ rfl rfl
  · cases h
    exact hleaf _ rfl rfl
  · cases h
    rfl
  · cases h

lemma Proper.takes (hnest : Proper nest) (h : Takes ts nest nest') :
    events nest' = (ts.flatMap Token.events).foldl Event.join (events nest) := by
  induction h with
  | nil nest => rfl
  | cons position htake _ ih => rw [ih (hnest.take htake), hnest.events_take htake, flatMap_cons, foldl_append]

lemma Takes.events_eq {forest : List Tree}
    (h : Takes ts [⟨.document, position, []⟩] [⟨.document, position, forest⟩]) :
    Tree.eventsAll forest = Event.merge (ts.flatMap Token.events) :=
  (Proper.outermost position []).takes h

def IsOpen (kind : Kind) : Prop := ∀ e, kind = .element e → e.isVoid = false

lemma each_leafy (h : Takes ts nest nest') (hnest : Each IsOpen Tree.Leafy nest) : Each IsOpen Tree.Leafy nest' := by
  induction h with
  | nil nest => exact hnest
  | @cons t ts nest nest₁ nest' position htake _ ih =>
    refine ih (each_take (fun e he _ _ hvoid => ?_) ?_ ?_ (fun kind hkind => ?_) htake hnest)
    · rw [he e rfl] at hvoid
      cases hvoid
    · exact fun s _ existing at_ below hbelow => ⟨nofun, hbelow.2⟩
    · rintro name attributes - hvoid e he
      cases he
      exact hvoid
    · cases t with
      | startTag name attributes selfClosing => cases hkind; exact fun _ => rfl
      | endTag name => cases hkind
      | text s => cases hkind; exact ⟨nofun, rfl⟩
      | comment s => cases hkind; exact ⟨nofun, rfl⟩
      | doctype name => cases hkind; exact ⟨nofun, rfl⟩
      | ignored => cases hkind
      | truncated reason => cases hkind

lemma Takes.leafy {forest : List Tree}
    (h : Takes ts [⟨.document, position, []⟩] [⟨.document, position, forest⟩]) : ∀ t ∈ forest, t.Each Tree.Leafy := by
  refine (each_leafy h ?_ _ (.head _)).2
  intro l hl
  rw [mem_singleton.1 hl]
  exact ⟨nofun, nofun⟩

end Layer

end ReactiveTemplate.Markup
