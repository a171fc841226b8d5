import ReactiveTemplate.Proofs.Markup.Events
import ReactiveTemplate.Proofs.Markup.Nesting
/-!
# Balance — tags that close each other

Start and end tags are brackets.
-/
set_option linter.all false

namespace ReactiveTemplate.Markup
open List

/-! ## Brackets -/

inductive Bracket where
  | opening (tag : String)
  | closing (tag : String)
  deriving Repr, DecidableEq

variable {a : List Bracket} {t : Token} {b : Builder} {d : Diagnostic}

def Token.bracket? : Token → Option Bracket
  | .startTag name attributes selfClosing =>
    if (Builder.elementOf name attributes).isVoid || selfClosing then none else some (.opening (Text.lower name))
  | .endTag name => some (.closing name)
  | _ => none

def brackets (ts : List Token) : List Bracket := ts.filterMap Token.bracket?

inductive Balanced : List Bracket → Prop
  | nil : Balanced []
  | pair {tag : String} {inside behind : List Bracket} (hinside : Balanced inside) (hbehind : Balanced behind) :
    Balanced (.opening tag :: inside ++ .closing tag :: behind)

namespace Balanced

lemma append {b : List Bracket} (ha : Balanced a) (hb : Balanced b) : Balanced (a ++ b) := by
  induction ha with
  | nil => exact hb
  | pair hinside _ _ ih =>
    rw [append_assoc]
    exact pair hinside ih

end Balanced

/-- The tags that are open behind brackets, the innermost first; nothing, if one closes what is not open innermost. -/
def settle : List String → List Bracket → Option (List String)
  | stack, [] => some stack
  | stack, .opening tag :: bs => settle (tag :: stack) bs
  | tag :: stack, .closing name :: bs => if tag = name then settle stack bs else none
  | [], .closing _ :: _ => none

lemma Balanced.settle_append (ha : Balanced a) (stack : List String) (bs : List Bracket) :
    settle stack (a ++ bs) = settle stack bs := by
  induction ha generalizing stack bs with
  | nil => rfl
  | @pair tag inside behind _ _ ihinside ihbehind =>
    rw [append_assoc, cons_append, settle, ihinside, cons_append, settle, if_pos rfl, ihbehind]

lemma Balanced.settle_eq (ha : Balanced a) (stack : List String) :
    settle stack a = some stack := by
  rw [← append_nil a, ha.settle_append, settle]

lemma brackets_append (ts us : List Token) : brackets (ts ++ us) = brackets ts ++ brackets us := filterMap_append

lemma brackets_leaf (h : t.bracket? = none) : brackets [t] = [] := by
  rw [brackets, filterMap_cons_none h, filterMap_nil]

lemma balanced_element {name : String} {attributes : List (String × String)} {inside : List Token}
    (hopen : (Builder.elementOf name attributes).isVoid = false) (hinside : Balanced (brackets inside)) :
    Balanced (brackets (.startTag name attributes false :: inside ++ [.endTag (Text.lower name)])) := by
  have hstart : Token.bracket? (.startTag name attributes false) = some (.opening (Text.lower name)) := by
    rw [Token.bracket?, hopen]
    rfl
  rw [cons_append, brackets, filterMap_cons_some hstart, filterMap_append]
  exact .pair hinside .nil

def WellNested (ts : List Token) : Prop := (∀ reason, .truncated reason ∉ ts) ∧ Balanced (brackets ts)

/-! ## Tokens read so far -/

namespace Builder

lemma takeAll_concat {b₁ b₂ : Builder} {ts : List Token} (h₁ : b.takeAll ts = .ok b₁)
    (h₂ : b₁.take t = .ok b₂) : b.takeAll (ts ++ [t]) = .ok b₂ := by
  induction ts generalizing b with
  | nil =>
    cases h₁
    rw [nil_append, takeAll, h₂]
    rfl
  | cons u us ih =>
    obtain ⟨b', hb, h₁⟩ := exists_ok_of_bind h₁
    rw [cons_append, takeAll, hb]
    exact ih h₁

lemma exists_of_takeAll_error {b : Builder} : ∀ {ts : List Token}, b.takeAll ts = .error d →
    ∃ before t behind b', ts = before ++ t :: behind ∧ b.takeAll before = .ok b' ∧ b'.take t = .error d
  | [], h => by cases h
  | t :: ts, h => by
    rw [takeAll] at h
    cases hb : b.take t with
    | error e =>
      rw [hb] at h
      cases h
      exact ⟨[], t, ts, b, rfl, rfl, hb⟩
    | ok b₁ =>
      rw [hb] at h
      obtain ⟨before, u, behind, b', rfl, hbefore, hu⟩ := exists_of_takeAll_error h
      exact ⟨t :: before, u, behind, b', rfl, by rw [takeAll, hb]; exact hbefore, hu⟩

lemma not_mem_truncated_of_takeAll {reason : String} : ∀ {ts : List Token} {b b' : Builder}, b.takeAll ts = .ok b' →
    Token.truncated reason ∉ ts
  | [], _, _, _ => not_mem_nil
  | t :: ts, b, b', h => by
    obtain ⟨b₁, hb, h⟩ := exists_ok_of_bind h
    intro hmem
    rcases mem_cons.1 hmem with rfl | hmem
    · cases hb
    · exact not_mem_truncated_of_takeAll h hmem

end Builder

/-- Where the open elements of a nest come from: each from a start tag, with balanced tokens behind it up to the next
one, and it stands where that start tag was found. -/
inductive Nested (source file : String) : List Token → List Layer → Prop
  | outermost {before : List Token} {done : List Tree} (hbefore : Balanced (brackets before)) :
    Nested source file before [⟨.document, {}, done⟩]
  | inside {before behind : List Token} {name : String} {attributes : List (String × String)} {done : List Tree}
    {outer : List Layer} {b : Builder} (houter : Nested source file before outer)
    (hb : (Builder.new source file).takeAll before = .ok b) (hopen : (Builder.elementOf name attributes).isVoid = false)
    (hbehind : Balanced (brackets behind)) :
    Nested source file (before ++ .startTag name attributes false :: behind)
      (⟨.element (Builder.elementOf name attributes), b.siteOf (.startTag name attributes false), done⟩ :: outer)

def Layer.tags (nest : List Layer) : List String := nest.filterMap (·.kind.tag?)

lemma Layer.tags_element (e : Element) (position : Position) (done : List Tree) (outer : List Layer) :
    tags (⟨.element e, position, done⟩ :: outer) = e.tag :: tags outer := rfl

namespace Nested

variable {source file : String} {before : List Token} {nest : List Layer}

lemma append {l : Layer} {outer : List Layer} {middle : List Token} (h : Nested source file before (l :: outer))
    (hmiddle : Balanced (brackets middle)) (done : List Tree) :
    Nested source file (before ++ middle) ({ l with done := done } :: outer) := by
  cases h with
  | outermost hbefore =>
    refine outermost ?_
    rw [brackets_append]
    exact hbefore.append hmiddle
  | inside houter hb hopen hbehind =>
    rw [append_assoc, cons_append]
    refine inside houter hb hopen ?_
    rw [brackets_append]
    exact hbehind.append hmiddle

lemma take {nest' : List Layer} (h : Nested source file before nest)
    (hb : (Builder.new source file).takeAll before = .ok b) (ht : Layer.take (b.siteOf t) t nest = some nest') :
    Nested source file (before ++ [t]) nest' := by
  have hleaf : ∀ {l : Layer} {outer : List Layer} (done : List Tree), t.bracket? = none →
      Nested source file before (l :: outer) → Nested source file (before ++ [t]) ({ l with done := done } :: outer) :=
    fun done hbracket h => h.append (by rw [brackets_leaf hbracket]; exact .nil) done
  unfold Layer.take at ht
  split at ht
  · cases ht
    split
    · exact hleaf _ (by rw [Token.bracket?, if_pos ‹_›]) h
    · rename_i hvoid
      rw [Bool.not_eq_true, Bool.or_eq_false_iff] at hvoid
      obtain ⟨hopen, rfl⟩ := hvoid
      exact inside h hb hopen .nil
  · split at ht
    · rename_i htag
      cases ht
      -- The start tag of the element and all behind it are balanced with its end tag.
      cases h with
      | inside houter hb₀ hopen hbehind =>
        cases htag
        rw [append_assoc]
        exact houter.append (balanced_element hopen hbehind) _
    · cases ht
  · cases ht
    exact hleaf _ rfl h
  · cases ht
    exact hleaf _ rfl h
  · cases ht
    exact hleaf _ rfl h
  · cases ht
    cases nest with
    | nil => cases h
    | cons l outer => exact hleaf l.done rfl h
  · cases ht

lemma settle_append (h : Nested source file before nest) (bs : List Bracket) :
    settle [] (brackets before ++ bs) = settle (Layer.tags nest) bs := by
  induction h generalizing bs with
  | outermost hbefore => exact hbefore.settle_append [] bs
  | @inside before behind name attributes done outer b _ _ hopen hbehind ih =>
    have hstart : Token.bracket? (.startTag name attributes false) = some (.opening (Text.lower name)) := by
      rw [Token.bracket?, hopen]
      rfl
    rw [brackets_append, append_assoc, ih, brackets, filterMap_cons_some hstart]
    exact hbehind.settle_append _ bs

lemma document_of_outer {l : Layer} {outer : List Layer} (h : Nested source file before (l :: outer))
    (houter : outer = []) : l.kind = .document := by
  cases h with
  | outermost _ => rfl
  | inside houter' _ _ _ =>
    subst houter
    cases houter'

end Nested

lemma exists_nested {source file : String} {kids : Nat → List Nat} {nest : List Layer} :
    ∀ {ts before : List Token} {b b' : Builder}, Nested source file before nest → Represents b kids nest →
      (Builder.new source file).takeAll before = .ok b → b.takeAll ts = .ok b' →
      ∃ nest' kids', Nested source file (before ++ ts) nest' ∧ Represents b' kids' nest'
  | [], before, b, b', hnested, hrep, _, h => by
    cases h
    rw [append_nil]
    exact ⟨nest, kids, hnested, hrep⟩
  | t :: ts, before, b, b', hnested, hrep, hb, h => by
    obtain ⟨b₁, hb₁, h⟩ := exists_ok_of_bind h
    obtain ⟨nest₁, kids₁, htake, hrep₁⟩ := hrep.take hb₁
    rw [← singleton_append, ← append_assoc]
    exact exists_nested (hnested.take hb htake) hrep₁ (Builder.takeAll_concat hb hb₁) h

lemma nested_of_takeAll {source file : String} {ts : List Token}
    (h : (Builder.new source file).takeAll ts = .ok b) :
    ∃ nest kids, Nested source file ts nest ∧ Represents b kids nest := by
  have hstart : Nested source file [] [⟨.document, {}, []⟩] := .outermost .nil
  exact exists_nested hstart (Represents.new source file) rfl h

/-! ## Faults -/

inductive Offence (source file : String) (ts : List Token) : Diagnostic → Prop
  | truncated {before behind : List Token} {reason : String} {b : Builder}
    (hts : ts = before ++ .truncated reason :: behind) (hb : (Builder.new source file).takeAll before = .ok b) :
    Offence source file ts (b.refuse (.truncated reason) b.here)
  | stray {before behind : List Token} {name : String} {b : Builder} (hts : ts = before ++ .endTag name :: behind)
    (hb : (Builder.new source file).takeAll before = .ok b) (hbefore : Balanced (brackets before)) :
    Offence source file ts (b.refuse (.endTag "none" name) (b.siteOf (.endTag name)))
  | mismatch {before inside behind : List Token} {start name : String} {attributes : List (String × String)} {b : Builder}
    (hts : ts = before ++ .startTag start attributes false :: inside ++ .endTag name :: behind)
    (hb : (Builder.new source file).takeAll (before ++ .startTag start attributes false :: inside) = .ok b)
    (hopen : (Builder.elementOf start attributes).isVoid = false) (hinside : Balanced (brackets inside))
    (hname : Text.lower start ≠ name) :
    Offence source file ts (b.refuse (.endTag (Text.lower start) name) (b.siteOf (.endTag name)))
  | unclosed {before behind : List Token} {start : String} {attributes : List (String × String)} {b b' : Builder}
    (hts : ts = before ++ .startTag start attributes false :: behind)
    (hb : (Builder.new source file).takeAll before = .ok b) (hb' : (Builder.new source file).takeAll ts = .ok b')
    (hopen : (Builder.elementOf start attributes).isVoid = false) (hbehind : Balanced (brackets behind)) :
    Offence source file ts
      (b'.refuse (.unclosed (Text.lower start)) (b.siteOf (.startTag start attributes false)))

variable {source file : String} {ts : List Token}

lemma offence_of_take {before behind : List Token}
    (hb : (Builder.new source file).takeAll before = .ok b) (ht : b.take t = .error d) :
    ¬ WellNested (before ++ t :: behind) ∧ Offence source file (before ++ t :: behind) d := by
  cases t with
  | truncated reason =>
    cases ht
    refine ⟨fun h => h.1 reason ?_, .truncated rfl hb⟩
    exact mem_append_right _ (.head _)
  | endTag name =>
    obtain ⟨nest, kids, hnested, hrep⟩ := nested_of_takeAll hb
    obtain ⟨inner, outer, rfl⟩ := hrep.exists_innermost
    rw [Builder.take_endTag, hrep.innermost_tag hnested.document_of_outer] at ht
    split at ht
    · cases ht
    · rename_i htag
      cases ht
      have hsettle := hnested.settle_append (.closing name :: brackets behind)
      refine ⟨fun h => ?_, ?_⟩
      · have hall := h.2.settle_eq []
        have hend : brackets (Token.endTag name :: behind) = .closing name :: brackets behind := rfl
        rw [brackets_append, hend, hsettle] at hall
        cases hnested with
        | outermost hbefore => cases hall
        | inside houter hb₀ hopen hbehind =>
          rw [Layer.tags_element, settle, if_neg (fun heq => htag (congrArg some heq))] at hall
          cases hall
      · cases hnested with
        | outermost hbefore => exact .stray rfl hb hbefore
        | inside houter hb₀ hopen hbehind =>
          exact .mismatch rfl hb hopen hbehind (fun heq => htag (congrArg some heq))
  | _ => cases ht

lemma offence_of_close (hb : (Builder.new source file).takeAll ts = .ok b)
    (hclose : b.close = .error d) : ¬ WellNested ts ∧ Offence source file ts d := by
  obtain ⟨nest, kids, hnested, hrep⟩ := nested_of_takeAll hb
  obtain ⟨inner, outer, rfl⟩ := hrep.exists_innermost
  rw [hrep.close_eq] at hclose
  split at hclose
  · cases hclose
  · have hsettle := hnested.settle_append []
    rw [append_nil] at hsettle
    cases hclose
    cases hnested with
    | outermost hbefore => contradiction
    | inside houter hb₀ hopen hbehind =>
      refine ⟨fun h => ?_, ?_⟩
      · have hall := h.2.settle_eq []
        rw [hsettle] at hall
        cases hall
      · exact .unclosed rfl hb₀ hb hopen hbehind

lemma wellNested_of_close {d : Document} (hb : (Builder.new source file).takeAll ts = .ok b)
    (hclose : b.close = .ok d) : WellNested ts := by
  obtain ⟨nest, kids, hnested, hrep⟩ := nested_of_takeAll hb
  obtain ⟨inner, outer, rfl⟩ := hrep.exists_innermost
  refine ⟨fun reason => Builder.not_mem_truncated_of_takeAll hb, ?_⟩
  rw [hrep.close_eq] at hclose
  split at hclose
  · rename_i houter
    subst houter
    cases hnested with
    | outermost hbefore => exact hbefore
    | inside houter _ _ _ => cases houter
  · cases hclose

lemma offence_of_error {e : Diagnostic} (h : Document.ofTokens source file ts = .error e) :
    ¬ WellNested ts ∧ Offence source file ts e := by
  rw [Document.ofTokens] at h
  cases hb : (Builder.new source file).takeAll ts with
  | error e' =>
    rw [hb] at h
    cases h
    obtain ⟨before, t, behind, b, rfl, hbefore, ht⟩ := Builder.exists_of_takeAll_error hb
    exact offence_of_take hbefore ht
  | ok b =>
    rw [hb] at h
    exact offence_of_close hb h

lemma exists_ofTokens (source file : String) (h : WellNested ts) : ∃ d, Document.ofTokens source file ts = .ok d := by
  cases hd : Document.ofTokens source file ts with
  | error e => exact absurd h (offence_of_error hd).1
  | ok d => exact ⟨d, rfl⟩

lemma toTree_of_ofTokens {d : Document} (h : Document.ofTokens source file ts = .ok d) :
    ∃ forest, d.toTree Document.root = .node .document {} forest ∧ (∀ t ∈ forest, t.Each Tree.Leafy) ∧
      Tree.eventsAll forest = Event.merge (ts.flatMap Token.events) := by
  obtain ⟨b, hb, hclose⟩ := Document.exists_of_ofTokens h
  obtain ⟨forest, htakes, htree⟩ := takes_of_close hb hclose
  exact ⟨forest, htree, htakes.leafy, htakes.events_eq⟩

/-- **Tokens are read into a document exactly if they are well nested.**  The tree of the document has the events of the
tokens in their order, where texts that follow each other are one node; otherwise the first fault is reported. -/
theorem ofTokens_iff_wellNested (source file : String) (ts : List Token) :
    match Document.ofTokens source file ts with
    | .ok d => WellNested ts ∧ ∃ forest, d.toTree Document.root = .node .document {} forest ∧
        (∀ t ∈ forest, t.Each Tree.Leafy) ∧ Tree.eventsAll forest = Event.merge (ts.flatMap Token.events)
    | .error e => ¬ WellNested ts ∧ Offence source file ts e := by
  split
  · rename_i d h
    obtain ⟨b, hb, hclose⟩ := Document.exists_of_ofTokens h
    exact ⟨wellNested_of_close hb hclose, toTree_of_ofTokens h⟩
  · rename_i e h
    exact offence_of_error h

end ReactiveTemplate.Markup
