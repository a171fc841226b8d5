import ReactiveTemplate.Proofs.Component.Steps
import ReactiveTemplate.Proofs.Reactive.Calls
import Mathlib.Data.List.DropRight
import Mathlib.Logic.Relation
/-!
# Changes — what binding a template does to a payload

Binding changes a payload in five ways only (`Payload.Change`).
-/
set_option linter.all false

namespace ReactiveTemplate
open List

variable {isEscaped : Bool} {p q : Payload} {number : Nat}

lemma Text.trim_trim (s : String) : Text.trim (Text.trim s) = Text.trim s := by
  have hchars : ∀ cs, Text.trimChars (Text.trimChars cs) = Text.trimChars cs := by
    intro cs
    have hdrop : (Text.trimChars cs).dropWhile Text.isBlank = Text.trimChars cs := by
      rw [dropWhile_eq_self_iff]
      intro hpos
      have hfront : Text.trimChars cs <+: cs.dropWhile Text.isBlank := rdropWhile_prefix Text.isBlank _
      have hlt := Nat.lt_of_lt_of_le hpos hfront.length_le
      have := dropWhile_get_zero_not Text.isBlank cs hlt
      rw [hfront.getElem hpos]
      exact this
    show (rdropWhile Text.isBlank ((Text.trimChars cs).dropWhile Text.isBlank)) = _
    rw [hdrop]
    exact rdropWhile_idempotent Text.isBlank _
  rw [Text.trim, Text.trim, String.toList_ofList, hchars]

/-! ## What expressions and watchers read -/

-- What the parser gives is never looked into here, and unfolding it on a variable text does not end soon.
attribute [local irreducible] Script.parseExpression?

def Summary.freeOf (source : String) : List String :=
  match ofSource source with
  | .ok summary => summary.free
  | .error _ => []

variable {source : String} {summary : Summary}

lemma Summary.source_of_ok (h : ofSource source = .ok summary) : summary.source = Text.trim source := by
  unfold ofSource at h
  simp only at h
  split at h
  · cases h
    rfl
  · cases h

lemma Summary.isSome_of_ok (h : ofSource source = .ok summary) :
    (Script.parseExpression? summary.source).isSome = true := by
  rw [source_of_ok h]
  unfold ofSource at h
  simp only at h
  split at h
  · rename_i n hn
    rw [hn]
    rfl
  · cases h

lemma Summary.freeOf_source (h : ofSource source = .ok summary) : freeOf summary.source = summary.free := by
  have htrim : ofSource (Text.trim source) = ofSource source := by
    have htwice := Text.trim_trim source
    unfold ofSource
    generalize Text.trim (Text.trim source) = twice at *
    subst htwice
    rfl
  rw [freeOf, source_of_ok h, htrim, h]

lemma Context.mem_readBy {c : Context} {s : Summary} {name : String} :
    name ∈ c.readBy s ↔ name ∈ c.declared ∧ name ∈ s.free := by
  rw [readBy, mem_filter, isDeclared, contains_iff_mem, and_comm]

namespace Watcher

structure Fits (p : Payload) (w : Watcher) : Prop where
  element : w.element < p.elements.size
  attr : ∀ number ∈ w.attribute?, number < p.attributes.size
  expressions : ∀ number ∈ w.expressions, number < p.expressions.size

end Watcher

namespace Payload

lemma expressionText_inj {isEscaped' : Bool} {source source' : String}
    (h : expressionText isEscaped source = expressionText isEscaped' source') : source = source' := by
  have hchars := congrArg String.toList h
  cases isEscaped <;> cases isEscaped' <;>
    simp [expressionText, String.toList_append] at hchars
  · exact String.toList_injective hchars
  · exact String.toList_injective hchars

def Reads (p : Payload) (number : Nat) (name : String) : Prop :=
  ∃ isEscaped source, p.expressions.get? number = some (expressionText isEscaped source) ∧ name ∈ Summary.freeOf source

/-- A watcher depends on a name: one of its expressions reads it, and it is a name of the context. -/
def Needs (context : Context) (p : Payload) (w : Watcher) (name : String) : Prop :=
  name ∈ context.declared ∧ ∃ number ∈ w.expressions, p.Reads number name

/-- **What binding can do to a payload.** -/
inductive Change (context : Context) (p : Payload) : Payload → Prop
  | element (handle : String) : Change context p { p with elements := (p.elements.insert handle).2 }
  | attr (name : String) : Change context p { p with attributes := (p.attributes.insert name).2 }
  | expression (isEscaped : Bool) {source : String} (hsource : (Script.parseExpression? source).isSome = true) :
    Change context p { p with expressions := (p.expressions.insert (expressionText isEscaped source)).2 }
  | watch {watcher : Watcher} {names : List String} (hfits : watcher.Fits p)
    (hnames : ∀ name, name ∈ names ↔ Needs context p watcher name) :
    Change context p (p.watched watcher names)
  | event {value handler : String} {vars : IndexedSet String} (name : String) {element : Nat}
    (helement : element < p.elements.size) (hhandler : Handler.ofValue context p.vars value = .ok (handler, vars)) :
    Change context p (p.handled name element handler vars)

def Changes (context : Context) : Payload → Payload → Prop := Relation.ReflTransGen (Change context)

/-! ## Payloads only grow -/

/-- A payload with the same entries under the same numbers, and maybe more of them. -/
structure Extends (p q : Payload) : Prop where
  elements : p.elements.Extends q.elements
  attributes : p.attributes.Extends q.attributes
  expressions : p.expressions.Extends q.expressions
  watchers : p.watchers.Extends q.watchers
  eventNames : p.eventNames.Extends q.eventNames
  handlers : p.handlers.Extends q.handlers
  vars : p.vars.Extends q.vars
  references : q.references = p.references
  body : q.body = p.body

lemma Extends.refl (p : Payload) : p.Extends p :=
  ⟨.refl _, .refl _, .refl _, .refl _, .refl _, .refl _, .refl _, rfl, rfl⟩

lemma Extends.trans {r : Payload} (h : p.Extends q) (h' : q.Extends r) : p.Extends r :=
  ⟨h.elements.trans h'.elements, h.attributes.trans h'.attributes, h.expressions.trans h'.expressions,
    h.watchers.trans h'.watchers, h.eventNames.trans h'.eventNames, h.handlers.trans h'.handlers, h.vars.trans h'.vars,
    h'.references.trans h.references, h'.body.trans h.body⟩

lemma foldl_link (watcher : Nat) (names : List String) : ∀ p : Payload,
    names.foldl (fun q name => (q.link name watcher).2) p =
      { p with
        vars := p.vars.insertAll names
        dependents := (names.foldl (fun q name => (q.link name watcher).2) p).dependents } := by
  induction names with
  | nil => exact fun p => rfl
  | cons name names ih =>
    intro p
    rw [foldl_cons, ih]
    rfl

lemma extends_watched (p : Payload) (watcher : Watcher) (names : List String) : p.Extends (p.watched watcher names) := by
  rw [watched, foldl_link]
  exact { Extends.refl p with
    watchers := p.watchers.extends_insert _
    vars := IndexedSet.extends_insertAll _ p.vars }

lemma extends_handled {vars : IndexedSet String} (hvars : p.vars.Extends vars) (name : String)
    (element : Nat) (handler : String) : p.Extends (p.handled name element handler vars) :=
  { Extends.refl p with
    eventNames := p.eventNames.extends_insert name
    handlers := p.handlers.extends_insert _
    vars := hvars }

lemma Change.extends {context : Context} (h : Change context p q) : p.Extends q := by
  cases h with
  | element handle => exact { Extends.refl p with elements := p.elements.extends_insert handle }
  | attr name => exact { Extends.refl p with attributes := p.attributes.extends_insert name }
  | expression isEscaped hsource => exact { Extends.refl p with expressions := p.expressions.extends_insert _ }
  | watch hfits hnames => exact p.extends_watched _ _
  | event name helement hhandler => exact extends_handled (Handler.numbered_of_ofValue hhandler).1 _ _ _

lemma Changes.extends {context : Context} (h : Changes context p q) : p.Extends q := by
  induction h with
  | refl => exact .refl p
  | tail _ hstep ih => exact ih.trans hstep.extends

lemma Extends.reads_iff (h : p.Extends q) (hnumber : number < p.expressions.size)
    (name : String) : q.Reads number name ↔ p.Reads number name := by
  unfold Reads
  rw [h.expressions.get?_eq hnumber]

lemma Extends.fits (h : p.Extends q) {w : Watcher} (hfits : w.Fits p) : w.Fits q :=
  ⟨h.elements.lt_size hfits.element, fun number hn => h.attributes.lt_size (hfits.attr number hn),
    fun number hn => h.expressions.lt_size (hfits.expressions number hn)⟩

lemma reads_iff_of_get? {source name : String}
    (h : p.expressions.get? number = some (expressionText isEscaped source)) :
    p.Reads number name ↔ name ∈ Summary.freeOf source := by
  constructor
  · rintro ⟨isEscaped', source', h', hname⟩
    rw [expressionText_inj (Option.some.inj (h.symm.trans h'))]
    exact hname
  · exact fun hname => ⟨isEscaped, source, h, hname⟩

end Payload

/-! ## Steps of binding -/

namespace Component
namespace Binding

open Markup (Tree Element Attribute)
open Payload (Change Changes)

/-- **What a step of binding does to a binder**: it changes the payload and leaves the dependencies. -/
structure Moves (context : Context) (b b' : Binder) : Prop where
  changes : Changes context b.payload b'.payload
  dependencies : b'.dependencies = b.dependencies

variable {site : Site} {context : Context} {b b₁ b' : Binder}

namespace Moves

lemma refl (context : Context) (b : Binder) : Moves context b b := ⟨.refl, rfl⟩

lemma trans (h : Moves context b b₁) (h' : Moves context b₁ b') : Moves context b b' :=
  ⟨h.changes.trans h'.changes, h'.dependencies.trans h.dependencies⟩

lemma change (h : Change context b.payload p) : Moves context b { b with payload := p } :=
  ⟨.single h, rfl⟩

lemma draw (context : Context) (b : Binder) (sequence : Sequence) : Moves context b { b with sequence } := ⟨.refl, rfl⟩

lemma grows (h : Moves context b b') : b.payload.Extends b'.payload := h.changes.extends

end Moves

lemma moves_expression {source : String} {bound : Bound}
    (h : Gives (expression site source isEscaped) b bound b') :
    Moves site.context b b' ∧ bound.number < b'.payload.expressions.size ∧
      ∀ name, name ∈ bound.vars ↔ name ∈ site.context.declared ∧ b'.payload.Reads bound.number name := by
  obtain ⟨summary, text, hsummary, rfl, rfl, rfl⟩ := gives_expression h
  have hget := b.payload.expressions.get?_insert (Payload.expressionText isEscaped summary.source)
  refine ⟨.change (.expression isEscaped (Summary.isSome_of_ok hsummary)), IndexedSet.lt_size_of_get? hget, fun name => ?_⟩
  rw [Context.mem_readBy, Payload.reads_iff_of_get? hget, Summary.freeOf_source hsummary]

lemma moves_expresses {numbers : List Nat} {names : List String} (h : Expresses site b numbers names b') :
    Moves site.context b b' ∧ (∀ number ∈ numbers, number < b'.payload.expressions.size) ∧
      ∀ name, name ∈ names ↔ name ∈ site.context.declared ∧ ∃ number ∈ numbers, b'.payload.Reads number name := by
  induction h with
  | nil => exact ⟨.refl _ _, by simp, by simp⟩
  | cons h _ ih =>
    obtain ⟨hfirst, hnumber, hvars⟩ := moves_expression h
    obtain ⟨hrest, hnumbers, hnames⟩ := ih
    refine ⟨hfirst.trans hrest, forall_mem_cons.2 ⟨hrest.grows.expressions.lt_size hnumber, hnumbers⟩, fun name => ?_⟩
    have hreads := hrest.grows.reads_iff hnumber name
    rw [mem_append, hvars name, hnames name, ← hreads, ← and_or_left]
    simp only [mem_cons, exists_eq_or_imp]

lemma moves_embeds {pieces : List Piece} (h : Embeds site pieces b b') : Moves site.context b b' := by
  induction h with
  | nil => exact .refl _ _
  | literal _ ih => exact ih
  | @expression found pieces b b₁ b' bound h _ ih =>
    obtain ⟨hsecond, hnumber, hvars⟩ := moves_expression h
    have hfits : (Watcher.text (b.payload.elements.insert found.placeholder).1 bound.number).Fits b₁.payload :=
      ⟨hsecond.grows.elements.lt_size (b.payload.elements.fst_insert_lt _), by simp [Watcher.attribute?],
        by simpa [Watcher.expressions] using hnumber⟩
    refine ((Moves.change (.element _)).trans hsecond).trans ((Moves.change (.watch hfits (fun name => ?_))).trans ih)
    simp only [hvars name, Payload.Needs, Watcher.expressions, mem_singleton, exists_eq_left]

variable {position : Position} {t t' : Target} {isComponent : Bool} {a : Attribute}

lemma moves_text {s : String} {ts : List Tree} (h : Gives (text site position s) b ts b') :
    Moves site.context b b' :=
  (Moves.draw _ b _).trans (moves_embeds (gives_text h).2)

def Held (p : Payload) (t : Target) : Prop :=
  ∀ number handle, t.handle = some (number, handle) → p.elements.get? number = some handle

lemma Held.mono (h : Held p t) (hgrows : p.Extends q) : Held q t :=
  fun number handle hfound => hgrows.elements.get? (h number handle hfound)

lemma moves_numbered (context : Context) (h : Gives (numbered t) b (number, t') b')
    (ht : Held b.payload t) :
    Moves context b b' ∧ number < b'.payload.elements.size ∧ Held b'.payload t' := by
  obtain ⟨handle, hhandle, rfl, rfl⟩ | ⟨handle, -, -, rfl, rfl, rfl⟩ := gives_numbered h
  · exact ⟨.refl _ _, IndexedSet.lt_size_of_get? (ht number handle hhandle), ht⟩
  · refine ⟨(Moves.draw context b _).trans (.change (.element handle)), b.payload.elements.fst_insert_lt handle, ?_⟩
    rintro number handle hfound
    cases hfound
    exact b.payload.elements.get?_insert _

lemma moves_attributeValue (h : Gives (attributeValue site isComponent t a) b t' b') (ht : Held b.payload t) :
    Moves site.context b b' ∧ Held b'.payload t' := by
  obtain ⟨number, b₁, b₂, watcher, names, hnumbered, rfl, hattribute, hexpresses, rfl⟩ := gives_attributeValue h
  obtain ⟨hfirst, hnumber, ht'⟩ := moves_numbered site.context hnumbered ht
  obtain ⟨hvalues, hnumbers, hnames⟩ := moves_expresses hexpresses
  have hgrows := hvalues.grows
  have hsecond : Moves site.context b₁ b₂ :=
    ((Moves.draw _ b₁ _).trans (.change (.attr a.name))).trans hvalues
  have hfits : watcher.Fits b₂.payload := by
    refine ⟨hsecond.grows.elements.lt_size hnumber, fun attr hattr => ?_, hnumbers⟩
    cases hattribute.symm.trans hattr
    exact hgrows.attributes.lt_size (b₁.payload.attributes.fst_insert_lt a.name)
  have hthird : Moves site.context b₂ { b₂ with payload := b₂.payload.watched watcher names } := .change (.watch hfits hnames)
  exact ⟨(hfirst.trans hsecond).trans hthird, ht'.mono (hsecond.trans hthird).grows⟩

lemma moves_event (h : Gives (event site t a) b t' b') (ht : Held b.payload t) :
    Moves site.context b b' ∧ Held b'.payload t' := by
  obtain ⟨number, b₁, handler, vars, hnumbered, hhandler, rfl⟩ := gives_event h
  obtain ⟨hfirst, hnumber, ht'⟩ := moves_numbered site.context hnumbered ht
  have hsecond := Moves.change (.event (String.ofList (a.name.toList.drop 2)) hnumber hhandler)
  exact ⟨hfirst.trans hsecond, ht'.mono hsecond.grows⟩

lemma moves_attr (h : Gives (attr site position isComponent t a) b t' b') (ht : Held b.payload t) :
    Moves site.context b b' ∧ Held b'.payload t' := by
  obtain ⟨-, -, rfl, rfl⟩ | ⟨t₁, rfl, ⟨-, h⟩ | ⟨-, -, h⟩⟩ := gives_attr h
  · exact ⟨.refl _ _, ht⟩
  · obtain ⟨hmoves, ht₁⟩ := moves_event h ht
    exact ⟨hmoves, ht₁⟩
  · obtain ⟨hmoves, ht₁⟩ := moves_attributeValue h ht
    exact ⟨hmoves, ht₁⟩

lemma moves_attrs {attributes : List Attribute}
    (h : Gives (attributes.foldlM (attr site position isComponent) t) b t' b') (ht : Held b.payload t) :
    Moves site.context b b' ∧ Held b'.payload t' := by
  induction attributes generalizing b t with
  | nil =>
    obtain ⟨rfl, rfl⟩ := gives_pure.1 h
    exact ⟨.refl _ _, ht⟩
  | cons a attributes ih =>
    rw [foldlM_cons] at h
    obtain ⟨t₁, b₁, h1, h2⟩ := gives_bind.1 h
    obtain ⟨hfirst, ht₁⟩ := moves_attr h1 ht
    obtain ⟨hrest, ht'⟩ := ih h2 ht₁
    exact ⟨hfirst.trans hrest, ht'⟩

lemma moves_referenced (context : Context) {e : Element} (h : Gives (referenced e) b t b') :
    Moves context b b' ∧ Held b'.payload t := by
  obtain ⟨-, rfl, rfl⟩ | ⟨value, handle, -, -, rfl, rfl⟩ := gives_referenced h
  · exact ⟨.refl _ _, fun number handle hfound => nomatch hfound⟩
  · refine ⟨.change (.element handle), ?_⟩
    rintro number handle hfound
    cases hfound
    exact b.payload.elements.get?_insert _

lemma changes_element {e bound : Element} (h : Gives (element site position e) b bound b') :
    Changes site.context b.payload b'.payload ∧
      b'.dependencies = (b.dependencies ++ (site.assetOf e.tag).toList).eraseDups := by
  obtain ⟨t, b₁, t', href, hattrs, -⟩ := gives_element h
  obtain ⟨hfirst, ht⟩ := moves_referenced site.context href
  obtain ⟨hrest, -⟩ := moves_attrs hattrs ht
  refine ⟨hfirst.changes.trans hrest.changes, ?_⟩
  rw [hrest.dependencies, hfirst.dependencies]

lemma Passes.changes {isVerbatim : Bool} {ts us : List Tree} (h : Passes site isVerbatim ts us b b') :
    Changes site.context b.payload b'.payload := by
  induction h with
  | nil => exact .refl
  | element helement _ _ ihbelow ihrest => exact (changes_element helement).1.trans (ihbelow.trans ihrest)
  | text _ htext _ ihrest => exact (moves_text htext).changes.trans ihrest
  | other _ _ _ ihrest => exact ihrest

end Binding
end Component
end ReactiveTemplate
