import ReactiveTemplate.Proofs.Component.Spots
/-!
# Handles — the entries of a payload and the elements of the page

The page finds the element of a number by the class that stands under it.
-/
set_option linter.all false

namespace ReactiveTemplate
open List

open Markup (Tree Element Attribute)

variable {number : Nat} {isComponent : Bool}

/-! ## What is entered -/

namespace Payload

variable {p q r : Payload} {handles handles' : List String} {W W' : Watcher → Prop} {E E' : EventBinding → Prop}

/-- A payload in which some classes have been entered, and watchers and events of some kinds. -/
structure Enters (p q : Payload) (handles : List String) (W : Watcher → Prop) (E : EventBinding → Prop) : Prop where
  elements : q.elements = p.elements.insertAll handles
  grows : p.Extends q
  watchers : ∀ w ∈ q.watchers.items, w ∈ p.watchers.items ∨ W w
  events : ∀ event ∈ q.events.items, event ∈ p.events.items ∨ E event

namespace Enters

lemma refl (p : Payload) (W : Watcher → Prop) (E : EventBinding → Prop) : Enters p p [] W E :=
  ⟨rfl, .refl p, fun _ hw => Or.inl hw, fun _ he => Or.inl he⟩

lemma mono (h : Enters p q handles W E) (hW : ∀ w, W w → W' w) (hE : ∀ event, E event → E' event) :
    Enters p q handles W' E' :=
  ⟨h.elements, h.grows, fun w hw => (h.watchers w hw).imp_right (hW w), fun e he => (h.events e he).imp_right (hE e)⟩

lemma trans (h : Enters p q handles W E) (h' : Enters q r handles' W E) : Enters p r (handles ++ handles') W E where
  elements := by rw [h'.elements, h.elements, IndexedSet.insertAll, IndexedSet.insertAll, ← foldl_append]; rfl
  grows := h.grows.trans h'.grows
  watchers w hw := (h'.watchers w hw).elim (h.watchers w) Or.inr
  events e he := (h'.events e he).elim (h.events e) Or.inr

lemma element (p : Payload) (handle : String) (W : Watcher → Prop) (E : EventBinding → Prop) :
    Enters p { p with elements := (p.elements.insert handle).2 } [handle] W E :=
  { Enters.refl p W E with
    elements := rfl
    grows := { Extends.refl p with elements := p.elements.extends_insert handle } }

lemma attr (p : Payload) (name : String) (W : Watcher → Prop) (E : EventBinding → Prop) :
    Enters p { p with attributes := (p.attributes.insert name).2 } [] W E :=
  { Enters.refl p W E with grows := { Extends.refl p with attributes := p.attributes.extends_insert name } }

lemma expression (p : Payload) (text : String) (W : Watcher → Prop) (E : EventBinding → Prop) :
    Enters p { p with expressions := (p.expressions.insert text).2 } [] W E :=
  { Enters.refl p W E with grows := { Extends.refl p with expressions := p.expressions.extends_insert text } }

lemma watched (p : Payload) {watcher : Watcher} (names : List String) (hW : W watcher) (E : EventBinding → Prop) :
    Enters p (p.watched watcher names) [] W E := by
  refine ⟨?_, p.extends_watched watcher names, ?_, ?_⟩
  · rw [Payload.watched, foldl_link]
    rfl
  · rw [Payload.watched, foldl_link]
    exact fun w hw => (IndexedSet.mem_insert.1 hw).imp_right (fun heq : w = watcher => heq ▸ hW)
  · rw [Payload.watched, foldl_link]
    exact fun e he => Or.inl he

lemma handled {vars : IndexedSet String} (hvars : p.vars.Extends vars) {name handler : String}
    (W : Watcher → Prop) (hE : E ⟨(p.eventNames.insert name).1, number, (p.handlers.insert handler).1⟩) :
    Enters p (p.handled name number handler vars) [] W E :=
  { Enters.refl p W E with
    grows := extends_handled hvars name number handler
    events := fun event he => (IndexedSet.mem_insert.1 he).imp_right (fun heq => by rw [heq]; exact hE) }

end Enters
end Payload

namespace Component

/-! ## What is entered for a spot -/

namespace Spot

def HasNumber (p : Payload) (spot : Spot) (number : Nat) : Prop :=
  ∃ handle, spot.handle = some handle ∧ p.elements.get? number = some handle

/-- A watcher is one of a spot: of an interpolation it watches the expression, and of an element an attribute with
interpolations. -/
def Watches (p : Payload) (spot : Spot) (w : Watcher) : Prop :=
  spot.HasNumber p w.element ∧
    match spot.origin, w with
    | .piece _ _ found, .text _ number =>
      p.expressions.get? number = some (Payload.expressionText found.isSafe (Text.trim found.expression))
    | .carrier e, .property _ number _ | .carrier e, .template _ number _ =>
      ∃ a ∈ e.attributes, isEvent a.name = false ∧ Interpolation.hasMarkers a.value = true ∧
        p.attributes.get? number = some a.name
    | _, _ => False

def Fires (p : Payload) (spot : Spot) (event : EventBinding) : Prop :=
  spot.HasNumber p event.element ∧ ∃ e, spot.origin = .carrier e ∧ ∃ a ∈ e.attributes, isEvent a.name = true ∧
    p.eventNames.get? event.event = some (String.ofList (a.name.toList.drop 2))

def name? (spot : Spot) : Option String := spot.carrier?.bind referenceName?

variable {p q : Payload} {spot : Spot}

lemma HasNumber.mono (h : spot.HasNumber p number) (hgrows : p.Extends q) : spot.HasNumber q number := by
  obtain ⟨handle, hhandle, hget⟩ := h
  exact ⟨handle, hhandle, hgrows.elements.get? hget⟩

lemma Watches.mono {w : Watcher} (h : spot.Watches p w) (hgrows : p.Extends q) : spot.Watches q w := by
  obtain ⟨origin, element, handle⟩ := spot
  refine ⟨h.1.mono hgrows, ?_⟩
  have hentry := h.2
  cases origin with
  | piece text sequence found =>
    cases w with
    | text _ number => exact hgrows.expressions.get? hentry
    | property _ _ _ => exact hentry.elim
    | template _ _ _ => exact hentry.elim
  | carrier e =>
    cases w with
    | text _ _ => exact hentry.elim
    | property _ number _ | template _ number _ =>
      obtain ⟨a, ha, hevent, hmarkers, hget⟩ := hentry
      exact ⟨a, ha, hevent, hmarkers, hgrows.attributes.get? hget⟩

lemma Fires.mono {event : EventBinding} (h : spot.Fires p event) (hgrows : p.Extends q) : spot.Fires q event := by
  obtain ⟨hnumber, e, horigin, a, ha, hevent, hget⟩ := h
  exact ⟨hnumber.mono hgrows, e, horigin, a, ha, hevent, hgrows.eventNames.get? hget⟩

end Spot

def Accounts (p q : Payload) (spots : List Spot) : Prop :=
  p.Enters q (spots.filterMap (·.handle)) (fun w => ∃ spot ∈ spots, spot.Watches q w)
    (fun event => ∃ spot ∈ spots, spot.Fires q event)

namespace Accounts

variable {p q r : Payload} {spots spots' : List Spot}

lemma refl (p : Payload) : Accounts p p [] := Payload.Enters.refl p _ _

lemma trans (h : Accounts p q spots) (h' : Accounts q r spots') : Accounts p r (spots ++ spots') := by
  unfold Accounts
  rw [filterMap_append]
  refine (Payload.Enters.mono h ?_ ?_).trans (Payload.Enters.mono h' ?_ ?_)
  · rintro w ⟨spot, hspot, hw⟩
    exact ⟨spot, mem_append_left _ hspot, hw.mono h'.grows⟩
  · rintro event ⟨spot, hspot, he⟩
    exact ⟨spot, mem_append_left _ hspot, he.mono h'.grows⟩
  · rintro w ⟨spot, hspot, hw⟩
    exact ⟨spot, mem_append_right _ hspot, hw⟩
  · rintro event ⟨spot, hspot, he⟩
    exact ⟨spot, mem_append_right _ hspot, he⟩

end Accounts

/-- The classes of some spots are drawn from a sequence, in order, or made from the names of references. -/
structure Named (s s' : Sequence) (spots : List Spot) : Prop where
  drawn : ∃ ids, s.Draws s' ids ∧ spots.filterMap (·.handle) = ids.map (Identifier.handle s.salt) ∧
    ids.filterMap Identifier.name? = spots.filterMap Spot.name?
  references : ∀ spot ∈ spots, ∀ name, spot.name? = some name → spot.handle = some (s.referenceHandle name)

namespace Named

variable {s s' s'' : Sequence} {spots spots' : List Spot}

lemma refl (s : Sequence) : Named s s [] := ⟨⟨[], .refl s, rfl, rfl⟩, fun _ hspot => nomatch hspot⟩

lemma trans (h : Named s s' spots) (h' : Named s' s'' spots') : Named s s'' (spots ++ spots') := by
  obtain ⟨ids, hdraws, hhandles, hnames⟩ := h.drawn
  obtain ⟨ids', hdraws', hhandles', hnames'⟩ := h'.drawn
  refine ⟨⟨ids ++ ids', hdraws.trans hdraws', ?_, ?_⟩, ?_⟩
  · rw [filterMap_append, map_append, hhandles, hhandles', hdraws.salt]
  · rw [filterMap_append, filterMap_append, hnames, hnames']
  · intro spot hspot name hname
    rcases mem_append.1 hspot with hspot | hspot
    · exact h.references spot hspot name hname
    · have := h'.references spot hspot name hname
      rwa [Sequence.referenceHandle, hdraws.salt] at this

end Named

namespace Binding

variable {site : Site} {b b' : Binder}

/-! ## Texts -/

lemma enters_expression {source : String} {isEscaped : Bool} {bound : Bound}
    (h : Gives (expression site source isEscaped) b bound b') :
    b'.sequence = b.sequence ∧ (∀ W E, b.payload.Enters b'.payload [] W E) ∧
      b'.payload.expressions.get? bound.number = some (Payload.expressionText isEscaped (Text.trim source)) := by
  obtain ⟨summary, text, hsummary, rfl, rfl, rfl⟩ := gives_expression h
  rw [← Summary.source_of_ok hsummary]
  exact ⟨rfl, .expression b.payload _, b.payload.expressions.get?_insert _⟩

lemma accounts_embeds (text : String) (sequence : Sequence) {pieces : List Piece} (h : Embeds site pieces b b') :
    b'.sequence = b.sequence ∧ Accounts b.payload b'.payload (pieces.filterMap (Spot.ofPiece text sequence)) := by
  induction h with
  | nil => exact ⟨rfl, .refl _⟩
  | literal _ ih => exact ih
  | @expression found pieces b b₁ b' bound h _ ih =>
    obtain ⟨hsequence, henters, hexpression⟩ := enters_expression h
    have hget := (henters (fun _ => True) (fun _ => True)).grows.elements.get?
      (b.payload.elements.get?_insert found.placeholder)
    have hgrows := b₁.payload.extends_watched
      (.text (b.payload.elements.insert found.placeholder).1 bound.number) bound.vars
    have hfirst : Accounts b.payload (b₁.payload.watched
        (.text (b.payload.elements.insert found.placeholder).1 bound.number) bound.vars)
        (Spot.ofPiece text sequence (.expression found)).toList := by
      refine ((Payload.Enters.element _ _ _ _).trans (henters _ _)).trans (.watched _ _ ?_ _)
      exact ⟨_, mem_cons_self, ⟨found.placeholder, rfl, hgrows.elements.get? hget⟩,
        hgrows.expressions.get? hexpression⟩
    exact ⟨ih.1.trans hsequence, hfirst.trans ih.2⟩

variable {position : Position} {t t' : Target} {a : Attribute} {e : Element}

lemma accounts_text {s : String} {ts : List Tree} (h : Gives (text site position s) b ts b') :
    Named b.sequence b'.sequence ((scan s b.sequence).1.parts.filterMap (Spot.ofPiece s b.sequence)) ∧
      Accounts b.payload b'.payload ((scan s b.sequence).1.parts.filterMap (Spot.ofPiece s b.sequence)) := by
  obtain ⟨hsequence, haccounts⟩ := accounts_embeds s b.sequence (gives_text h).2
  obtain ⟨ids, hdraws, hnames, hhandles⟩ := draws_scan s b.sequence
  have hnone : ∀ pieces : List Piece, (pieces.filterMap (Spot.ofPiece s b.sequence)).filterMap Spot.name? = [] := by
    intro pieces
    rw [filterMap_filterMap]
    refine filterMap_eq_nil_iff.2 (fun piece _ => ?_)
    cases piece <;> rfl
  refine ⟨⟨⟨ids, ?_, ?_, ?_⟩, ?_⟩, haccounts⟩
  · rw [hsequence]
    exact hdraws
  · rw [← hhandles, filterMap_filterMap]
    refine filterMap_congr (fun piece _ => ?_)
    cases piece <;> rfl
  · rw [hnames, hnone]
  · intro spot hspot name hname
    exact absurd (filterMap_eq_nil_iff.1 (hnone _) spot hspot) (by simp [hname])

/-! ## Elements -/

-- The names of references are never looked into.
attribute [local irreducible] lowerCamel

inductive Takes (salt : String) (t t' : Target) : List Identifier → Prop
  | same (h : t'.handle = t.handle) : Takes salt t t' []
  | drawn {number n : Nat} (h : t.handle = none)
      (h' : t'.handle = some (number, (Identifier.element n).handle salt)) : Takes salt t t' [.element n]

/-- A target on its way: its class is drawn once, and what is entered is the class, watchers and events. -/
structure Advances (b b' : Binder) (t t' : Target) (ids : List Identifier) (W : Watcher → Prop)
    (E : EventBinding → Prop) : Prop where
  takes : Takes b.sequence.salt t t' ids
  draws : b.sequence.Draws b'.sequence ids
  enters : b.payload.Enters b'.payload (ids.map (Identifier.handle b.sequence.salt)) W E

lemma Takes.handle_eq {salt : String} {ids : List Identifier} (h : Takes salt t t' ids)
    {found : Nat × String} (hfound : t.handle = some found) : t'.handle = some found := by
  cases h with
  | same h => rw [h, hfound]
  | drawn hnone _ => rw [hnone] at hfound; cases hfound

lemma Takes.trans {salt : String} {t t₁ t' : Target} {ids ids' : List Identifier} (h : Takes salt t t₁ ids)
    (h' : Takes salt t₁ t' ids') : Takes salt t t' (ids ++ ids') := by
  cases h with
  | same h =>
    cases h' with
    | same h' => exact .same (h'.trans h)
    | drawn hnone hsome => exact .drawn (h ▸ hnone) hsome
  | drawn hnone hsome =>
    cases h' with
    | same h' => exact .drawn hnone (h'.trans hsome)
    | drawn hnone' _ => rw [hsome] at hnone'; cases hnone'

namespace Advances

variable {b₁ : Binder} {t t₁ t' : Target} {ids ids' : List Identifier} {W W' : Watcher → Prop}
  {E E' : EventBinding → Prop}

lemma mono (h : Advances b b' t t' ids W E) (hW : ∀ w, W w → W' w) (hE : ∀ event, E event → E' event) :
    Advances b b' t t' ids W' E' :=
  { h with enters := h.enters.mono hW hE }

lemma trans (h : Advances b b₁ t t₁ ids W E) (h' : Advances b₁ b' t₁ t' ids' W E) :
    Advances b b' t t' (ids ++ ids') W E := by
  have hsalt := h.draws.salt
  have htakes := h'.takes
  have henters := h'.enters
  rw [hsalt] at htakes henters
  refine ⟨h.takes.trans htakes, h.draws.trans h'.draws, ?_⟩
  rw [map_append]
  exact h.enters.trans henters

lemma enter (hhandle : t'.handle = t.handle) (hdraws : b.sequence.Draws b'.sequence [])
    (henters : b.payload.Enters b'.payload [] W E) : Advances b b' t t' [] W E :=
  ⟨.same hhandle, hdraws, henters⟩

end Advances

lemma advances_numbered (h : Gives (numbered t) b (number, t') b') (W : Watcher → Prop)
    (E : EventBinding → Prop) :
    (∃ ids, Advances b b' t t' ids W E) ∧ ∃ handle, t'.handle = some (number, handle) := by
  obtain ⟨handle, hhandle, rfl, rfl⟩ | ⟨handle, hhandle, rfl, rfl, rfl, rfl⟩ := gives_numbered h
  · exact ⟨⟨[], .enter rfl (.refl _) (.refl _ W E)⟩, handle, hhandle⟩
  · exact ⟨⟨[.element b.sequence.counter], .drawn hhandle rfl, .elementHandle b.sequence, .element _ _ W E⟩, _, rfl⟩

def WatchesValue (p : Payload) (t : Target) (a : Attribute) (w : Watcher) : Prop :=
  (∃ handle, t.handle = some (w.element, handle)) ∧ ∃ number, w.attribute? = some number ∧
    p.attributes.get? number = some a.name

def FiresEvent (p : Payload) (t : Target) (a : Attribute) (event : EventBinding) : Prop :=
  (∃ handle, t.handle = some (event.element, handle)) ∧
    p.eventNames.get? event.event = some (String.ofList (a.name.toList.drop 2))

lemma enters_expresses {numbers : List Nat} {names : List String} (h : Expresses site b numbers names b') :
    b'.sequence = b.sequence ∧ ∀ W E, b.payload.Enters b'.payload [] W E := by
  induction h with
  | nil => exact ⟨rfl, .refl _⟩
  | cons h _ ih =>
    obtain ⟨hsequence, henters, -⟩ := enters_expression h
    exact ⟨ih.1.trans hsequence, fun W E => (henters W E).trans (ih.2 W E)⟩

lemma advances_attributeValue
    (h : Gives (attributeValue site isComponent t a) b t' b') (E : EventBinding → Prop) :
    ∃ ids, Advances b b' t t' ids (WatchesValue b'.payload t' a) E := by
  obtain ⟨number, b₁, b₂, watcher, names, hnumbered, rfl, hattribute, hexpresses, rfl⟩ := gives_attributeValue h
  obtain ⟨hsequence, henters⟩ := enters_expresses hexpresses
  have hgrows := b₂.payload.extends_watched watcher names
  obtain ⟨⟨ids, hadvances⟩, handle, hhandle⟩ :=
    advances_numbered hnumbered (WatchesValue (b₂.payload.watched watcher names) t' a) E
  have hwatcher : WatchesValue (b₂.payload.watched watcher names) t' a watcher :=
    ⟨⟨handle, hhandle⟩, _, hattribute, hgrows.attributes.get?
      ((henters (fun _ => True) (fun _ => True)).grows.attributes.get? (b₁.payload.attributes.get?_insert a.name))⟩
  have hall := ((Payload.Enters.attr b₁.payload a.name _ E).trans (henters _ E)).trans (.watched _ names hwatcher E)
  refine ⟨ids ++ [], hadvances.trans (.enter rfl ?_ hall)⟩
  simp only [hsequence]
  exact ⟨salt_scan a.value b₁.sequence, counter_scan a.value b₁.sequence, nil_sublist _⟩

lemma advances_event (h : Gives (event site t a) b t' b') (W : Watcher → Prop) :
    ∃ ids, Advances b b' t t' ids W (FiresEvent b'.payload t' a) := by
  obtain ⟨number, b₁, handler, vars, hnumbered, hhandler, rfl⟩ := gives_event h
  obtain ⟨⟨ids, hadvances⟩, handle, hhandle⟩ := advances_numbered hnumbered W
    (FiresEvent (b₁.payload.handled (String.ofList (a.name.toList.drop 2)) number handler vars) t' a)
  have hvars := (Handler.numbered_of_ofValue hhandler).1
  refine ⟨ids ++ [], hadvances.trans (.enter rfl (.refl _) (.handled hvars W ⟨⟨handle, hhandle⟩, ?_⟩))⟩
  exact b₁.payload.eventNames.get?_insert _

lemma advances_attr (h : Gives (attr site position isComponent t a) b t' b') :
    ∃ ids, Advances b b' t t' ids
      (fun w => isEvent a.name = false ∧ isBound a = true ∧ WatchesValue b'.payload t' a w)
      (fun event => isEvent a.name = true ∧ FiresEvent b'.payload t' a event) := by
  have htake : ∀ {t₁ : Target} {ids : List Identifier} {W : Watcher → Prop} {E : EventBinding → Prop},
      Advances b b' t t₁ ids W E → Advances b b' t { t₁ with element := t₁.element.remove a.name } ids W E := by
    intro t₁ ids W E hadvances
    refine { hadvances with takes := ?_ }
    cases hadvances.takes with
    | same h => exact .same h
    | drawn hnone hsome => exact .drawn hnone hsome
  obtain ⟨-, -, rfl, rfl⟩ | ⟨t₁, rfl, ⟨hevent, h⟩ | ⟨hevent, hmarkers, h⟩⟩ := gives_attr h
  · exact ⟨[], .enter rfl (.refl _) (.refl _ _ _)⟩
  · obtain ⟨ids, hadvances⟩ := advances_event h (fun _ => False)
    exact ⟨ids, htake (hadvances.mono (fun w hw => hw.elim) (fun event he => ⟨hevent, he⟩))⟩
  · obtain ⟨ids, hadvances⟩ := advances_attributeValue h (fun _ => False)
    refine ⟨ids, htake (hadvances.mono (fun w hw => ⟨hevent, ?_, hw⟩) (fun event he => he.elim))⟩
    rw [isBound, hmarkers, Bool.or_true]

lemma advances_attrs {position : Position} : ∀ {attributes : List Attribute} {t t' : Target}
    {b b' : Binder}, Gives (attributes.foldlM (attr site position isComponent) t) b t' b' →
    ∃ ids, Advances b b' t t' ids
      (fun w => ∃ a ∈ attributes, isEvent a.name = false ∧ isBound a = true ∧ WatchesValue b'.payload t' a w)
      (fun event => ∃ a ∈ attributes, isEvent a.name = true ∧ FiresEvent b'.payload t' a event)
  | [], t, t', b, b', h => by
    obtain ⟨rfl, rfl⟩ := gives_pure.1 h
    exact ⟨[], .enter rfl (.refl _) (.refl _ _ _)⟩
  | a :: attributes, t, t', b, b', h => by
    obtain ⟨t₁, b₁, h1, h2⟩ := gives_bind.1 h
    obtain ⟨ids, hfirst⟩ := advances_attr h1
    obtain ⟨ids', hrest⟩ := advances_attrs h2
    refine ⟨ids ++ ids', (hfirst.mono ?_ ?_).trans (hrest.mono ?_ ?_)⟩
    · rintro w ⟨hevent, hbound, ⟨handle, hhandle⟩, number, hattribute, hget⟩
      exact ⟨a, mem_cons_self, hevent, hbound, ⟨handle, hrest.takes.handle_eq hhandle⟩, number, hattribute,
        hrest.enters.grows.attributes.get? hget⟩
    · rintro event ⟨hevent, ⟨handle, hhandle⟩, hget⟩
      exact ⟨a, mem_cons_self, hevent, ⟨handle, hrest.takes.handle_eq hhandle⟩,
        hrest.enters.grows.eventNames.get? hget⟩
    · rintro w ⟨a', ha', hw⟩
      exact ⟨a', mem_cons_of_mem _ ha', hw⟩
    · rintro event ⟨a', ha', he⟩
      exact ⟨a', mem_cons_of_mem _ ha', he⟩

lemma exists_of_referenced (h : Gives (referenced e) b t b')
    (ha : a ∈ t.element.attributes) (hbound : isBound a = true) :
    ∃ a' ∈ e.attributes, a'.name = a.name ∧ isBound a' = true := by
  obtain ⟨-, rfl, -⟩ | ⟨value, handle, -, hhandle, rfl, -⟩ := gives_referenced h
  · exact ⟨a, ha, rfl, hbound⟩
  · have hclass : IsHandle handle := hhandle ▸ IsHandle.referenceHandle _ _
    have hname : a.name ∈ boundNames (e.remove "ref") := by
      rw [← boundNames_addClass hclass]
      exact mem_map_of_mem (mem_filter.2 ⟨ha, hbound⟩)
    obtain ⟨a', ha', heq⟩ := mem_map.1 hname
    obtain ⟨hmem, hbound'⟩ := mem_filter.1 ha'
    exact ⟨a', eraseP_subset hmem, heq, hbound'⟩

lemma advances_referenced (h : Gives (referenced e) b t b') (W : Watcher → Prop)
    (E : EventBinding → Prop) : ∃ ids, b.sequence.Draws b'.sequence ids ∧
      b.payload.Enters b'.payload (ids.map (Identifier.handle b.sequence.salt)) W E ∧
      (t.handle.map (·.2)).toList = ids.map (Identifier.handle b.sequence.salt) ∧
      ids.filterMap Identifier.name? = (referenceName? e).toList ∧
      ∀ name, referenceName? e = some name → t.handle.map (·.2) = some (b.sequence.referenceHandle name) := by
  unfold referenceName?
  obtain ⟨hvalue, rfl, rfl⟩ | ⟨value, handle, hvalue, rfl, rfl, rfl⟩ := gives_referenced h
  · rw [hvalue]
    exact ⟨[], .refl _, .refl _ W E, rfl, rfl, fun name hsome => nomatch hsome⟩
  · rw [hvalue]
    refine ⟨[.reference (lowerCamel (Text.trim value))], .reference _ _, .element _ _ W E, rfl, rfl, fun name hsome => ?_⟩
    cases hsome
    rfl

lemma accounts_element {bound : Element} (h : Gives (element site position e) b bound b') :
    ∃ handle, Marks e bound handle ∧ Named b.sequence b'.sequence [⟨.carrier e, bound, handle⟩] ∧
      Accounts b.payload b'.payload [⟨.carrier e, bound, handle⟩] := by
  obtain ⟨t, b₁, t', href, hattrs, hbound⟩ := gives_element h
  have hmarks := marks_element href hattrs
  rw [← hbound] at hmarks
  generalize hspot : (⟨.carrier e, bound, t'.handle.map (·.2)⟩ : Spot) = spot
  have hhandle : [spot].filterMap (·.handle) = (t'.handle.map (·.2)).toList := by
    rw [← hspot]
    cases t'.handle <;> rfl
  obtain ⟨ids, hdraws, henters, hhandles, hnames, hreference⟩ := advances_referenced href
    (fun w => ∃ s ∈ [spot], s.Watches b'.payload w) (fun event => ∃ s ∈ [spot], s.Fires b'.payload event)
  have hheld : Held b'.payload t' := (moves_attrs hattrs (moves_referenced site.context href).2).2
  obtain ⟨ids', hadvances⟩ := advances_attrs hattrs
  have htakes := hadvances.takes
  have henters' := hadvances.enters
  rw [hdraws.salt] at htakes henters'
  -- a target that has a class keeps it, and one that has none gets one at most
  have hall : (t'.handle.map (·.2)).toList = (ids ++ ids').map (Identifier.handle b.sequence.salt) ∧
      ids'.filterMap Identifier.name? = [] := by
    rw [map_append, ← hhandles]
    cases htakes with
    | same hsame => rw [hsame, map_nil, append_nil]; exact ⟨rfl, rfl⟩
    | drawn hnone hsome => rw [hnone, hsome]; exact ⟨rfl, rfl⟩
  have hnumber : ∀ {number handle}, t'.handle = some (number, handle) → spot.HasNumber b'.payload number := by
    intro number handle hfound
    rw [← hspot]
    exact ⟨handle, by rw [hfound]; rfl, hheld number handle hfound⟩
  refine ⟨_, hmarks, hspot ▸ ⟨⟨ids ++ ids', hdraws.trans hadvances.draws, ?_, ?_⟩, ?_⟩, hspot ▸ ?_⟩
  · rw [hhandle, hall.1]
  · rw [filterMap_append, hall.2, hnames, append_nil, ← hspot]
    cases hname : referenceName? e <;> simp [Spot.name?, Spot.carrier?, hname]
  · intro s hs name hname
    rw [mem_singleton.1 hs, ← hspot] at hname ⊢
    have hfirst := hreference name hname
    cases hfound : t.handle with
    | none => rw [hfound] at hfirst; cases hfirst
    | some found =>
      rw [hfound] at hfirst
      simp only [htakes.handle_eq hfound]
      exact hfirst
  · unfold Accounts
    rw [hhandle, hall.1, map_append]
    refine henters.trans (henters'.mono ?_ ?_)
    · rintro w ⟨a, ha, hevent, hbound, ⟨handle, hfound⟩, number, hattribute, hget⟩
      obtain ⟨a', ha', hname, hbound'⟩ := exists_of_referenced href ha hbound
      rw [← hname] at hevent hget
      rw [isBound, hevent, Bool.false_or] at hbound'
      refine ⟨_, mem_singleton_self _, hnumber hfound, ?_⟩
      rw [← hspot]
      cases w with
      | text _ _ => cases hattribute
      | property _ _ _ => cases hattribute; exact ⟨a', ha', hevent, hbound', hget⟩
      | template _ _ _ => cases hattribute; exact ⟨a', ha', hevent, hbound', hget⟩
    · rintro event ⟨a, ha, hevent, ⟨handle, hfound⟩, hget⟩
      obtain ⟨a', ha', hname, -⟩ := exists_of_referenced href ha (by rw [isBound, hevent, Bool.true_or])
      rw [← hname] at hevent hget
      exact ⟨_, mem_singleton_self _, hnumber hfound, e, by rw [← hspot], a', ha', hevent, hget⟩

/-! ## Templates -/

lemma Passes.accounts {isVerbatim : Bool} {ts us : List Tree} (h : Passes site isVerbatim ts us b b') :
    ∃ spots, Placed isVerbatim ts us spots ∧ Named b.sequence b'.sequence spots ∧ Accounts b.payload b'.payload spots := by
  induction h with
  | nil => exact ⟨[], .nil _, .refl _, .refl _⟩
  | element helement _ _ ihbelow ihrest =>
    obtain ⟨handle, hmarks, hnamed, haccounts⟩ := accounts_element helement
    obtain ⟨inner, hplaced, hnamed', haccounts'⟩ := ihbelow
    obtain ⟨outer, hrest, hnamed'', haccounts''⟩ := ihrest
    exact ⟨_, .element hmarks hplaced hrest, (hnamed.trans hnamed').trans hnamed'', (haccounts.trans haccounts').trans haccounts''⟩
  | text hmarkers htext _ ihrest =>
    obtain ⟨hnamed, haccounts⟩ := accounts_text htext
    obtain ⟨outer, hrest, hnamed', haccounts'⟩ := ihrest
    rw [(gives_text htext).1]
    exact ⟨_, .text hmarkers (.scan _ _) hrest, hnamed.trans hnamed', haccounts.trans haccounts'⟩
  | other helement htext _ ihrest =>
    obtain ⟨outer, hrest, hnamed, haccounts⟩ := ihrest
    exact ⟨outer, .other helement htext hrest, hnamed, haccounts⟩

end Binding
end Component
end ReactiveTemplate
