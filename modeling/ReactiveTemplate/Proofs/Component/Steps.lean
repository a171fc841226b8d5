import ReactiveTemplate.Component.Build
import ReactiveTemplate.Proofs.Results
/-!
# Steps — what a step of binding that succeeds has done

`Gives step b a b'` says that a step of binding succeeds on `b` with `a` and leaves `b'`.
-/
set_option linter.all false

namespace ReactiveTemplate

def TemplatePart.number? : TemplatePart → Option Nat
  | literal _ => none
  | expression number => some number

namespace Watcher

def element : Watcher → Nat
  | text element _ | property element _ _ | template element _ _ => element

def attribute? : Watcher → Option Nat
  | text _ _ => none
  | property _ attr _ | template _ attr _ => some attr

def expressions : Watcher → List Nat
  | text _ expression | property _ _ expression => [expression]
  | template _ _ parts => parts.filterMap TemplatePart.number?

end Watcher

namespace Payload

/-- An expression as it stands in a payload: a function without parameters around its source. -/
def expressionText (isEscaped : Bool) (source : String) : String :=
  "() => " ++ ((if isEscaped then "_$escape(" else "(") ++ source ++ ")")

def watched (p : Payload) (watcher : Watcher) (names : List String) : Payload :=
  names.foldl (fun q name => (q.link name (p.watchers.insert watcher).1).2)
    { p with watchers := (p.watchers.insert watcher).2 }

def handled (p : Payload) (name : String) (element : Nat) (handler : String) (vars : IndexedSet String) : Payload :=
  { p with
    vars
    eventNames := (p.eventNames.insert name).2
    handlers := (p.handlers.insert handler).2
    events := (p.events.insert ⟨(p.eventNames.insert name).1, element, (p.handlers.insert handler).1⟩).2 }

end Payload

namespace Component

open Markup (Tree Element Attribute)

def pieceNode (position : Position) : Piece → Tree
  | .literal s => Tree.leaf (.text s) position
  | .expression found => Tree.leaf (.element (Binding.embed found.placeholder)) position

def referenceName? (e : Element) : Option String := (e.value? "ref").map (fun value => lowerCamel (Text.trim value))

namespace Binding

def Gives {α : Type} (step : Binding α) (b : Binder) (a : α) (b' : Binder) : Prop := step b = .ok (a, b')

variable {u : Unit} {file : String} {position : Position} {t t' : Target} {a : Attribute}

section

variable {α β : Type} {b b' : Binder}

lemma gives_iff_of_eq {step : Binding α} {a a' : α} {b₁ : Binder} (h : step b = .ok (a, b₁)) :
    Gives step b a' b' ↔ a' = a ∧ b' = b₁ := by
  rw [Gives, h]
  simp [eq_comm]

lemma gives_unit_iff {step : Binding Unit} {b₁ : Binder} (h : step b = .ok ((), b₁)) :
    Gives step b u b' ↔ b' = b₁ := (gives_iff_of_eq h).trans (and_iff_right rfl)

lemma gives_pure {a a' : α} : Gives (pure a) b a' b' ↔ a' = a ∧ b' = b := gives_iff_of_eq rfl

lemma gives_bind {step : Binding α} {next : α → Binding β} {r : β} :
    Gives (step >>= next) b r b' ↔ ∃ a b₁, Gives step b a b₁ ∧ Gives (next a) b₁ r b' := by
  have hrun : (step >>= next) b = (step b >>= fun (a, b₁) => next a b₁) := rfl
  rw [Gives, hrun]
  cases hstep : step b with
  | error d => exact iff_of_false (fun h => nomatch h) (fun ⟨_, _, h, _⟩ => nomatch hstep.symm.trans h)
  | ok result =>
    refine ⟨fun h => ⟨_, _, hstep, h⟩, fun ⟨a, b₁, ha, h⟩ => ?_⟩
    cases hstep.symm.trans ha
    exact h

lemma gives_get {a : Binder} : Gives (get : Binding Binder) b a b' ↔ a = b ∧ b' = b := gives_iff_of_eq rfl

lemma gives_set {new : Binder} {u : PUnit} : Gives (set new : Binding PUnit) b u b' ↔ b' = new :=
  gives_unit_iff rfl

lemma gives_modify {f : Binder → Binder} {u : PUnit} : Gives (modify f : Binding PUnit) b u b' ↔ b' = f b :=
  gives_unit_iff rfl

lemma not_gives_throw {d : Diagnostic} {a : α} : ¬Gives (throw d) b a b' := fun h => nomatch h

lemma gives_modifyPayload {f : Payload → Payload} :
    Gives (modifyPayload f) b u b' ↔ b' = { b with payload := f b.payload } := gives_modify

lemma gives_orFault {result : Except Fault α} {a : α} :
    Gives (orFault result) b a b' ↔ result = .ok a ∧ b' = b := by
  cases result with
  | ok a' => rw [orFault, gives_pure, Except.ok.injEq, eq_comm]
  | error fault => exact iff_of_false not_gives_throw (fun h => nomatch h.1)

lemma gives_lift {x : Except Diagnostic α} {a : α} :
    Gives (liftM x : Binding α) b a b' ↔ x = .ok a ∧ b' = b := by
  cases x with
  | ok a' => rw [Except.ok.injEq, eq_comm]; exact gives_iff_of_eq rfl
  | error d => exact iff_of_false (fun h => nomatch h) (fun h => nomatch h.1)

lemma gives_reporting {f : Diagnostic → Diagnostic} {step : Binding α} {a : α} :
    Gives (reporting f step) b a b' ↔ Gives step b a b' := by
  unfold Gives reporting
  cases step b with
  | ok result => rfl
  | error d => exact iff_of_false nofun nofun

lemma gives_located {step : Binding α} {a : α} :
    Gives (located file position step) b a b' ↔ Gives step b a b' := gives_reporting

lemma gives_insertElement {handle : String} {number : Nat} :
    Gives (insertElement handle) b number b' ↔
      number = (b.payload.elements.insert handle).1 ∧
        b' = { b with payload := { b.payload with elements := (b.payload.elements.insert handle).2 } } :=
  gives_iff_of_eq rfl

lemma gives_scanText {s : String} {pieces : List Piece} :
    Gives (scanText s) b pieces b' ↔
      pieces = (scan s b.sequence).1.parts ∧ b' = { b with sequence := (scan s b.sequence).2 } :=
  gives_iff_of_eq rfl

lemma gives_watch {watcher : Watcher} {names : List String} :
    Gives (watch watcher names) b u b' ↔ b' = { b with payload := b.payload.watched watcher names } :=
  gives_modifyPayload

lemma gives_mapM_cons {α β : Type} {f : α → Binding β} {a : α} {as : List α} {rs : List β} :
    Gives ((a :: as).mapM f) b rs b' ↔
      ∃ r b₁ rs', Gives (f a) b r b₁ ∧ Gives (as.mapM f) b₁ rs' b' ∧ rs = r :: rs' := by
  simp only [List.mapM_cons, gives_bind, gives_pure]
  constructor
  · rintro ⟨r, b₁, h1, rs', _, h2, rfl, rfl⟩
    exact ⟨r, b₁, rs', h1, h2, rfl⟩
  · rintro ⟨r, b₁, rs', h1, h2, rfl⟩
    exact ⟨r, b₁, h1, rs', b', h2, rfl, rfl⟩

end

/-! ## Expressions -/

section

variable {site : Site} {b b' : Binder}

lemma gives_expression {source : String} {isEscaped : Bool} {bound : Bound}
    (h : Gives (expression site source isEscaped) b bound b') :
    ∃ summary text, Summary.ofSource source = .ok summary ∧ text = Payload.expressionText isEscaped summary.source ∧
      bound = ⟨(b.payload.expressions.insert text).1, site.context.readBy summary⟩ ∧
      b' = { b with payload := { b.payload with expressions := (b.payload.expressions.insert text).2 } } := by
  simp only [expression, gives_bind, gives_orFault, gives_set, gives_pure] at h
  obtain ⟨summary, _, ⟨hsummary, rfl⟩, _, _, ⟨-, rfl⟩, _, _, ⟨rfl, rfl⟩, _, _, rfl, rfl, rfl⟩ := h
  exact ⟨summary, _, hsummary, rfl, rfl, rfl⟩

/-- Interpolations that are entered one after the other, with their numbers and the variables that they read. -/
inductive Expresses (site : Site) : Binder → List Nat → List String → Binder → Prop
  | nil {b : Binder} : Expresses site b [] [] b
  | cons {b b₁ b' : Binder} {source : String} {isEscaped : Bool} {bound : Bound} {numbers : List Nat}
      {names : List String} (h : Gives (expression site source isEscaped) b bound b₁)
      (hrest : Expresses site b₁ numbers names b') :
      Expresses site b (bound.number :: numbers) (bound.vars ++ names) b'

lemma expresses_of_gives {pieces : List Piece} {parts : List (TemplatePart × List String)}
    (h : Gives (pieces.mapM (templatePiece site)) b parts b') :
    Expresses site b ((parts.map (·.1)).filterMap TemplatePart.number?) (parts.flatMap (·.2)) b' := by
  induction pieces generalizing b parts with
  | nil =>
    obtain ⟨rfl, rfl⟩ := gives_pure.1 h
    exact .nil
  | cons piece pieces ih =>
    obtain ⟨part, b₁, parts', h1, h2, rfl⟩ := gives_mapM_cons.1 h
    cases piece with
    | literal s =>
      obtain ⟨rfl, rfl⟩ := gives_pure.1 h1
      have hrest := ih h2
      exact hrest
    | expression found =>
      obtain ⟨bound, b₂, h3, h4⟩ := gives_bind.1 h1
      obtain ⟨rfl, rfl⟩ := gives_pure.1 h4
      exact .cons h3 (ih h2)

/-! ## Texts -/

/-- Binding the pieces of a text: an interpolation gets an element, which is watched. -/
inductive Embeds (site : Site) : List Piece → Binder → Binder → Prop
  | nil {b : Binder} : Embeds site [] b b
  | literal {s : String} {pieces : List Piece} {b b' : Binder} (hrest : Embeds site pieces b b') :
      Embeds site (.literal s :: pieces) b b'
  | expression {found : Interpolation} {pieces : List Piece} {b b₁ b' : Binder} {bound : Bound}
      (h : Gives (expression site found.expression found.isSafe)
        { b with payload := { b.payload with elements := (b.payload.elements.insert found.placeholder).2 } } bound b₁)
      (hrest : Embeds site pieces { b₁ with
        payload := b₁.payload.watched (.text (b.payload.elements.insert found.placeholder).1 bound.number) bound.vars } b') :
      Embeds site (.expression found :: pieces) b b'

lemma gives_text {s : String} {ts : List Tree} (h : Gives (text site position s) b ts b') :
    ts = (scan s b.sequence).1.parts.map (pieceNode position) ∧
      Embeds site (scan s b.sequence).1.parts { b with sequence := (scan s b.sequence).2 } b' := by
  have hpieces : ∀ {pieces : List Piece} {ts : List Tree} {b : Binder},
      Gives (pieces.mapM (textPiece site position)) b ts b' →
        ts = pieces.map (pieceNode position) ∧ Embeds site pieces b b' := by
    intro pieces
    induction pieces with
    | nil =>
      intro ts b h
      obtain ⟨rfl, rfl⟩ := gives_pure.1 h
      exact ⟨rfl, .nil⟩
    | cons piece pieces ih =>
      intro ts b h
      obtain ⟨t, b₁, ts', h1, h2, rfl⟩ := gives_mapM_cons.1 h
      obtain ⟨rfl, hrest⟩ := ih h2
      cases piece with
      | literal s =>
        obtain ⟨rfl, rfl⟩ := gives_pure.1 h1
        exact ⟨rfl, .literal hrest⟩
      | expression found =>
        simp only [textPiece, gives_bind, gives_located, gives_watch] at h1
        obtain ⟨_, _, ⟨rfl, rfl⟩, bound, b₃, h3, _, _, rfl, rfl, rfl⟩ := h1
        exact ⟨rfl, .expression h3 hrest⟩
  obtain ⟨pieces, b₁, h1, h2⟩ := gives_bind.1 h
  obtain ⟨rfl, rfl⟩ := gives_scanText.1 h1
  exact hpieces h2

/-! ## Elements -/

lemma gives_numbered {number : Nat} (h : Gives (numbered t) b (number, t') b') :
    (∃ handle, t.handle = some (number, handle) ∧ t' = t ∧ b' = b) ∨
    ∃ handle, t.handle = none ∧ handle = b.sequence.elementHandle.1 ∧
      number = (b.payload.elements.insert handle).1 ∧ t' = ⟨t.element.addClass handle, some (number, handle)⟩ ∧
      b' = { b with
        sequence := b.sequence.elementHandle.2
        payload := { b.payload with elements := (b.payload.elements.insert handle).2 } } := by
  unfold numbered at h
  cases hhandle : t.handle with
  | some found =>
    rw [hhandle] at h
    obtain ⟨heq, rfl⟩ := gives_pure.1 h
    cases heq
    exact .inl ⟨found.2, rfl, rfl, rfl⟩
  | none =>
    rw [hhandle] at h
    simp only [gives_bind, gives_set, gives_pure] at h
    obtain ⟨_, _, ⟨rfl, rfl⟩, _, _, rfl, _, _, ⟨rfl, rfl⟩, heq, rfl⟩ := h
    cases heq
    exact .inr ⟨_, rfl, rfl, rfl, rfl, rfl⟩

lemma gives_attributeValue {isComponent : Bool}
    (h : Gives (attributeValue site isComponent t a) b t' b') :
    ∃ number b₁ b₂ watcher names, Gives (numbered t) b (number, t') b₁ ∧ watcher.element = number ∧
      watcher.attribute? = some (b₁.payload.attributes.insert a.name).1 ∧
      Expresses site { b₁ with
        sequence := (scan a.value b₁.sequence).2
        payload := { b₁.payload with attributes := (b₁.payload.attributes.insert a.name).2 } }
        watcher.expressions names b₂ ∧
      b' = { b₂ with payload := b₂.payload.watched watcher names } := by
  simp only [attributeValue, gives_bind, gives_set, gives_scanText] at h
  obtain ⟨⟨number, t₁⟩, b₁, h1, _, _, ⟨rfl, rfl⟩, _, _, rfl, pieces, _, ⟨-, rfl⟩, h2⟩ := h
  cases hwhole : wholeValue? pieces with
  | some found =>
    simp only [hwhole, gives_bind, gives_watch] at h2
    obtain ⟨bound, b₂, h3, _, _, rfl, rfl, rfl⟩ := h2
    refine ⟨number, _, b₂, .property number _ bound.number, bound.vars, h1, rfl, rfl, ?_, rfl⟩
    rw [← List.append_nil bound.vars]
    exact .cons h3 .nil
  | none =>
    simp only [hwhole, gives_bind, gives_watch] at h2
    obtain ⟨parts, b₂, h3, _, _, rfl, rfl, rfl⟩ := h2
    refine ⟨number, _, b₂, .template number _ (parts.map (·.1)), parts.flatMap (·.2), h1, rfl, rfl, ?_, rfl⟩
    exact expresses_of_gives h3

lemma gives_event (h : Gives (event site t a) b t' b') :
    ∃ number b₁ handler vars, Gives (numbered t) b (number, t') b₁ ∧
      Handler.ofValue site.context b₁.payload.vars a.value = .ok (handler, vars) ∧
      b' = { b₁ with payload := b₁.payload.handled (String.ofList (a.name.toList.drop 2)) number handler vars } := by
  simp only [event, gives_bind, gives_orFault, gives_modifyPayload, gives_pure] at h
  obtain ⟨⟨number, t₁⟩, b₁, h1, _, _, ⟨rfl, rfl⟩, ⟨handler, vars⟩, _, ⟨hhandler, rfl⟩, _, _, rfl, rfl, rfl⟩ := h
  exact ⟨number, _, handler, vars, h1, hhandler, rfl⟩

lemma gives_attr {isComponent : Bool}
    (h : Gives (attr site position isComponent t a) b t' b') :
    (isEvent a.name = false ∧ Interpolation.hasMarkers a.value = false ∧ t' = t ∧ b' = b) ∨
    ∃ t₁, t' = { t₁ with element := t₁.element.remove a.name } ∧
      (isEvent a.name = true ∧ Gives (event site t a) b t₁ b' ∨
        isEvent a.name = false ∧ Interpolation.hasMarkers a.value = true ∧
          Gives (attributeValue site isComponent t a) b t₁ b') := by
  simp only [attr] at h
  by_cases hevent : isEvent a.name = true
  · simp only [if_pos hevent, gives_bind, gives_located, gives_reporting] at h
    obtain ⟨t₁, _, h1, rfl, rfl⟩ := h
    exact .inr ⟨t₁, rfl, .inl ⟨hevent, h1⟩⟩
  · rw [if_neg hevent] at h
    rw [Bool.not_eq_true] at hevent
    by_cases hmarkers : Interpolation.hasMarkers a.value = true
    · simp only [if_pos hmarkers, gives_bind, gives_located, gives_reporting] at h
      obtain ⟨t₁, _, h1, rfl, rfl⟩ := h
      exact .inr ⟨t₁, rfl, .inr ⟨hevent, hmarkers, h1⟩⟩
    · rw [if_neg hmarkers] at h
      obtain ⟨rfl, rfl⟩ := gives_pure.1 h
      exact .inl ⟨hevent, Bool.not_eq_true _ ▸ hmarkers, rfl, rfl⟩

lemma gives_referenced {e : Element} (h : Gives (referenced e) b t b') :
    (e.value? "ref" = none ∧ t = ⟨e, none⟩ ∧ b' = b) ∨
    ∃ value handle, e.value? "ref" = some value ∧ handle = referenceHandle b.sequence value ∧
      t = ⟨(e.remove "ref").addClass handle, some ((b.payload.elements.insert handle).1, handle)⟩ ∧
      b' = { b with payload := { b.payload with elements := (b.payload.elements.insert handle).2 } } := by
  unfold referenced at h
  cases hvalue : e.value? "ref" with
  | none =>
    rw [hvalue] at h
    obtain ⟨rfl, rfl⟩ := gives_pure.1 h
    exact .inl ⟨rfl, rfl, rfl⟩
  | some value =>
    rw [hvalue] at h
    simp only [gives_bind, gives_pure] at h
    obtain ⟨_, _, ⟨rfl, rfl⟩, _, _, ⟨rfl, rfl⟩, rfl, rfl⟩ := h
    exact .inr ⟨value, _, rfl, rfl, rfl, rfl⟩

lemma gives_reference {names names' : List String} {t : Tree} (h : Gives (reference file names t) b names' b') :
    (t.element?.bind referenceName? = none ∧ names' = names ∧ b' = b) ∨
    ∃ name handle, t.element?.bind referenceName? = some name ∧ handle = b.sequence.referenceHandle name ∧ name ∉ names ∧
      names' = names ++ [name] ∧ b' = { b with payload := { b.payload with
        elements := (b.payload.elements.insert handle).2
        references := b.payload.references ++ [(name, (b.payload.elements.insert handle).1)] } } := by
  have hname : t.element?.bind referenceName? =
      (t.element?.bind (·.value? "ref")).map (fun value => lowerCamel (Text.trim value)) := by
    cases t.element? <;> rfl
  rw [hname]
  unfold reference at h
  cases hvalue : t.element?.bind (·.value? "ref") with
  | none =>
    rw [hvalue] at h
    obtain ⟨rfl, rfl⟩ := gives_pure.1 h
    exact .inl ⟨rfl, rfl, rfl⟩
  | some value =>
    rw [hvalue] at h
    simp only [gives_located] at h
    split at h
    · obtain ⟨_, _, h, _⟩ := gives_bind.1 h
      exact absurd h not_gives_throw
    split at h
    · obtain ⟨_, _, h, _⟩ := gives_bind.1 h
      exact absurd h not_gives_throw
    rename_i hseen
    simp only [gives_bind, gives_modifyPayload, gives_pure] at h
    obtain ⟨_, _, ⟨rfl, rfl⟩, _, _, ⟨rfl, rfl⟩, _, _, rfl, rfl, rfl⟩ := h
    exact .inr ⟨_, _, rfl, rfl, fun hmem => hseen (List.contains_iff_mem.2 hmem), rfl, rfl⟩

def Target.marked (t : Target) : Element :=
  match t.handle with
  | some (_, handle) => t.element.addClass handle
  | none => t.element

lemma gives_element {e bound : Element} (h : Gives (element site position e) b bound b') :
    ∃ t b₁ t', Gives (referenced e) b t b₁ ∧
      Gives (t.element.attributes.foldlM (attr site position (site.assetOf e.tag).isSome) t)
        { b₁ with dependencies := (b₁.dependencies ++ (site.assetOf e.tag).toList).eraseDups } t' b' ∧
      bound = t'.marked := by
  simp only [element, gives_bind, gives_modify, gives_pure] at h
  obtain ⟨t, b₁, h1, _, _, rfl, t', _, h2, hbound, rfl⟩ := h
  exact ⟨t, b₁, t', h1, h2, hbound⟩

/-! ## Templates -/

/-- Binding a template, node by node: elements and texts with interpolations are bound, and everything else stays. -/
inductive Passes (site : Site) : Bool → List Tree → List Tree → Binder → Binder → Prop
  | nil {isVerbatim : Bool} {b : Binder} : Passes site isVerbatim [] [] b b
  | element {isVerbatim : Bool} {e bound : Element} {position : Position} {children below ts us : List Tree}
      {b b₁ b₂ b' : Binder} (helement : Gives (element site position e) b bound b₁)
      (hbelow : Passes site (Markup.verbatimTags.contains e.tag) children below b₁ b₂)
      (hrest : Passes site isVerbatim ts us b₂ b') :
      Passes site isVerbatim (.node (.element e) position children :: ts) (.node (.element bound) position below :: us) b b'
  | text {s : String} {position : Position} {children pieces ts us : List Tree} {b b₁ b' : Binder}
      (hmarkers : Interpolation.hasMarkers s = true) (htext : Gives (text site position s) b pieces b₁)
      (hrest : Passes site false ts us b₁ b') :
      Passes site false (.node (.text s) position children :: ts) (pieces ++ us) b b'
  | other {isVerbatim : Bool} {t : Tree} {ts us : List Tree} {b b' : Binder} (helement : t.element? = none)
      (htext : ∀ s, t.kind = .text s → isVerbatim = true ∨ Interpolation.hasMarkers s = false)
      (hrest : Passes site isVerbatim ts us b b') : Passes site isVerbatim (t :: ts) (t :: us) b b'

mutual
theorem passes_node {isVerbatim : Bool} : ∀ {t : Tree} {us ts vs : List Tree} {b b₁ b' : Binder},
    Gives (node site isVerbatim t) b us b₁ → Passes site isVerbatim ts vs b₁ b' →
    Passes site isVerbatim (t :: ts) (us ++ vs) b b'
  | .node kind position children, us, ts, vs, b, b₁, b', h, hrest => by
    cases kind with
    | element e =>
      simp only [node, gives_bind] at h
      obtain ⟨bound, b₂, h1, below, _, h2, rfl, rfl⟩ := h
      exact .element h1 (passes_nodes h2) hrest
    | text s =>
      rw [node] at h
      split at h
      · rename_i hmarkers
        rw [Bool.and_eq_true, Bool.not_eq_true'] at hmarkers
        obtain ⟨rfl, hmarkers⟩ := hmarkers
        exact .text hmarkers h hrest
      · rename_i hmarkers
        obtain ⟨rfl, rfl⟩ := gives_pure.1 h
        refine .other rfl (fun s' hs => ?_) hrest
        cases hs
        cases isVerbatim with
        | true => exact .inl rfl
        | false => exact .inr (by simpa using hmarkers)
    | _ =>
      obtain ⟨rfl, rfl⟩ := gives_pure.1 h
      exact .other rfl (fun s' hs => nomatch hs) hrest

theorem passes_nodes {isVerbatim : Bool} : ∀ {ts us : List Tree} {b b' : Binder},
    Gives (nodes site isVerbatim ts) b us b' → Passes site isVerbatim ts us b b'
  | [], us, b, b', h => by
    obtain ⟨rfl, rfl⟩ := gives_pure.1 h
    exact .nil
  | t :: ts, us, b, b', h => by
    simp only [nodes, gives_bind] at h
    obtain ⟨first, b₁, h1, rest, _, h2, rfl, rfl⟩ := h
    exact passes_node h1 (passes_nodes h2)
end

lemma gives_bindTemplate {assetOf : String → Option String} {parts : Parts} {head : Head}
    {ts : List Tree} (h : Gives (bindTemplate file assetOf parts head) b ts b') :
    ∃ names b₁ analysed hooks, Gives (references file parts.template) b names b₁ ∧
      analyse (contextSource names head.params.client parts.scriptText) (names ++ head.params.client.map (·.name)) =
        .ok analysed ∧
      Passes ⟨file, analysed.context, assetOf⟩ false parts.template ts
        { b₁ with payload := { b₁.payload with
            vars := analysed.vars, body := analysed.script.body, imports := analysed.script.imports
            exports := analysed.script.exports, hooks } } b' := by
  simp only [bindTemplate, gives_bind, gives_orFault, gives_lift, gives_modifyPayload] at h
  obtain ⟨names, b₁, h1, _, _, ⟨-, rfl⟩, hooks, _, ⟨-, rfl⟩, analysed, _, ⟨hanalysed, rfl⟩, _, _, rfl, h2⟩ := h
  exact ⟨names, _, analysed, hooks, h1, hanalysed, passes_nodes h2⟩

end
end Binding
end Component
end ReactiveTemplate
