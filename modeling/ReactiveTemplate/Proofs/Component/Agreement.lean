import ReactiveTemplate.Proofs.Component.Handles
import ReactiveTemplate.Proofs.Markup.Nesting
/-!
# Agreement — every entry of a payload finds its element

References are entered first and the rest when the template is bound, so the table of elements holds the class of each
spot of the bound template once, and each is a class of one element (`Agrees`), if the hashes are different and fresh
(`IsFresh`).
-/
set_option linter.all false

namespace ReactiveTemplate.Component
open List

open Markup (Tree Element Attribute)
open Binding (Gives)

/-! ## What is entered for a component -/

/-- What is entered for a component: the classes of its references, and behind them those of its spots. -/
structure Entered (s s' : Sequence) (template : List Tree) (p : Payload) (spots : List Spot) : Prop where
  named : Named s s' spots
  names : p.references.map (·.1) = (Tree.elementsOf template).filterMap referenceName?
  elements : p.elements = (IndexedSet.empty.insertAll ((p.references.map (·.1)).map s.referenceHandle)).insertAll
    (spots.filterMap (·.handle))
  references : ∀ r ∈ p.references, p.elements.get? r.2 = some (s.referenceHandle r.1)
  watchers : ∀ w ∈ p.watchers.items, ∃ spot ∈ spots, spot.Watches p w
  events : ∀ event ∈ p.events.items, ∃ spot ∈ spots, spot.Fires p event

def Binder.start (file : String) (sequence : Sequence) (head : Head) (position : Position) : Binder :=
  { sequence := sequence.salted head.name
    payload := { tag := head.tag, file := file, line := position.line } }

lemma entered_of_gives {file : String} {sequence : Sequence} {assetOf : String → Option String} {parts : Parts}
    {head : Head} {position : Position} {bound : List Tree} {b : Binder}
    (h : Gives (bindTemplate file assetOf parts head) (Binder.start file sequence head position) bound b) :
    ∃ spots, Placed false parts.template bound spots ∧
      Entered (sequence.salted head.name) b.sequence parts.template b.payload spots := by
  obtain ⟨names, b₁, analysed, hooks, h1, -, hpasses⟩ := Binding.gives_bindTemplate h
  obtain ⟨hsequence, -, -, _, hadded, rfl, hpayload, hnames, hnumbers⟩ := gives_references h1 nodup_nil
  obtain ⟨spots, hplaced, hnamed, haccounts⟩ := hpasses.accounts
  simp only [hsequence] at hnamed
  have hsame : b.payload.references = b₁.payload.references := haccounts.grows.references
  refine ⟨spots, hplaced, hnamed, ?_, ?_, fun r hr => ?_, fun w hw => ?_, fun event hevent => ?_⟩
  · rw [hsame, hnames, hadded]
    rfl
  · rw [haccounts.elements, hsame, hnames]
    show b₁.payload.elements.insertAll _ = _
    rw [hpayload]
    rfl
  · exact haccounts.grows.elements.get? ((hnumbers r (hsame ▸ hr)).resolve_left not_mem_nil)
  · refine (haccounts.watchers w hw).resolve_left (fun hold => ?_)
    rw [hpayload] at hold
    exact not_mem_nil hold
  · refine (haccounts.events event hevent).resolve_left (fun hold => ?_)
    rw [hpayload] at hold
    exact not_mem_nil hold

def drawn (file : String) (sequence : Sequence) (assetOf : String → Option String) (e : Element) (position : Position)
    (children : List Tree) : Nat :=
  match Parts.ofChildren file children, Head.ofElement e with
  | .ok parts, .ok head =>
    match (bindTemplate file assetOf parts head).run (Binder.start file sequence head position) with
    | .ok (_, binder) => binder.sequence.counter
    | .error _ => 0
  | _, _ => 0

section

variable {file : String} {sequence : Sequence} {assetOf : String → Option String} {e : Element} {position : Position}
  {children : List Tree} {built : Built}

lemma entered_of_build (h : build file sequence assetOf e position children = .ok built) :
    ∃ parts spots s', Parts.ofChildren file children = .ok parts ∧ Placed false parts.template built.template spots ∧
      Entered (sequence.salted built.head.name) s' parts.template built.payload spots ∧
      drawn file sequence assetOf e position children = s'.counter := by
  obtain ⟨parts, binder, hparts, hhead, hrun, hpayload, -⟩ := build_cases h
  have hstart : (bindTemplate file assetOf parts built.head).run (Binder.start file sequence built.head position) =
      .ok (built.template, binder) := hrun
  obtain ⟨spots, hplaced, hentered⟩ := entered_of_gives hstart
  refine ⟨parts, spots, binder.sequence, hparts, hplaced, hpayload ▸ hentered, ?_⟩
  rw [drawn, hparts, hhead]
  simp only [hstart]

end

/-! ## The payload and the template -/

/-- What is asked of a component whose classes are made with a salt: its template is regular, no two hashes of the numbers
that are drawn and of the references are the same, and no class in the table is written in the template. -/
structure IsFresh (salt : String) (count : Nat) (template : List Tree) (p : Payload) : Prop where
  regular : IsRegular template
  hashes : (Identifier.hashes salt (p.references.map (·.1)) count).Nodup
  written : ∀ e ∈ Tree.elementsOf template, ∀ c ∈ e.classes, c ∉ p.elements.items

instance (salt : String) (count : Nat) (template : List Tree) (p : Payload) :
    Decidable (IsFresh salt count template p) :=
  decidable_of_iff (IsRegular template ∧ (Identifier.hashes salt (p.references.map (·.1)) count).Nodup ∧
      ∀ e ∈ Tree.elementsOf template, ∀ c ∈ e.classes, c ∉ p.elements.items)
    ⟨fun h => ⟨h.1, h.2.1, h.2.2⟩, fun h => ⟨h.regular, h.hashes, h.written⟩⟩

/-- A payload and a bound template that agree on the elements that they speak of. -/
structure Agrees (template bound : List Tree) (p : Payload) (spots : List Spot) : Prop where
  placed : Placed false template bound spots
  elements : Tree.elementsOf bound = spots.map (·.element)
  carriers : Tree.elementsOf template = spots.filterMap Spot.carrier?
  handles : p.elements.items.Perm (spots.filterMap (·.handle)) ∧ p.elements.items.Nodup
  apart : spots.Pairwise (fun spot spot' => ∀ number, spot.HasNumber p number → ¬spot'.HasNumber p number)
  once : ∀ c ∈ p.elements.items, (Tree.elementsOf bound).countP (fun e => e.classes.contains c) = 1
  /-- which is the one that it is the handle of. -/
  classes : ∀ c ∈ p.elements.items, ∀ spot ∈ spots, c ∈ spot.element.classes ↔ spot.handle = some c
  watchers : ∀ w ∈ p.watchers.items, ∃ spot ∈ spots, spot.Watches p w
  events : ∀ event ∈ p.events.items, ∃ spot ∈ spots, spot.Fires p event
  references : ∀ r ∈ p.references, ∃ spot ∈ spots, spot.HasNumber p r.2 ∧ spot.name? = some r.1

lemma apart_of_nodup {p : Payload} {spots : List Spot} (h : (spots.filterMap (·.handle)).Nodup) :
    spots.Pairwise (fun spot spot' => ∀ number, spot.HasNumber p number → ¬spot'.HasNumber p number) := by
  refine (pairwise_filterMap.1 h).imp ?_
  rintro spot spot' hne number ⟨c, hc, hget⟩ ⟨c', hc', hget'⟩
  exact hne c hc c' hc' (Option.some.inj (hget.symm.trans hget'))

namespace Entered

variable {s s' : Sequence} {template bound : List Tree} {p : Payload} {spots : List Spot}
  (h : Entered s s' template p spots) (hcarriers : Tree.elementsOf template = spots.filterMap Spot.carrier?)

include h hcarriers

lemma exists_spot {name : String} (hname : name ∈ p.references.map (·.1)) :
    ∃ spot ∈ spots, spot.name? = some name ∧ spot.handle = some (s.referenceHandle name) := by
  rw [h.names, hcarriers, filterMap_filterMap] at hname
  obtain ⟨spot, hspot, hsome⟩ := mem_filterMap.1 hname
  exact ⟨spot, hspot, hsome, h.named.references spot hspot name hsome⟩

lemma mem_elements (c : String) : c ∈ p.elements.items ↔ c ∈ spots.filterMap (·.handle) := by
  rw [h.elements, IndexedSet.mem_insertAll, IndexedSet.mem_insertAll]
  refine ⟨fun hc => hc.elim (fun hfirst => ?_) id, Or.inr⟩
  obtain ⟨name, hname, rfl⟩ := mem_map.1 (hfirst.resolve_left not_mem_nil)
  obtain ⟨spot, hspot, -, hhandle⟩ := h.exists_spot hcarriers hname
  exact mem_filterMap.2 ⟨spot, hspot, hhandle⟩

lemma nodup_handles (hhashes : (Identifier.hashes s.salt (p.references.map (·.1)) s'.counter).Nodup) :
    (spots.filterMap (·.handle)).Nodup := by
  obtain ⟨ids, hdraws, hhandles, hnames⟩ := h.named.drawn
  have hsame : p.references.map (·.1) = ids.filterMap Identifier.name? := by
    rw [hnames, h.names, hcarriers, filterMap_filterMap]
    rfl
  rw [hsame] at hhashes
  rw [hhandles]
  exact Identifier.nodup_handles hhashes hdraws.nodup hdraws.lt

omit hcarriers in
lemma agrees (hplaced : Placed false template bound spots)
    (hfresh : IsFresh s.salt s'.counter template p) : Agrees template bound p spots := by
  obtain ⟨hbound, hcarriers⟩ := hplaced.elements_eq hfresh.regular.leaves
  have hdistinct := h.nodup_handles hcarriers hfresh.hashes
  have hnodup : p.elements.items.Nodup := by
    rw [h.elements]
    exact IndexedSet.nodup_insertAll _ (IndexedSet.nodup_insertAll _ nodup_nil)
  have hclear : ∀ c ∈ p.elements.items, ∀ e ∈ Tree.elementsOf template, c ∉ e.classes :=
    fun c hc e he hclass => hfresh.written e he c hclass hc
  refine ⟨hplaced, hbound, hcarriers, ⟨?_, hnodup⟩, apart_of_nodup hdistinct, fun c hc => ?_, fun c hc spot hspot => ?_,
    h.watchers, h.events, fun r hr => ?_⟩
  · exact (perm_ext_iff_of_nodup hnodup hdistinct).2 (h.mem_elements hcarriers)
  · exact hplaced.countP_classes hfresh.regular hdistinct ((h.mem_elements hcarriers c).1 hc) (hclear c hc)
  · exact hplaced.mem_classes_iff hfresh.regular (hclear c hc) hspot
  · obtain ⟨spot, hspot, hname, hhandle⟩ := h.exists_spot hcarriers (mem_map_of_mem hr)
    exact ⟨spot, hspot, ⟨_, hhandle, h.references r hr⟩, hname⟩

end Entered

/-- **The classes of a component and its elements agree.**  If the template is regular, no two hashes of the component
are the same and no class that is written in the template is one of those that are generated, then every class in the
table of elements is a class of one element of the bound template.  For a watcher of a text this is the element that
stands for the interpolation, where the interpolation stands in the text unless the text spells its placeholder ahead of
it; for another watcher, an event or a reference it is the element that has the attribute.  Different elements have
different numbers. -/
theorem build_handles {file : String} {sequence : Sequence} {assetOf : String → Option String} {e : Element}
    {position : Position} {children : List Tree} {built : Built}
    (h : build file sequence assetOf e position children = .ok built) :
    ∃ parts, Parts.ofChildren file children = .ok parts ∧
      (IsFresh (sequence.salted built.head.name).salt (drawn file sequence assetOf e position children)
        parts.template built.payload → ∃ spots, Agrees parts.template built.template built.payload spots) := by
  obtain ⟨parts, spots, s', hparts, hplaced, hentered, hdrawn⟩ := entered_of_build h
  refine ⟨parts, hparts, fun hfresh => ⟨spots, hentered.agrees hplaced ?_⟩⟩
  rw [hdrawn] at hfresh
  exact hfresh

/-! ### Components that spell and bind classes -/

namespace Marked

/-- A component with an event, a bound class and a reference on one element, interpolations in its text, and a class that
stays on another. -/
def content : List Tree :=
  [Counter.tagged "p" [("onclick", "n += m"), ("class", "x ${n}"), ("ref", "box")] [Counter.text "${n} of ${m}"],
   Counter.tagged "i" [("class", "y"), ("title", "${m}")] [],
   Counter.tagged "script" [] [Counter.text "let m = 9, n = 0;"]]

def spelling : List Tree :=
  [Counter.text "_i_qFAX5bxJlqk ${a}", Counter.tagged "script" [] [Counter.text "let a"]]

def host (name : String) : Element := ⟨"component", [⟨"name", "name", name, none⟩]⟩

def result (name : String) (content : List Tree) : Except Diagnostic Built :=
  build "" (.new "") (fun _ => none) (host name) {} content

def isFresh (name : String) (content : List Tree) (p : Built → Bool) : Bool :=
  (Parts.ofChildren "" content).toOption.any (fun parts => (result name content).toOption.any (fun built =>
    decide (IsFresh ((Sequence.new "").salted built.head.name).salt
      (drawn "" (.new "") (fun _ => none) (host name) {} content) parts.template built.payload) && p built))

lemma exists_of_isFresh {name : String} {content : List Tree} {p : Built → Bool} (h : isFresh name content p = true) :
    ∃ parts built, Parts.ofChildren "" content = .ok parts ∧ result name content = .ok built ∧
      IsFresh ((Sequence.new "").salted built.head.name).salt
        (drawn "" (.new "") (fun _ => none) (host name) {} content) parts.template built.payload ∧ p built = true := by
  obtain ⟨parts, hparts, h⟩ := exists_ok_of_any h
  obtain ⟨built, hresult, h⟩ := exists_ok_of_any h
  obtain ⟨hfresh, hp⟩ := Bool.and_eq_true_iff.1 h
  exact ⟨parts, built, hparts, hresult, of_decide_eq_true hfresh, hp⟩

end Marked

/-- A component with a bound class agrees with its payload: the class is taken off the element and its handle stays. -/
theorem build_handles_marked : ∃ built parts spots, Marked.result "count-up" Marked.content = .ok built ∧
    Parts.ofChildren "" Marked.content = .ok parts ∧
    IsFresh ((Sequence.new "").salted built.head.name).salt
      (drawn "" (.new "") (fun _ => none) (Marked.host "count-up") {} Marked.content) parts.template built.payload ∧
    built.payload.elements.size = 4 ∧ built.payload.watchers.size = 4 ∧
    built.payload.attributes.items = ["class", "title"] ∧
    Agrees parts.template built.template built.payload spots := by
  have hall : Marked.isFresh "count-up" Marked.content (fun built => decide (built.payload.elements.size = 4 ∧
      built.payload.watchers.size = 4 ∧ built.payload.attributes.items = ["class", "title"])) = true := by
    decide +kernel
  obtain ⟨parts, built, hparts, hbuilt, hfresh, hsizes⟩ := Marked.exists_of_isFresh hall
  obtain ⟨helements, hwatchers, hattributes⟩ := of_decide_eq_true hsizes
  obtain ⟨parts', hparts', hagrees⟩ := build_handles hbuilt
  obtain rfl : parts = parts' := Except.ok.inj (hparts.symm.trans hparts')
  obtain ⟨spots, hspots⟩ := hagrees hfresh
  exact ⟨built, parts, spots, hbuilt, hparts, hfresh, helements, hwatchers, hattributes, hspots⟩

/-- A text that spells the placeholder of its interpolation gets the element for it there: the interpolation stands at its
end, and the element at its start. -/
theorem build_spelled : ∃ built parts, Marked.result "c" Marked.spelling = .ok built ∧
    Parts.ofChildren "" Marked.spelling = .ok parts ∧
    IsFresh ((Sequence.new "").salted built.head.name).salt
      (drawn "" (.new "") (fun _ => none) (Marked.host "c") {} Marked.spelling) parts.template built.payload ∧
    built.payload.watchers.items = [.text 0 0] ∧ built.payload.elements.items = ["_i_qFAX5bxJlqk"] ∧
    (built.template.map Tree.kind).take 2 =
      [.element (Binding.embed "_i_qFAX5bxJlqk"), .text " _i_qFAX5bxJlqk"] := by
  have hall : Marked.isFresh "c" Marked.spelling (fun built => decide (built.payload.watchers.items = [.text 0 0] ∧
      built.payload.elements.items = ["_i_qFAX5bxJlqk"] ∧ (built.template.map Tree.kind).take 2 =
        [.element (Binding.embed "_i_qFAX5bxJlqk"), .text " _i_qFAX5bxJlqk"])) = true := by
    decide +kernel
  obtain ⟨parts, built, hparts, hbuilt, hfresh, hshape⟩ := Marked.exists_of_isFresh hall
  obtain ⟨hwatchers, helements, hkinds⟩ := of_decide_eq_true hshape
  exact ⟨built, parts, hbuilt, hparts, hfresh, hwatchers, helements, hkinds⟩

end ReactiveTemplate.Component
