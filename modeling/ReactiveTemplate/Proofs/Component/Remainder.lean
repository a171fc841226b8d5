import ReactiveTemplate.Proofs.Component.Built
import ReactiveTemplate.Proofs.Interpolation.Cutting
import ReactiveTemplate.Proofs.Markup.Attributes
/-!
# Remainder — what binding leaves of an element

Binding takes attributes off by the name that they are looked up by: as many of a name as have to be bound, from the
front (`bindsTo_element`).
-/
set_option linter.all false

namespace ReactiveTemplate
open List
open Interpolation

open Markup (Tree Element Attribute)

variable {a : Attribute}

/-! ## Handle classes -/

namespace Interpolation

lemma hasMarkersIn_trimChars (cs : List Char) : hasMarkersIn (Text.trimChars cs) = hasMarkersIn cs := by
  obtain ⟨before, behind, hcs, hbefore, hbehind⟩ := Text.exists_trimChars cs
  conv_rhs => rw [hcs]
  rw [hasMarkersIn_append_right, hasMarkersIn_append_left]
  · intro c hc
    refine Bool.eq_false_iff.2 (fun hsign => ?_)
    have hblank := hbefore c hc
    simp only [isSign, Bool.or_eq_true, beq_iff_eq] at hsign
    rcases hsign with rfl | rfl <;> revert hblank <;> decide
  · intro hbrace
    have := hbehind _ hbrace
    revert this
    decide

end Interpolation

namespace Component

def IsHandle (handle : String) : Prop :=
  ∃ hash : String, handle = "_ref_" ++ hash ∧ ∀ c ∈ hash.toList, Markup.isNameChar c = true

namespace IsHandle

variable {handle : String}

lemma isNameChar (h : IsHandle handle) : ∀ c ∈ handle.toList, Markup.isNameChar c = true := by
  obtain ⟨hash, rfl, hhash⟩ := h
  intro c hc
  rw [String.toList_append, mem_append] at hc
  rcases hc with hc | hc
  · have hstart : "_ref_".toList.all Markup.isNameChar = true := by decide
    exact all_eq_true.1 hstart c hc
  · exact hhash c hc

lemma isWord (h : IsHandle handle) : Text.IsWord handle := by
  refine ⟨?_, fun c hc => Markup.isBlank_of_isNameChar (h.isNameChar c hc)⟩
  obtain ⟨hash, rfl, -⟩ := h
  simp

lemma elementHandle (s : Sequence) : IsHandle s.elementHandle.1 := ⟨_, rfl, Digest.isNameChar_short _⟩

lemma referenceHandle (s : Sequence) (name : String) : IsHandle (s.referenceHandle name) :=
  ⟨_, rfl, Digest.isNameChar_short _⟩

lemma hasMarkers_classesWith (h : IsHandle handle) (current : String) :
    hasMarkers (Element.classesWith current handle) = hasMarkers current := by
  have hnone := hasMarkersIn_name_append h.isNameChar []
  rw [append_nil] at hnone
  rw [hasMarkers, hasMarkers, ← hasMarkersIn_trimChars current.toList,
    Element.classesWith]
  split
  · rename_i hempty
    have hchars : Text.trimChars current.toList = [] := by simpa [Text.trim] using hempty
    rw [hnone, hchars]
  · have hbrace : '\x7b' ∉ ' ' :: handle.toList := by
      intro hmem
      rcases mem_cons.1 hmem with heq | hmem
      · exact absurd heq (by decide)
      · have := h.isNameChar _ hmem
        revert this
        decide
    have hchars : (Text.trim current ++ " " ++ handle).toList = Text.trimChars current.toList ++ ' ' :: handle.toList := by
      simp [Text.trim]
    rw [hchars, hasMarkersIn_append_right hbrace]

end IsHandle

/-! ## Attributes that are taken -/

-- Names are compared by what is known of them, never by unfolding them.
attribute [local irreducible] Markup.normalName

def isBound (a : Attribute) : Bool := isEvent a.name || hasMarkers a.value

def isTaken (a : Attribute) : Bool := a.name == "ref" || isBound a

lemma isBound_withValue {value : String}
    (h : hasMarkers value = hasMarkers a.value) : isBound (a.withValue value) = isBound a := by
  rw [isBound, isBound, Attribute.withValue, h]

def boundNames (e : Element) : List String := (e.attributes.filter isBound).map (·.name)

variable {handle : String} {bound e : Element}

lemma boundNames_setIn (h : IsHandle handle) {x : Attribute} (hname : x.name = "class") (as : List Attribute)
    (hvalue : x.value = Element.classesWith (((Markup.findIn as "class").map (·.value)).getD "") handle) :
    ((Markup.setIn as x).filter isBound).map (·.name) = (as.filter isBound).map (·.name) := by
  induction as with
  | nil =>
    have hmarkers : hasMarkers x.value = false := by
      rw [hvalue, h.hasMarkers_classesWith]
      decide
    have hevent : isEvent x.name = false := by
      rw [hname]
      decide
    simp [Markup.setIn, isBound, hmarkers, hevent]
  | cons a as ih =>
    rw [Markup.setIn_cons, hname]
    rw [Markup.findIn_cons] at hvalue
    by_cases ha : a.name = "class"
    · rw [if_pos ha, Option.map_some, Option.getD_some] at hvalue
      have hsame : isBound (a.withValue x.value) = isBound a := by
        refine isBound_withValue ?_
        rw [hvalue, h.hasMarkers_classesWith]
      rw [if_pos ha, filter_cons, filter_cons, hsame]
      split <;> rfl
    · rw [if_neg ha] at hvalue ⊢
      rw [filter_cons, filter_cons]
      split
      · rw [map_cons, map_cons, ih hvalue]
      · exact ih hvalue

lemma boundNames_addClass (h : IsHandle handle) (e : Element) : boundNames (e.addClass handle) = boundNames e := by
  rw [Element.addClass_eq]
  split
  · rfl
  · have hname : ∀ value, (Attribute.new "class" value).name = "class" := fun value => by
      rw [Attribute.name_new, Element.normalName_class]
    have hvalue : ∀ value, (Attribute.new "class" value).value = value := fun value => by rw [Attribute.new]
    exact boundNames_setIn h (hname _) e.attributes (hvalue _)

/-- What is left of an element: without the reference, and for each attribute that is bound without the first one of its
name. -/
def remainder (e : Element) : Element := (e.remove "ref").removeAll (boundNames (e.remove "ref"))

def BindsTo (e bound : Element) : Prop :=
  if e.attributes.any isTaken then ∃ handle, IsHandle handle ∧ bound = (remainder e).addClass handle else bound = e

def Marks (e bound : Element) : Option String → Prop
  | none => e.attributes.any isTaken = false ∧ bound = e
  | some handle => e.attributes.any isTaken = true ∧ IsHandle handle ∧ bound = (remainder e).addClass handle

lemma Marks.bindsTo {handle : Option String} (h : Marks e bound handle) : BindsTo e bound := by
  unfold BindsTo
  cases handle with
  | none =>
    obtain ⟨hnone, rfl⟩ := h
    rw [if_neg (by simp [hnone])]
  | some handle =>
    obtain ⟨hany, hhandle, hbound⟩ := h
    rw [if_pos hany]
    exact ⟨handle, hhandle, hbound⟩

namespace Binding

variable {site : Site} {b b' : Binder}

/-- An element on its way: once it is marked it has a handle, and `names` have been taken off. -/
def Reached (e : Element) (isMarked : Bool) (names : List String) (t : Target) : Prop :=
  match t.handle with
  | none => isMarked = false ∧ names = [] ∧ t.element = e
  | some (_, handle) => isMarked = true ∧ IsHandle handle ∧
      t.element.addClass handle = (e.removeAll names).addClass handle

variable {e : Element} {isComponent isMarked : Bool} {names : List String} {t t' : Target} {position : Position}

lemma reached_numbered {number : Nat}
    (h : Gives (numbered t) b (number, t') b') (ht : Reached e isMarked names t) : Reached e true names t' := by
  obtain ⟨element, handle⟩ := t
  obtain ⟨handle, rfl, rfl, -⟩ | ⟨handle, rfl, rfl, -, rfl, -⟩ := gives_numbered h
  · exact ⟨rfl, ht.2⟩
  · obtain ⟨-, rfl, rfl⟩ := ht
    have hhandle := IsHandle.elementHandle b.sequence
    exact ⟨rfl, hhandle, Element.addClass_addClass hhandle.isWord _⟩

lemma reached_attr (h : Gives (attr site position isComponent t a) b t' b')
    (ht : Reached e isMarked names t) :
    Reached e (isMarked || isBound a) (names ++ if isBound a then [a.name] else []) t' := by
  obtain ⟨hevent, hmarkers, rfl, -⟩ | ⟨t₁, rfl, hstep⟩ := gives_attr h
  · have hbound : isBound a = false := by rw [isBound, hevent, hmarkers, Bool.or_false]
    rw [hbound, Bool.or_false, if_neg (by simp), append_nil]
    exact ht
  · have hnumbered : isBound a = true ∧ ∃ number b₁, Gives (numbered t) b (number, t₁) b₁ := by
      rcases hstep with ⟨hevent, h⟩ | ⟨-, hmarkers, h⟩
      · obtain ⟨number, b₁, -, -, hnumbered, -⟩ := gives_event h
        exact ⟨by rw [isBound, hevent, Bool.true_or], number, b₁, hnumbered⟩
      · obtain ⟨number, b₁, -, -, -, hnumbered, -⟩ := gives_attributeValue h
        exact ⟨by rw [isBound, hmarkers, Bool.or_true], number, b₁, hnumbered⟩
    obtain ⟨hbound, number, b₁, hnumbered⟩ := hnumbered
    have ht₁ := reached_numbered hnumbered ht
    rw [hbound, Bool.or_true, if_pos rfl]
    obtain ⟨element, handle⟩ := t₁
    cases handle with
    | none => exact absurd ht₁.1 (by decide)
    | some found =>
      obtain ⟨-, hhandle, helement⟩ := ht₁
      refine ⟨rfl, hhandle, ?_⟩
      have hremove := Element.addClass_removeAll hhandle.isWord [a.name] _ _ helement
      rw [Element.removeAll, foldl_append]
      exact hremove

lemma reached_attrs {attributes : List Attribute}
    (h : Gives (attributes.foldlM (attr site position isComponent) t) b t' b') (ht : Reached e isMarked names t) :
    Reached e (isMarked || attributes.any isBound) (names ++ (attributes.filter isBound).map (·.name)) t' := by
  induction attributes generalizing b t isMarked names with
  | nil =>
    obtain ⟨rfl, -⟩ := gives_pure.1 h
    simpa using ht
  | cons a attributes ih =>
    obtain ⟨t₁, b₁, h1, h2⟩ := gives_bind.1 h
    have hrest := ih h2 (reached_attr h1 ht)
    cases hbound : isBound a with
    | true => simpa [hbound] using hrest
    | false => simpa [hbound] using hrest

lemma any_isTaken_of_ref {value : String} (h : e.value? "ref" = some value) : e.attributes.any isTaken = true := by
  rw [Element.value?, Option.map_eq_some_iff] at h
  obtain ⟨a, ha, -⟩ := h
  have hname := find?_some ha
  exact any_eq_true.2 ⟨a, mem_of_find?_eq_some ha, by rw [isTaken, hname, Bool.true_or]⟩

lemma any_isTaken_of_none (h : e.value? "ref" = none) : e.attributes.any isTaken = e.attributes.any isBound := by
  rw [Element.value?, Option.map_eq_none_iff] at h
  have hnone := find?_eq_none.1 h
  refine Bool.eq_iff_iff.2 ?_
  rw [any_eq_true, any_eq_true]
  refine exists_congr (fun a => and_congr_right (fun ha => ?_))
  have hname : (a.name == "ref") = false := by simpa using hnone a ha
  rw [isTaken, hname, Bool.false_or]

lemma marks_element {b₁ b₂ : Binder} (href : Gives (referenced e) b t b₁)
    (hattrs : Gives (t.element.attributes.foldlM (attr site position isComponent) t) b₂ t' b') :
    Marks e t'.marked (t'.handle.map (·.2)) := by
  obtain ⟨element, handle⟩ := t'
  obtain ⟨hvalue, rfl, -⟩ | ⟨value, name, hvalue, hname, rfl, -⟩ := gives_referenced href
  · have hsame : e.remove "ref" = e := by
      rw [Element.value?, Option.map_eq_none_iff] at hvalue
      rw [Element.remove, Markup.removeFrom_of_findIn hvalue]
    have hstart : Reached (e.remove "ref") false [] ⟨e, none⟩ := ⟨rfl, rfl, hsame.symm⟩
    have hreached := reached_attrs hattrs hstart
    rw [nil_append, ← any_isTaken_of_none hvalue] at hreached
    cases handle with
    | some found =>
      obtain ⟨hmarked, hhandle, helement⟩ := hreached
      refine ⟨hmarked, hhandle, helement.trans ?_⟩
      rw [remainder, boundNames, hsame]
    | none =>
      obtain ⟨hmarked, -, helement⟩ := hreached
      exact ⟨hmarked, helement.trans hsame⟩
  · have hhandle : IsHandle name := hname ▸ IsHandle.referenceHandle _ _
    have hstart : Reached (e.remove "ref") true []
        ⟨(e.remove "ref").addClass name, some ((b.payload.elements.insert name).1, name)⟩ :=
      ⟨rfl, hhandle, Element.addClass_addClass hhandle.isWord _⟩
    have hreached := reached_attrs hattrs hstart
    rw [nil_append] at hreached
    cases handle with
    | some found =>
      obtain ⟨-, hhandle', helement⟩ := hreached
      refine ⟨any_isTaken_of_ref hvalue, hhandle', helement.trans ?_⟩
      rw [remainder, ← boundNames_addClass hhandle (e.remove "ref")]
      rfl
    | none => exact absurd hreached.1 (by simp)

lemma bindsTo_element {bound : Element} (h : Gives (element site position e) b bound b') : BindsTo e bound := by
  obtain ⟨t, b₁, t', href, hattrs, rfl⟩ := gives_element h
  exact (marks_element href hattrs).bindsTo

end Binding

/-! ## What is left of an element -/

/-- Whether taking attributes off by name takes off what has to be taken: there is one reference at most, and among
attributes of one name those that are bound come first. -/
def IsSeparable (e : Element) : Prop :=
  e.attributes.Pairwise (fun a b => a.name = b.name → isTaken b = true → a.name ≠ "ref" ∧ isTaken a = true)

instance (e : Element) : Decidable (IsSeparable e) :=
  inferInstanceAs (Decidable (List.Pairwise _ _))

def kept (e : Element) : Element := ⟨e.tag, e.attributes.filter (fun a => !isTaken a)⟩

/-- What binding should make of an element: it has the attributes that are not there for the binding, and if there are
others a handle class. -/
def Keeps (e bound : Element) : Prop :=
  if e.attributes.any isTaken then ∃ handle, IsHandle handle ∧ bound = (kept e).addClass handle else bound = e

lemma removeAll_boundNames (tag : String) : ∀ as : List Attribute,
    as.Pairwise (fun a b => a.name = b.name → isBound b = true → isBound a = true) →
    (Element.mk tag as).removeAll ((as.filter isBound).map (·.name)) = ⟨tag, as.filter (fun a => !isBound a)⟩
  | [], _ => rfl
  | a :: as, h => by
    obtain ⟨hfirst, hrest⟩ := pairwise_cons.1 h
    have ih := removeAll_boundNames tag as hrest
    cases hbound : isBound a with
    | true =>
      rw [filter_cons_of_pos hbound, filter_cons_of_neg (by simp [hbound])]
      have hremove : (Element.mk tag (a :: as)).remove a.name = ⟨tag, as⟩ := by
        rw [Element.remove, Markup.removeFrom_cons, if_pos rfl]
      show ((Element.mk tag (a :: as)).remove a.name).removeAll _ = _
      rw [hremove, ih]
    | false =>
      rw [filter_cons_of_neg (by simp [hbound]), filter_cons_of_pos (by simp [hbound])]
      -- no attribute that goes has the name of this one
      have hnames : ∀ name ∈ (as.filter isBound).map (·.name), a.name ≠ name := by
        intro name hname heq
        obtain ⟨c, hc, rfl⟩ := mem_map.1 hname
        obtain ⟨hmem, hc⟩ := mem_filter.1 hc
        rw [hfirst c hmem heq hc] at hbound
        cases hbound
      have hstays : ∀ (names : List String) (as : List Attribute), (∀ name ∈ names, a.name ≠ name) →
          (Element.mk tag (a :: as)).removeAll names = ⟨tag, a :: ((Element.mk tag as).removeAll names).attributes⟩ := by
        intro names
        induction names with
        | nil => exact fun as _ => rfl
        | cons name names ihn =>
          intro as hne
          have hremove : (Element.mk tag (a :: as)).remove name = ⟨tag, a :: Markup.removeFrom as name⟩ := by
            rw [Element.remove, Markup.removeFrom_cons, if_neg (hne name mem_cons_self)]
          show ((Element.mk tag (a :: as)).remove name).removeAll names = _
          rw [hremove, ihn _ (fun other hother => hne other (mem_cons_of_mem _ hother))]
          rfl
      rw [hstays _ as hnames, ih]

lemma removeFrom_ref : ∀ as : List Attribute, as.Pairwise (fun a b => a.name = "ref" → b.name ≠ "ref") →
    Markup.removeFrom as "ref" = as.filter (fun a => a.name != "ref")
  | [], _ => rfl
  | a :: as, h => by
    obtain ⟨hfirst, hrest⟩ := pairwise_cons.1 h
    rw [Markup.removeFrom_cons]
    by_cases hname : a.name = "ref"
    · rw [if_pos hname, filter_cons_of_neg (by simp [hname])]
      exact (filter_eq_self.2 (fun b hb => by simpa using hfirst b hb hname)).symm
    · rw [if_neg hname, filter_cons_of_pos (by simp [hname]), removeFrom_ref as hrest]

lemma remainder_of_isSeparable (h : IsSeparable e) : remainder e = kept e := by
  have href : Markup.removeFrom e.attributes "ref" = e.attributes.filter (fun a => a.name != "ref") := by
    refine removeFrom_ref _ (h.imp ?_)
    intro a b hab ha hb
    exact (hab (ha.trans hb.symm) (by rw [isTaken, hb]; rfl)).1 ha
  have hbound : (e.attributes.filter (fun a => a.name != "ref")).Pairwise
      (fun a b => a.name = b.name → isBound b = true → isBound a = true) := by
    refine (h.sublist filter_sublist).imp_of_mem ?_
    intro a b ha _ hab hname hb
    obtain ⟨-, htaken⟩ := hab hname (by rw [isTaken, hb, Bool.or_true])
    have hne : (a.name == "ref") = false := by simpa using (mem_filter.1 ha).2
    rwa [isTaken, hne, Bool.false_or] at htaken
  rw [remainder, boundNames, Element.remove, href, removeAll_boundNames _ _ hbound, filter_filter]
  refine congrArg (Element.mk e.tag) (filter_congr (fun a _ => ?_))
  rw [isTaken, Bool.not_or, Bool.and_comm]
  rfl

lemma keeps_of_bindsTo (h : BindsTo e bound) (hsep : IsSeparable e) : Keeps e bound := by
  unfold BindsTo at h
  rwa [remainder_of_isSeparable hsep] at h

lemma tag_addClass (e : Element) (c : String) : (e.addClass c).tag = e.tag := by
  rw [Element.addClass_eq]
  split <;> rfl

lemma tag_of_bindsTo (h : BindsTo e bound) : bound.tag = e.tag := by
  unfold BindsTo at h
  split at h
  · obtain ⟨handle, -, rfl⟩ := h
    rw [tag_addClass, remainder, Element.tag_removeAll]
    rfl
  · rw [h]

lemma tag_of_keeps (h : Keeps e bound) : bound.tag = e.tag := by
  unfold Keeps at h
  split at h
  · obtain ⟨handle, -, rfl⟩ := h
    rw [tag_addClass, kept]
  · rw [h]

lemma mem_addClass (h : a ∈ (e.addClass handle).attributes) :
    a ∈ e.attributes ∨ a.name = "class" := by
  have hset : ∀ (x : Attribute) (as : List Attribute), x.name = "class" → a ∈ Markup.setIn as x →
      a ∈ as ∨ a.name = "class" := by
    intro x as hx
    induction as with
    | nil =>
      intro hmem
      rw [Markup.setIn, mem_singleton] at hmem
      exact Or.inr (hmem ▸ hx)
    | cons b as ih =>
      intro hmem
      rw [Markup.setIn_cons] at hmem
      split at hmem
      · rename_i hb
        rcases mem_cons.1 hmem with rfl | hmem
        · exact Or.inr (hb.trans hx)
        · exact Or.inl (.tail _ hmem)
      · rcases mem_cons.1 hmem with rfl | hmem
        · exact Or.inl (.head _)
        · exact (ih hmem).imp_left (mem_cons_of_mem _)
  rw [Element.addClass_eq] at h
  split at h
  · exact Or.inl h
  · refine hset _ _ ?_ h
    rw [Attribute.name_new, Element.normalName_class]

lemma isEvent_of_bindsTo (h : BindsTo e bound) : ∀ a ∈ bound.attributes, isEvent a.name = false := by
  have hremainder : ∀ a ∈ (remainder e).attributes, isEvent a.name = false := by
    intro a ha
    refine Bool.eq_false_iff.2 (fun hevent => ?_)
    have hcount := Element.countP_removeAll a.name (boundNames (e.remove "ref")) (e.remove "ref")
    have hall : (boundNames (e.remove "ref")).count a.name =
        (e.remove "ref").attributes.countP (fun b => b.name == a.name) := by
      rw [boundNames, count, countP_map, countP_filter]
      refine countP_congr (fun b _ => ?_)
      by_cases hb : b.name = a.name
      · simp [hb, isBound, hevent]
      · simp [hb]
    rw [hall, Nat.sub_self] at hcount
    exact (countP_eq_zero.1 hcount) a ha (by simp)
  unfold BindsTo at h
  split at h
  · obtain ⟨handle, -, rfl⟩ := h
    intro a ha
    rcases mem_addClass ha with ha | ha
    · exact hremainder a ha
    · rw [ha]
      decide
  · rename_i hnone
    subst h
    intro a ha
    have htaken : isTaken a = false := by
      rw [Bool.not_eq_true, any_eq_false] at hnone
      simpa using hnone a ha
    rw [isTaken, isBound, Bool.or_eq_false_iff, Bool.or_eq_false_iff] at htaken
    exact htaken.2.1

lemma isTaken_of_keeps (h : Keeps e bound) : ∀ a ∈ bound.attributes, isTaken a = false := by
  have hkept : ∀ a ∈ (kept e).attributes, isTaken a = false := fun a ha => by simpa using (mem_filter.1 ha).2
  unfold Keeps at h
  split at h
  · obtain ⟨handle, hhandle, rfl⟩ := h
    have hnames : boundNames ((kept e).addClass handle) = [] := by
      rw [boundNames_addClass hhandle, boundNames, map_eq_nil_iff, filter_eq_nil_iff]
      intro a ha hbound
      have := hkept a ha
      rw [isTaken, hbound, Bool.or_true] at this
      cases this
    intro a ha
    have hbound : isBound a = false := by
      rw [boundNames, map_eq_nil_iff, filter_eq_nil_iff] at hnames
      simpa using hnames a ha
    rcases mem_addClass ha with ha | ha
    · exact hkept a ha
    · rw [isTaken, ha, hbound]
      decide
  · rename_i hnone
    subst h
    intro a ha
    rw [Bool.not_eq_true, any_eq_false] at hnone
    simpa using hnone a ha

end Component
end ReactiveTemplate
