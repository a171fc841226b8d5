import ReactiveTemplate.Proofs.Template.Meaning
/-!
# Assigned — which attribute an interpolation writes

An interpolation is read from one attribute and written by name.
-/
set_option linter.all false

namespace ReactiveTemplate
open List
open Interpolation

open Markup (Element Attribute)

/-- The value that the interpolations of an element assign to a name: that of the last attribute of the name that has
some. -/
def assigned (scope : Json) (as : List Attribute) (name : String) : Option String :=
  (as.reverse.find? (fun a => a.name == name && hasMarkers a.value)).map
    (fun a => Meaning.value scope a.value)

/-- **An element with its interpolated attributes**: its attributes are those that are written, in their order.  Of
the attributes of one name the first takes what is assigned to the name, and the others stay. -/
structure Interpolated (scope : Json) (e shown : Element) : Prop where
  tag_eq : shown.tag = e.tag
  rawNames_eq : shown.attributes.map (·.rawName) = e.attributes.map (·.rawName)
  own : ∀ before a after, e.attributes = before ++ a :: after → hasMarkers a.value = true →
    (∀ b ∈ before, b.name ≠ a.name) → (∀ b ∈ after, b.name = a.name → hasMarkers b.value = false) →
    shown.attributes[before.length]? = some (a.withValue (Meaning.value scope a.value))
  kept : ∀ before a after, e.attributes = before ++ a :: after → hasMarkers a.value = false →
    ((∃ b ∈ before, b.name = a.name) ∨ ∀ b ∈ after, b.name = a.name → hasMarkers b.value = false) →
    shown.attributes[before.length]? = some a
  first : ∀ before a after, e.attributes = before ++ a :: after → (∀ b ∈ before, b.name ≠ a.name) →
    shown.attributes[before.length]? = some (a.withValue ((assigned scope e.attributes a.name).getD a.value))
  later : ∀ before a after, e.attributes = before ++ a :: after → (∃ b ∈ before, b.name = a.name) →
    shown.attributes[before.length]? = some a

/-! ## Attributes and values for their names -/

/-- Attributes with values for some names: the first attribute of a name that was not seen before takes its value. -/
def given (f : String → Option String) : List String → List Attribute → List Attribute
  | _, [] => []
  | seen, a :: as =>
    (if a.name ∈ seen then a else a.withValue ((f a.name).getD a.value)) :: given f (a.name :: seen) as

lemma given_none : ∀ (seen : List String) (as : List Attribute), given (fun _ => none) seen as = as
  | _, [] => rfl
  | seen, a :: as => by
    rw [given, given_none, Option.getD_none, Meaning.withValue_self, ite_self]

lemma given_congr {f g : String → Option String} : ∀ {seen : List String} (as : List Attribute),
    (∀ name, name ∉ seen → f name = g name) → given f seen as = given g seen as
  | _, [], _ => rfl
  | seen, a :: as, h => by
    have hrest : given f (a.name :: seen) as = given g (a.name :: seen) as :=
      given_congr as (fun name hname => h name (fun hmem => hname (.tail _ hmem)))
    rw [given, given, hrest]
    by_cases hseen : a.name ∈ seen
    · rw [if_pos hseen, if_pos hseen]
    · rw [if_neg hseen, if_neg hseen, h a.name hseen]

lemma setIn_given {x : Attribute} {f : String → Option String} : ∀ {seen : List String} {as : List Attribute},
    x.name ∉ seen → (∃ a ∈ as, a.name = x.name) →
    Markup.setIn (given f seen as) x = given (Function.update f x.name (some x.value)) seen as
  | _, [], _, h => nomatch h
  | seen, a :: as, hseen, hmem => by
    have hhead : (if a.name ∈ seen then a else a.withValue ((f a.name).getD a.value)).name = a.name := by
      split <;> rfl
    rw [given, given, Markup.setIn, hhead]
    by_cases heq : a.name = x.name
    · have hrest : given f (a.name :: seen) as =
          given (Function.update f x.name (some x.value)) (a.name :: seen) as := by
        refine given_congr as (fun name hname => ?_)
        rw [Function.update_of_ne]
        rintro rfl
        exact hname (heq ▸ (.head _))
      rw [if_pos (by simpa using heq), if_neg (heq ▸ hseen), if_neg (heq ▸ hseen), hrest, heq, Function.update_self]
      rfl
    · have hmem' : ∃ b ∈ as, b.name = x.name := by
        obtain ⟨b, hb, hname⟩ := hmem
        rcases mem_cons.1 hb with rfl | hb
        · exact absurd hname heq
        · exact ⟨b, hb, hname⟩
      have hseen' : x.name ∉ a.name :: seen := by
        rw [mem_cons, not_or]
        exact ⟨Ne.symm heq, hseen⟩
      rw [if_neg (by simpa using heq), setIn_given hseen' hmem', Function.update_of_ne heq]

lemma rawNames_given (f : String → Option String) : ∀ (seen : List String) (as : List Attribute),
    (given f seen as).map (·.rawName) = as.map (·.rawName)
  | _, [] => rfl
  | seen, a :: as => by
    rw [given, map_cons, rawNames_given]
    split <;> rfl

lemma getElem?_given (f : String → Option String) (a : Attribute) (after : List Attribute) :
    ∀ (before : List Attribute) (seen : List String), (given f seen (before ++ a :: after))[before.length]? =
      some (if a.name ∈ seen ∨ ∃ b ∈ before, b.name = a.name then a else a.withValue ((f a.name).getD a.value))
  | [], seen => by simp [given]
  | b :: before, seen => by
    rw [cons_append, given, length_cons, getElem?_cons_succ, getElem?_given]
    have hiff : (a.name ∈ b.name :: seen ∨ ∃ b' ∈ before, b'.name = a.name) ↔
        (a.name ∈ seen ∨ ∃ b' ∈ b :: before, b'.name = a.name) := by
      rw [mem_cons, exists_mem_cons_iff, eq_comm]
      tauto
    simp only [hiff]

/-! ## Interpolations one after the other -/

def overlaid (scope : Json) (f : String → Option String) (as : List Attribute) : String → Option String :=
  as.foldl (fun f a => Function.update f a.name (some (Meaning.value scope a.value))) f

lemma overlaid_eq (scope : Json) (name : String) : ∀ (as : List Attribute) (f : String → Option String),
    overlaid scope f (as.filter (fun a => hasMarkers a.value)) name = (assigned scope as name).or (f name)
  | [], f => rfl
  | a :: as, f => by
    have ih := overlaid_eq scope name as
    rw [assigned, reverse_cons, find?_append, Option.map_or, ← assigned]
    by_cases hmarkers : hasMarkers a.value = true
    · rw [filter_cons, if_pos hmarkers, overlaid, foldl_cons, ← overlaid, ih]
      by_cases hname : a.name = name
      · simp [hname, hmarkers]
      · simp [hname, Function.update_of_ne (Ne.symm hname)]
    · rw [filter_cons, if_neg hmarkers, ih]
      simp [hmarkers]

/-- An attribute value does not hold a placeholder ahead of its interpolation, whatever has been drawn before. -/
def IsClearUpTo (salt : String) (count : Nat) (a : Attribute) : Prop :=
  ∀ n ≤ count, isClear a.value ⟨salt, n⟩ = true

instance (salt : String) (count : Nat) (a : Attribute) : Decidable (IsClearUpTo salt count a) :=
  inferInstanceAs (Decidable (∀ n ≤ count, isClear a.value ⟨salt, n⟩ = true))

lemma counter_fill : ∀ (as : List Attribute) (e : Json → Element) (s : Sequence),
    s.counter ≤ (Page.fill as e s).2.counter
  | [], _, _ => Nat.le_refl _
  | a :: as, _, s => Nat.le_trans (counter_scan a.value s) (counter_fill as _ _)

lemma fill_given {scope : Json} {tag : String} {source : List Attribute} {count : Nat} :
    ∀ (as : List Attribute) (e : Json → Element) (s : Sequence) (f : String → Option String),
    (∀ a ∈ as, a ∈ source ∧ a.name = Markup.normalName a.rawName ∧ IsClearUpTo s.salt count a) →
    (Page.fill as e s).2.counter ≤ count → e scope = ⟨tag, given f [] source⟩ →
    (Page.fill as e s).1 scope = ⟨tag, given (overlaid scope f as) [] source⟩
  | [], _, _, _, _, _, he => he
  | a :: as, e, s, f, has, hcount, he => by
    obtain ⟨hmem, hname, hclear⟩ := has a (.head _)
    have hnext : (scan a.value s).2.counter ≤ count := Nat.le_trans (counter_fill as _ _) hcount
    have hvalue := Meaning.ofList_attributeText (hclear s.counter (Nat.le_trans (counter_scan a.value s) hnext)) scope
    refine fill_given as _ _ _ (fun b hb => ?_) hcount ?_
    · rw [salt_scan]
      exact has b (.tail _ hb)
    · have hnew : ∀ v, (Attribute.new a.rawName v).name = a.name := fun v => (Attribute.name_new _ v).trans hname.symm
      simp only [he, Element.set]
      rw [hvalue, setIn_given not_mem_nil ⟨a, hmem, (hnew _).symm⟩, hnew, Attribute.value_new]

lemma interpolated_filled {e : Element} {s : Sequence} {count : Nat}
    (hnamed : ∀ a ∈ e.attributes, a.name = Markup.normalName a.rawName)
    (hclear : ∀ a ∈ e.attributes, IsClearUpTo s.salt count a) (hcount : (Page.filled e s).2.counter ≤ count)
    (scope : Json) : Interpolated scope e ((Page.filled e s).1 scope) := by
  have hsource : ∀ a ∈ e.attributes.filter (fun a => hasMarkers a.value),
      a ∈ e.attributes ∧ a.name = Markup.normalName a.rawName ∧ IsClearUpTo s.salt count a := by
    intro a ha
    have ha' := (mem_filter.1 ha).1
    exact ⟨ha', hnamed a ha', hclear a ha'⟩
  have hlaw : (Page.filled e s).1 scope = ⟨e.tag, given (assigned scope e.attributes) [] e.attributes⟩ := by
    rw [Page.filled, fill_given _ _ s (fun _ => none) hsource hcount (by rw [given_none])]
    congr 2
    funext name
    rw [overlaid_eq, Option.or_none]
  have hplace : ∀ (before : List Attribute) (a : Attribute) (after : List Attribute), e.attributes = before ++ a :: after →
      ((Page.filled e s).1 scope).attributes[before.length]? =
        some (if ∃ b ∈ before, b.name = a.name then a
          else a.withValue ((assigned scope e.attributes a.name).getD a.value)) := by
    intro before a after heq
    rw [hlaw]
    rw [heq, getElem?_given]
    simp
  -- nothing is assigned by what is not interpolated, so the last one is `a` or there is none
  have hlast : ∀ (before : List Attribute) (a : Attribute) (after : List Attribute),
      e.attributes = before ++ a :: after → (∀ b ∈ before, b.name ≠ a.name) →
      (∀ b ∈ after, b.name = a.name → hasMarkers b.value = false) →
      assigned scope e.attributes a.name =
        if hasMarkers a.value then some (Meaning.value scope a.value) else none := by
    intro before a after heq hbefore hafter
    have hnone : ∀ bs : List Attribute,
        (∀ b ∈ bs, b.name = a.name → hasMarkers b.value = false) →
        bs.reverse.find? (fun b => b.name == a.name && hasMarkers b.value) = none := by
      intro bs hbs
      refine find?_eq_none.2 (fun b hb => ?_)
      have := hbs b (mem_reverse.1 hb)
      simpa using this
    have hbefore' := hnone before (fun b hb hname => absurd hname (hbefore b hb))
    rw [assigned, heq, reverse_append, reverse_cons, append_assoc, find?_append, hnone after hafter,
      singleton_append, find?_cons, hbefore']
    by_cases hmarkers : hasMarkers a.value = true
    · simp [hmarkers]
    · simp [hmarkers]
  refine ⟨by rw [hlaw], by rw [hlaw]; exact rawNames_given _ _ _, ?_, ?_, ?_, ?_⟩
  · intro before a after heq hmarkers hbefore hafter
    rw [hplace before a after heq, if_neg (not_exists.2 fun b hb => hbefore b hb.1 hb.2),
      hlast before a after heq hbefore hafter, if_pos hmarkers, Option.getD_some]
  · intro before a after heq hmarkers hother
    rw [hplace before a after heq]
    by_cases hahead : ∃ b ∈ before, b.name = a.name
    · rw [if_pos hahead]
    · rw [if_neg hahead, hlast before a after heq (fun b hb hname => hahead ⟨b, hb, hname⟩)
        (hother.resolve_left hahead), hmarkers]
      rfl
  · intro before a after heq hbefore
    rw [hplace before a after heq, if_neg (not_exists.2 fun b hb => hbefore b hb.1 hb.2)]
  · intro before a after heq hahead
    rw [hplace before a after heq, if_pos hahead]

end ReactiveTemplate
