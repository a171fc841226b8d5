import ReactiveTemplate.Markup.Element
import ReactiveTemplate.Proofs.Text.Words
/-!
# Attributes — an element with a class, and without attributes

Attributes are looked up by name, and of several with one name the first is found, set and removed.
-/
set_option linter.all false

namespace ReactiveTemplate.Markup
open List

section

variable {x : Attribute} {name : String}

lemma removeFrom_cons (a : Attribute) (as : List Attribute) (name : String) :
    removeFrom (a :: as) name = if a.name = name then as else a :: removeFrom as name := by
  rw [removeFrom, eraseP_cons]
  by_cases h : a.name = name
  · simp [h]
  · have hname : (a.name == name) = false := by simpa using h
    rw [if_neg h, hname]
    rfl

lemma setIn_cons (a : Attribute) (as : List Attribute) (x : Attribute) :
    setIn (a :: as) x = if a.name = x.name then a.withValue x.value :: as else a :: setIn as x := by
  rw [setIn]
  simp [beq_iff_eq]

lemma findIn_cons (a : Attribute) (as : List Attribute) (name : String) :
    findIn (a :: as) name = if a.name = name then some a else findIn as name := by
  rw [findIn, find?_cons]
  by_cases h : a.name = name
  · simp [h]
  · have hname : (a.name == name) = false := by simpa using h
    rw [if_neg h, hname]
    rfl

lemma removeFrom_setIn_self : ∀ as : List Attribute, removeFrom (setIn as x) x.name = removeFrom as x.name
  | [] => by simp [setIn, removeFrom]
  | a :: as => by
    rw [setIn_cons, removeFrom_cons]
    by_cases h : a.name = x.name
    · rw [if_pos h, if_pos h, removeFrom_cons, if_pos (show (a.withValue x.value).name = x.name from h)]
    · rw [if_neg h, if_neg h, removeFrom_cons, if_neg h, removeFrom_setIn_self as]

lemma removeFrom_setIn (h : name ≠ x.name) : ∀ as : List Attribute,
    removeFrom (setIn as x) name = setIn (removeFrom as name) x
  | [] => by simp [setIn, removeFrom, h.symm]
  | a :: as => by
    rw [setIn_cons, removeFrom_cons]
    by_cases hx : a.name = x.name
    · have hname : a.name ≠ name := fun heq => h (heq.symm.trans hx)
      rw [if_pos hx, if_neg hname, setIn_cons, if_pos hx, removeFrom_cons,
        if_neg (show (a.withValue x.value).name ≠ name from hname)]
    · rw [if_neg hx, removeFrom_cons]
      by_cases hname : a.name = name
      · rw [if_pos hname, if_pos hname]
      · rw [if_neg hname, if_neg hname, setIn_cons, if_neg hx, removeFrom_setIn h as]

lemma findIn_removeFrom {other : String} (h : other ≠ name) : ∀ as : List Attribute,
    findIn (removeFrom as name) other = findIn as other
  | [] => rfl
  | a :: as => by
    rw [removeFrom_cons, findIn_cons]
    by_cases hname : a.name = name
    · rw [if_pos hname, if_neg (fun heq => h (heq.symm.trans hname))]
    · rw [if_neg hname, findIn_cons, findIn_removeFrom h as]

lemma findIn_setIn : ∀ as : List Attribute, (findIn (setIn as x) x.name).map (·.value) = some x.value
  | [] => by simp [setIn, findIn]
  | a :: as => by
    rw [setIn_cons]
    by_cases h : a.name = x.name
    · rw [if_pos h, findIn_cons, if_pos (show (a.withValue x.value).name = x.name from h)]
      rfl
    · rw [if_neg h, findIn_cons, if_neg h, findIn_setIn as]

lemma removeFrom_of_findIn : ∀ {as : List Attribute}, findIn as name = none → removeFrom as name = as
  | [], _ => rfl
  | a :: as, h => by
    rw [findIn_cons] at h
    split at h
    · cases h
    · rename_i hname
      rw [removeFrom_cons, if_neg hname, removeFrom_of_findIn h]

lemma countP_removeFrom (name other : String) (as : List Attribute) :
    (removeFrom as name).countP (fun a => a.name == other) =
      as.countP (fun a => a.name == other) - if other = name then 1 else 0 := by
  induction as with
  | nil => simp [removeFrom]
  | cons a as ih =>
    rw [removeFrom_cons, countP_cons]
    by_cases hname : a.name = name
    · rw [if_pos hname]
      by_cases hother : other = name
      · simp [hname, hother]
      · have : (a.name == other) = false := by simpa [hname] using Ne.symm hother
        simp [this, hother]
    · rw [if_neg hname, countP_cons, ih]
      by_cases hother : other = name
      · have : (a.name == other) = false := by simpa [hother] using hname
        simp [this]
      · simp [hother]

end

namespace Element

variable {e : Element} {c : String}

lemma normalName_class : normalName "class" = "class" := by decide +kernel

-- Whether two names are equal is decided by what is known of them, never by unfolding them.
attribute [local irreducible] normalName

def classesWith (current c : String) : String :=
  if (Text.trim current).isEmpty then c else Text.trim current ++ " " ++ c

lemma addClass_eq (e : Element) (c : String) : e.addClass c =
    if c ∈ Text.words ((e.value? "class").getD "") then e
    else e.set "class" (classesWith ((e.value? "class").getD "") c) := by
  rw [addClass, classesWith]
  simp [contains_iff_mem]

lemma remove_set (e : Element) {raw name : String} (h : name ≠ normalName raw) (value : String) :
    (e.set raw value).remove name = (e.remove name).set raw value := by
  have := removeFrom_setIn (x := Attribute.new raw value) h e.attributes
  rw [set, remove, this]
  rfl

lemma remove_set_self (e : Element) (raw value : String) :
    (e.set raw value).remove (normalName raw) = e.remove (normalName raw) := by
  have := removeFrom_setIn_self (x := Attribute.new raw value) e.attributes
  exact congrArg (Element.mk e.tag) this

lemma value?_remove (e : Element) {name other : String} (h : other ≠ name) :
    (e.remove name).value? other = e.value? other := by
  rw [value?, attribute?, remove, findIn_removeFrom h]
  rfl

lemma value?_set (e : Element) (raw value : String) : (e.set raw value).value? (normalName raw) = some value :=
  findIn_setIn e.attributes

lemma remove_addClass_class (e : Element) (c : String) : (e.addClass c).remove "class" = e.remove "class" := by
  rw [addClass_eq]
  split
  · rfl
  · have := e.remove_set_self "class" (classesWith ((e.value? "class").getD "") c)
    rwa [normalName_class] at this

lemma remove_addClass (e : Element) (c : String) {name : String} (h : name ≠ "class") :
    (e.addClass c).remove name = (e.remove name).addClass c := by
  rw [addClass_eq, addClass_eq, e.value?_remove h.symm]
  split
  · rfl
  · exact e.remove_set (by rwa [normalName_class]) _

lemma words_classesWith (hc : Text.IsWord c) (current : String) :
    Text.words (classesWith current c) = Text.words current ++ [c] := by
  rw [classesWith]
  split
  · rename_i hempty
    have hblank : Text.trim current = "" := String.isEmpty_iff.1 hempty
    have hnone := Text.words_trim current
    rw [hblank] at hnone
    rw [hc.words_eq, ← hnone]
    rfl
  · rw [hc.words_append, Text.words_trim]

lemma mem_words_addClass (hc : Text.IsWord c) (e : Element) (d : String) :
    d ∈ Text.words (((e.addClass c).value? "class").getD "") ↔ d ∈ Text.words ((e.value? "class").getD "") ∨ d = c := by
  rw [addClass_eq]
  split
  · rename_i hmem
    exact ⟨Or.inl, fun h => h.elim id (fun hd => hd ▸ hmem)⟩
  · have hvalue := e.value?_set "class" (classesWith ((e.value? "class").getD "") c)
    rw [normalName_class] at hvalue
    rw [hvalue, Option.getD_some, words_classesWith hc, mem_append, mem_singleton]

lemma addClass_addClass (hc : Text.IsWord c) (e : Element) : (e.addClass c).addClass c = e.addClass c := by
  rw [addClass_eq (e.addClass c), if_pos ((mem_words_addClass hc e c).2 (Or.inr rfl))]

def removeAll (e : Element) (names : List String) : Element := names.foldl remove e

lemma addClass_remove_addClass (hc : Text.IsWord c) (e : Element) (name : String) :
    ((e.addClass c).remove name).addClass c = (e.remove name).addClass c := by
  by_cases h : name = "class"
  · rw [h, remove_addClass_class]
  · rw [remove_addClass e c h, addClass_addClass hc]

lemma addClass_removeAll (hc : Text.IsWord c) : ∀ (names : List String) (e e' : Element), e.addClass c = e'.addClass c →
    (e.removeAll names).addClass c = (e'.removeAll names).addClass c
  | [], _, _, h => h
  | name :: names, e, e', h => by
    refine addClass_removeAll hc names (e.remove name) (e'.remove name) ?_
    rw [← addClass_remove_addClass hc e, h, addClass_remove_addClass hc e']

lemma tag_removeAll (names : List String) : ∀ e : Element, (e.removeAll names).tag = e.tag := by
  induction names with
  | nil => exact fun e => rfl
  | cons name names ih => exact fun e => ih (e.remove name)

lemma countP_removeAll (other : String) : ∀ (names : List String) (e : Element),
    (e.removeAll names).attributes.countP (fun a => a.name == other) =
      e.attributes.countP (fun a => a.name == other) - names.count other
  | [], e => by simp [removeAll]
  | name :: names, e => by
    have ih := countP_removeAll other names (e.remove name)
    rw [remove, countP_removeFrom] at ih
    show ((e.remove name).removeAll names).attributes.countP _ = _
    rw [remove, ih, Nat.sub_sub]
    by_cases h : other = name
    · simp [h, Nat.add_comm]
    · simp [h, Ne.symm h]

end Element
end ReactiveTemplate.Markup
