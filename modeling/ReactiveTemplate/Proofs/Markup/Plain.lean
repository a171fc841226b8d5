import ReactiveTemplate.Markup.Tree
import Mathlib
/-!
# Plain — trees that marks cannot be mistaken in

A plain tree holds no component, nowhere the character that starts a mark, and plain attribute names only.  What is
written of it holds no start of a mark.
-/
set_option linter.all false

namespace ReactiveTemplate.Markup
open List

variable {c : Char} {a : Attribute}

def isUnmarked (s : String) : Bool := !s.toList.contains '␣'

def isNameChar (c : Char) : Bool := c.isAlphanum || ['-', '_', ':', '.', '@'].contains c

def Attribute.isPlain (a : Attribute) : Bool :=
  !a.rawName.isEmpty && a.rawName.toList.all isNameChar && isUnmarked a.value

/-- Whether an attribute has a name that starts with something that is not blank, and no start of a mark. -/
def Attribute.isClean (a : Attribute) : Bool :=
  a.rawName.toList.head?.any (fun c => !Text.isBlank c) && isUnmarked a.rawName && isUnmarked a.value

def Kind.isPlain : Kind → Bool
  | .document => true
  | .element e => e.tag != "component" && isUnmarked e.tag && e.attributes.all Attribute.isPlain
  | .text s | .comment s | .doctype s | .raw s => isUnmarked s

def Tree.isPlain (t : Tree) : Bool := t.preorder.all (fun u => u.kind.isPlain)

def Kind.isClean : Kind → Bool
  | .document => true
  | .element e => isUnmarked e.tag && e.attributes.all Attribute.isClean
  | .text s | .comment s | .doctype s | .raw s => isUnmarked s

lemma not_mem_of_isUnmarked {s : String} (h : isUnmarked s = true) : '␣' ∉ s.toList := by
  simpa [isUnmarked] using h

/-! ## Names -/

lemma isNameChar_iff : isNameChar c = true ↔
    c.isAlphanum = true ∨ c = '-' ∨ c = '_' ∨ c = ':' ∨ c = '.' ∨ c = '@' := by
  simp [isNameChar]

lemma toNat_of_isAlphanum (h : c.isAlphanum = true) :
    (65 ≤ c.toNat ∧ c.toNat ≤ 90) ∨ (97 ≤ c.toNat ∧ c.toNat ≤ 122) ∨ (48 ≤ c.toNat ∧ c.toNat ≤ 57) := by
  simp only [Char.isAlphanum, Char.isAlpha, Char.isUpper, Char.isLower, Char.isDigit, Bool.or_eq_true,
    Bool.and_eq_true, decide_eq_true_eq] at h
  rcases h with (h | h) | h
  · exact Or.inl h
  · exact Or.inr (Or.inl h)
  · exact Or.inr (Or.inr h)

lemma toNat_of_isNameChar (h : isNameChar c = true) : 33 ≤ c.toNat ∧ c.toNat ≤ 122 := by
  rcases isNameChar_iff.1 h with h | rfl | rfl | rfl | rfl | rfl
  · have := toNat_of_isAlphanum h
    omega
  all_goals decide

lemma isBlank_of_isNameChar (h : isNameChar c = true) : Text.isBlank c = false := by
  have := toNat_of_isNameChar h
  simp only [Text.isBlank, Bool.or_eq_false_iff, Bool.and_eq_false_iff, decide_eq_false_iff_not, beq_eq_false_iff_ne]
  omega

lemma ne_of_isClass {p : Char → Bool} {d : Char} (hc : p c = true) (hd : p d = false) : c ≠ d := by
  rintro rfl
  exact absurd hc (by simp [hd])

namespace Attribute

@[simp] lemma rawName_new (rawName value : String) : (new rawName value).rawName = rawName := rfl

@[simp] lemma value_new (rawName value : String) : (new rawName value).value = value := rfl

lemma name_new (rawName value : String) : (new rawName value).name = normalName rawName := by rw [new]

lemma isPlain_iff : a.isPlain = true ↔
    a.rawName.toList ≠ [] ∧ (∀ c ∈ a.rawName.toList, isNameChar c = true) ∧ '␣' ∉ a.value.toList := by
  simp [isPlain, isUnmarked, and_assoc]

def IsLed (a : Attribute) : Prop := ∃ c cs, a.rawName.toList = c :: cs ∧ Text.isBlank c = false

lemma isClean_iff : a.isClean = true ↔
    a.IsLed ∧ '␣' ∉ a.rawName.toList ∧ '␣' ∉ a.value.toList := by
  have hled : a.rawName.toList.head?.any (fun c => !Text.isBlank c) = true ↔ a.IsLed := by
    unfold IsLed
    cases a.rawName.toList with
    | nil => simp
    | cons c cs => simp
  rw [isClean, Bool.and_eq_true, Bool.and_eq_true, hled, and_assoc]
  simp [isUnmarked]

lemma isClean_of_isPlain (h : a.isPlain = true) : a.isClean = true := by
  obtain ⟨hne, hchars, hvalue⟩ := isPlain_iff.1 h
  obtain ⟨c, cs, hcs⟩ := exists_cons_of_ne_nil hne
  refine isClean_iff.2 ⟨⟨c, cs, hcs, ?_⟩, fun hmem => ne_of_isClass (hchars _ hmem) (by decide) rfl, hvalue⟩
  exact isBlank_of_isNameChar (hchars c (by rw [hcs]; exact (.head _)))

end Attribute

/-! ## What is written -/

lemma not_mem_escapeTextChar (h : '␣' ≠ c) : '␣' ∉ escapeTextChar c := by
  unfold escapeTextChar
  split
  · decide
  · split
    · decide
    · split
      · decide
      · simpa using h

lemma not_mem_escapeValueChar (h : '␣' ≠ c) : '␣' ∉ escapeValueChar c := by
  unfold escapeValueChar
  split
  · decide
  · split
    · decide
    · simpa using h

lemma not_mem_flatMap {f : Char → List Char} (hf : ∀ {c : Char}, '␣' ≠ c → '␣' ∉ f c) {cs : List Char}
    (h : '␣' ∉ cs) : '␣' ∉ cs.flatMap f := by
  intro hmem
  obtain ⟨c, hc, hmem⟩ := mem_flatMap.1 hmem
  exact hf (fun heq => h (heq ▸ hc)) hmem

@[simp] lemma toList_escapeText (s : String) : (escapeText s).toList = s.toList.flatMap escapeTextChar := by
  simp [escapeText, Text.flatMap]

@[simp] lemma toList_escapeValue (s : String) : (escapeValue s).toList = s.toList.flatMap escapeValueChar := by
  simp [escapeValue, Text.flatMap]

@[simp] lemma toList_escapeHtml (s : String) : (escapeHtml s).toList = s.toList.flatMap escapeHtmlChar := by
  simp [escapeHtml, Text.flatMap]

lemma Attribute.toList_render (a : Attribute) : a.render.toList =
    ' ' :: (a.rawName.toList ++
      if a.value.toList = [] then [] else '=' :: '"' :: (a.value.toList.flatMap escapeValueChar ++ ['"'])) := by
  unfold Attribute.render
  by_cases h : a.value = ""
  · simp [h]
  · simp [h]

lemma toList_renderAttributes (as : List Attribute) :
    (renderAttributes as).toList = as.flatMap (fun a => a.render.toList) := by
  rw [renderAttributes, String.toList_join, flatMap_map]

lemma Element.toList_opening (e : Element) :
    e.opening.toList = '<' :: (e.tag.toList ++ ((renderAttributes e.attributes).toList ++ ['>'])) := by
  simp [Element.opening]

lemma Element.toList_closing (e : Element) : e.closing.toList = '<' :: '/' :: (e.tag.toList ++ ['>']) := by
  simp [Element.closing]

lemma Attribute.not_mem_render (h : a.isClean = true) : '␣' ∉ a.render.toList := by
  obtain ⟨-, hname, hvalue⟩ := isClean_iff.1 h
  rw [toList_render]
  split
  · simp [hname]
  · simp only [mem_cons, mem_append, not_or]
    exact ⟨by decide, hname, by decide, by decide, not_mem_flatMap not_mem_escapeValueChar hvalue, by decide⟩

lemma not_mem_renderAttributes {as : List Attribute} (h : ∀ a ∈ as, a.isClean = true) :
    '␣' ∉ (renderAttributes as).toList := by
  rw [toList_renderAttributes, mem_flatMap]
  rintro ⟨a, ha, hmem⟩
  exact Attribute.not_mem_render (h a ha) hmem

lemma cons_trimStart_renderAttributes {as : List Attribute} (hne : as ≠ []) (h : ∀ a ∈ as, a.IsLed) :
    ' ' :: (Text.trimStart (renderAttributes as)).toList = (renderAttributes as).toList := by
  obtain ⟨a, rest, rfl⟩ := exists_cons_of_ne_nil hne
  obtain ⟨c, cs, hcs, hblank⟩ := h a (.head _)
  rw [Text.trimStart, String.toList_ofList, toList_renderAttributes, flatMap_cons, Attribute.toList_render, hcs]
  simp only [cons_append]
  rw [dropWhile_cons_of_pos (by decide), dropWhile_cons_of_neg (by simp [hblank])]

lemma rawName_of_mem_setIn {x b : Attribute} : ∀ {as : List Attribute}, b ∈ setIn as x →
    (∃ a ∈ as, b.rawName = a.rawName) ∨ b.rawName = x.rawName
  | [], h => by
    rw [setIn, mem_singleton] at h
    exact Or.inr (by rw [h])
  | a :: as, h => by
    rw [setIn] at h
    split at h
    · rcases mem_cons.1 h with rfl | h
      · exact Or.inl ⟨a, mem_cons_self, rfl⟩
      · exact Or.inl ⟨b, mem_cons_of_mem _ h, rfl⟩
    · rcases mem_cons.1 h with rfl | h
      · exact Or.inl ⟨b, mem_cons_self, rfl⟩
      · rcases rawName_of_mem_setIn h with ⟨a', ha', heq⟩ | heq
        · exact Or.inl ⟨a', mem_cons_of_mem _ ha', heq⟩
        · exact Or.inr heq

lemma setIn_ne_nil (as : List Attribute) (x : Attribute) : setIn as x ≠ [] := by
  cases as with
  | nil => simp [setIn]
  | cons a as =>
    rw [setIn]
    split
    · simp
    · simp

/-! ## Plain and clean trees -/

lemma Kind.isPlain_element {e : Element} : (Kind.element e).isPlain = true ↔
    e.tag ≠ "component" ∧ '␣' ∉ e.tag.toList ∧ ∀ a ∈ e.attributes, a.isPlain = true := by
  simp [Kind.isPlain, isUnmarked, and_assoc]

lemma Kind.isClean_element {e : Element} : (Kind.element e).isClean = true ↔
    '␣' ∉ e.tag.toList ∧ ∀ a ∈ e.attributes, a.isClean = true := by
  simp [Kind.isClean, isUnmarked]

lemma Kind.isClean_of_isPlain {kind : Kind} (h : kind.isPlain = true) : kind.isClean = true := by
  cases kind with
  | element e =>
    obtain ⟨-, htag, hattributes⟩ := isPlain_element.1 h
    exact isClean_element.2 ⟨htag, fun a ha => Attribute.isClean_of_isPlain (hattributes a ha)⟩
  | _ => exact h

namespace Tree

lemma isPlain_node {kind : Kind} {position : Position} {children : List Tree} :
    (node kind position children).isPlain = true ↔ kind.isPlain = true ∧ ∀ t ∈ children, t.isPlain = true := by
  have hall : ∀ ts : List Tree, (preorderAll ts).all (fun u => u.kind.isPlain) = true ↔ ∀ t ∈ ts, t.isPlain = true := by
    intro ts
    induction ts with
    | nil => simp [preorderAll]
    | cons t ts ih => simp only [preorderAll, all_append, Bool.and_eq_true, ih, forall_mem_cons]; rfl
  rw [isPlain, preorder, all_cons, Bool.and_eq_true, hall]
  rfl

lemma height_le_heightAll {t : Tree} : ∀ {ts : List Tree}, t ∈ ts → t.height ≤ heightAll ts
  | u :: us, h => by
    rcases mem_cons.1 h with rfl | h
    · exact Nat.le_max_left _ _
    · exact Nat.le_trans (height_le_heightAll h) (Nat.le_max_right _ _)

lemma height_element (e : Element) (position : Position) (below : List Tree) :
    (node (.element e) position below).height = max 1 (heightAll below) + 1 := by
  rw [height]

lemma height_lt_of_mem {t : Tree} {below : List Tree} (h : t ∈ below) (kind : Kind) (position : Position) :
    t.height < (node kind position below).height := by
  have := height_le_heightAll h
  cases kind <;> simp only [height] <;> omega

lemma height_pos (t : Tree) : 0 < t.height := by
  obtain ⟨kind, position, below⟩ := t
  cases kind <;> simp only [height] <;> omega

end Tree
end ReactiveTemplate.Markup
