import Mathlib.Tactic.Lemma
import ReactiveTemplate.Template.Token
/-!
# Marks — HTML with marks, and the same HTML filled in

While a template is compiled its HTML holds a mark for each dynamic part.
-/
set_option linter.all false

namespace ReactiveTemplate
open List

variable {n : Nat} {ds : List Dynamic}

/-! ## Reading a mark -/

lemma dropChars?_append (rest : List Char) : ∀ cs : List Char, dropChars? cs (cs ++ rest) = some rest
  | [] => rfl
  | c :: cs => by
    rw [cons_append, dropChars?, if_pos rfl]
    exact dropChars?_append rest cs

lemma Number.ofDigits_eq_ofDigitChars : ∀ (cs : List Char) (n : Nat), (∀ c ∈ cs, c.isDigit = true) →
    cs.foldl (fun n c => match digitIn? 10 c with | some d => n * 10 + d | none => n) n = Nat.ofDigitChars 10 cs n
  | [], n, _ => by simp
  | c :: cs, n, h => by
    have hc : c.isDigit = true := h c (.head _)
    have hlt : c.toNat - '0'.toNat < 10 := by
      have := (Char.isDigit_iff_toNat.1 hc).2
      rw [show '9'.toNat = 57 from rfl] at this
      rw [show '0'.toNat = 48 from rfl]
      omega
    have hd : digitIn? 10 c = some (c.toNat - '0'.toNat) := by
      simp only [digitIn?, hc, if_true, if_pos hlt]
    rw [foldl_cons, hd, ofDigits_eq_ofDigitChars cs _ (fun d hd => h d (mem_cons_of_mem _ hd)),
      Nat.ofDigitChars_cons, Nat.mul_comm]

/-- The number that digits write; characters that are no digits, or none at all, write none. -/
def markNumber? (digits : List Char) : Option Nat :=
  if digits ≠ [] ∧ digits.all Char.isDigit = true then some (Nat.ofDigitChars 10 digits 0) else none

lemma markNumber?_eq_some {digits : List Char} : markNumber? digits = some n ↔
    digits ≠ [] ∧ (∀ c ∈ digits, c.isDigit = true) ∧ Number.ofDigits 10 digits = n := by
  simp only [markNumber?, all_eq_true]
  split
  · rename_i h
    have hvalue : Number.ofDigits 10 digits = Nat.ofDigitChars 10 digits 0 :=
      Number.ofDigits_eq_ofDigitChars digits 0 h.2
    rw [hvalue, Option.some.injEq]
    exact ⟨fun hn => ⟨h.1, h.2, hn⟩, fun hn => hn.2.2⟩
  · rename_i h
    exact ⟨fun hn => (by cases hn), fun hn => absurd ⟨hn.1, hn.2.1⟩ h⟩

def markText (digits : List Char) : List Char := tokenHead ++ (digits ++ tokenTail)

structure Mark where
  digits : List Char
  number : Nat
  reads : markNumber? digits = some number

namespace Mark

def text (m : Mark) : List Char := markText m.digits

def canonical (n : Nat) : Mark where
  digits := Nat.toDigits 10 n
  number := n
  reads := by
    have hdigits : ∀ c ∈ Nat.toDigits 10 n, c.isDigit = true :=
      fun c hc => Nat.isDigit_of_mem_toDigits (by decide) (by decide) hc
    refine markNumber?_eq_some.2 ⟨by simp, hdigits, ?_⟩
    exact (Number.ofDigits_eq_ofDigitChars _ 0 hdigits).trans Nat.ofDigitChars_ten_toDigits

@[simp] lemma number_canonical (n : Nat) : (canonical n).number = n := rfl

end Mark

lemma toList_dynamicToken (n : Nat) : (dynamicToken n).toList = (Mark.canonical n).text := by
  simp [dynamicToken, Number.natText, Mark.canonical, Mark.text, markText]

lemma readToken?_mark (m : Mark) (rest : List Char) : readToken? (m.text ++ rest) = some (m.number, m.text.length) := by
  obtain ⟨hne, hdigits, hnumber⟩ := markNumber?_eq_some.1 m.reads
  have htake : (m.digits ++ (tokenTail ++ rest)).takeWhile Char.isDigit = m.digits := by
    rw [takeWhile_append_of_pos hdigits]
    have : (tokenTail ++ rest).takeWhile Char.isDigit = [] := by
      rw [show tokenTail ++ rest = '_' :: '_' :: rest from rfl, takeWhile_cons_of_neg (by decide)]
    rw [this, append_nil]
  have hne : m.digits.isEmpty = false := by simpa using hne
  rw [Mark.text, markText, append_assoc, append_assoc]
  simp only [readToken?, dropChars?_append, htake, drop_left, hnumber, hne, Option.isNone_some,
    Bool.or_self, Bool.false_eq_true, if_false, length_append, Nat.add_assoc]

lemma readToken?_of_ne {c : Char} (h : c ≠ '␣') (cs : List Char) : readToken? (c :: cs) = none := by
  have : dropChars? tokenHead (c :: cs) = none := by
    rw [show tokenHead = '␣' :: "____sdi__".toList from rfl, dropChars?, if_neg (Ne.symm h)]
  simp only [readToken?, this]

/-! ## Cutting at marks -/

/-- HTML with marks for parts that are numbered from `n` on, and what it becomes under a scope. -/
inductive Filled (scope : Json) : Nat → List Dynamic → List Char → List Char → Prop
  | nil (n : Nat) : Filled scope n [] [] []
  | char {n : Nat} {ds : List Dynamic} {html out : List Char} {c : Char} (hc : c ≠ '␣') :
    Filled scope n ds html out → Filled scope n ds (c :: html) (c :: out)
  | mark {n : Nat} {d : Dynamic} {ds : List Dynamic} {html out : List Char} {part : RenderedPart}
    (hd : d.exec scope = .ok part) :
    Filled scope (n + 1) ds html out →
      Filled scope n (d :: ds) ((dynamicToken n).toList ++ html) (part.html.toList ++ out)
  | unused {n : Nat} (d : Dynamic) {ds : List Dynamic} {html out : List Char} :
    Filled scope (n + 1) ds html out → Filled scope n (d :: ds) html out

namespace Filled

variable {scope : Json}

lemma silent : ∀ (n : Nat) (ds : List Dynamic), Filled scope n ds [] []
  | n, [] => nil n
  | n, d :: ds => unused d (silent (n + 1) ds)

lemma text (n : Nat) : ∀ cs : List Char, '␣' ∉ cs → Filled scope n [] cs cs
  | [], _ => nil n
  | c :: cs, h => char (fun hc => h (by simp [hc])) (text n cs (fun hm => h (.tail _ hm)))

lemma single {d : Dynamic} {part : RenderedPart} (hd : d.exec scope = .ok part) :
    Filled scope n [d] (dynamicToken n).toList part.html.toList := by
  have := mark hd (nil (n + 1))
  simpa using this

lemma append {es : List Dynamic} {html html' out out' : List Char} (h : Filled scope n ds html out)
    (h' : Filled scope (n + ds.length) es html' out') : Filled scope n (ds ++ es) (html ++ html') (out ++ out') := by
  induction h with
  | nil n => exact h'
  | char hc _ ih => exact char hc (ih h')
  | mark hd _ ih =>
    rw [length_cons, ← Nat.add_assoc, Nat.add_right_comm] at h'
    rw [append_assoc, append_assoc]
    exact mark hd (ih h')
  | unused d _ ih =>
    rw [length_cons, ← Nat.add_assoc, Nat.add_right_comm] at h'
    exact unused d (ih h')

end Filled

namespace Compiled

lemma split_skip (pending : List (Option Dynamic)) (text html : List Char) :
    ∀ cs : List Char, split pending cs.length text (cs ++ html) = split pending 0 text html
  | [] => rfl
  | c :: cs => by
    rw [length_cons, cons_append, split]
    exact split_skip pending text html cs

lemma split_char {c : Char} (hc : c ≠ '␣') (pending : List (Option Dynamic)) (text cs : List Char) :
    split pending 0 text (c :: cs) = split pending 0 (c :: text) cs := by
  rw [split, readToken?_of_ne hc]
  rfl

lemma split_mark (pending : List (Option Dynamic)) (m : Mark) (d : Dynamic) (h : pending[m.number]? = some (some d))
    (text html : List Char) :
    split pending 0 text (m.text ++ html) =
      (String.ofList text.reverse :: (split (pending.set m.number none) 0 [] html).1,
        d :: (split (pending.set m.number none) 0 [] html).2) := by
  obtain ⟨cs, hcs⟩ : ∃ cs, m.text = '␣' :: cs := ⟨_, rfl⟩
  have hread := readToken?_mark m html
  rw [hcs, cons_append] at hread ⊢
  rw [split]
  simp only [hread, Option.bind_some, h, Option.join_some, Option.map_some, length_cons, Nat.add_sub_cancel,
    split_skip]

lemma split_filled {scope : Json} {html out : List Char}
    (h : Filled scope n ds html out) : ∀ (pending : List (Option Dynamic)) (text : List Char),
      (∀ (i : Nat) (d : Dynamic), ds[i]? = some d → pending[n + i]? = some (some d)) →
      ∃ parts, Dynamic.execAll scope (split pending 0 text html).2 = .ok parts ∧
        interleave (split pending 0 text html).1 (RenderedPart.htmls parts) = String.ofList (text.reverse ++ out) := by
  induction h with
  | nil n =>
    intro pending text _
    refine ⟨[], rfl, ?_⟩
    simp [split, interleave, RenderedPart.htmls]
  | char hc _ ih =>
    intro pending text hp
    obtain ⟨parts, hexec, hhtml⟩ := ih pending (_ :: text) hp
    rw [split_char hc]
    refine ⟨parts, hexec, ?_⟩
    rw [hhtml]
    simp
  | @mark n d ds html out part hd _ ih =>
    intro pending text hp
    have hnext : ∀ (i : Nat) (e : Dynamic), ds[i]? = some e → (pending.set n none)[n + 1 + i]? = some (some e) := by
      intro i e he
      rw [getElem?_set_ne (by omega), Nat.add_assoc, Nat.add_comm 1 i]
      exact hp (i + 1) e he
    obtain ⟨parts, hexec, hhtml⟩ := ih (pending.set n none) [] hnext
    rw [toList_dynamicToken, split_mark pending (Mark.canonical n) d (hp 0 d rfl), Mark.number_canonical]
    refine ⟨part :: parts, ?_, ?_⟩
    · simp only [Dynamic.execAll, hd, hexec]
    · rw [RenderedPart.htmls, interleave, hhtml]
      simp [← String.toList_inj]
  | @unused n d ds html out _ ih =>
    intro pending text hp
    refine ih pending text (fun i e he => ?_)
    rw [Nat.add_assoc, Nat.add_comm 1 i]
    exact hp (i + 1) e he

lemma render_ofHtml {scope : Json} {html : String} {out : List Char}
    (h : Filled scope 0 ds html.toList out) : (ofHtml html ds).render scope = .ok (String.ofList out) := by
  obtain ⟨parts, hexec, hhtml⟩ := split_filled h (ds.map some) [] (fun i d hd => by simp [hd])
  unfold Compiled.render ofHtml
  simp only [Compiled.exec, hexec, Except.map, Rendered.html, hhtml]
  rfl

end Compiled
end ReactiveTemplate
