import Mathlib.Data.List.TakeDrop
import ReactiveTemplate.Proofs.Script.Phrase
/-!
# Numbers — a number is read the same in front of another text

A number ends at a character that is no part of a word and no point (`stops`).
-/
set_option linter.all false

namespace ReactiveTemplate.Script
open List

def stops : List Char → Bool
  | [] => true
  | c :: _ => !Text.isWordPart c && c != '\\' && c != '.'

variable {c : Char} {cs : List Char}

lemma isWordPart_of_isWordStart (h : Text.isWordStart c = true) : Text.isWordPart c = true := by
  unfold Text.isWordStart at h
  unfold Text.isWordPart
  split
  · rename_i hc
    rw [if_pos hc] at h
    simp only [Bool.or_eq_true] at h ⊢
    rcases h with (h | h) | h
    · exact .inl (.inl (by simp [Char.isAlphanum, h]))
    · exact .inl (.inr h)
    · exact .inr h
  · rename_i hc
    rw [if_neg hc] at h
    simp [h]

lemma toNat_of_isDigit (h : c.isDigit = true) : 48 ≤ c.toNat ∧ c.toNat ≤ 57 := by
  simp only [Char.isDigit, Bool.and_eq_true, decide_eq_true_eq] at h
  exact ⟨UInt32.le_iff_toNat_le.1 h.1, UInt32.le_iff_toNat_le.1 h.2⟩

lemma isWordPart_of_isDigit (h : c.isDigit = true) : Text.isWordPart c = true := by
  unfold Text.isWordPart
  rw [if_pos (Nat.lt_of_le_of_lt (toNat_of_isDigit h).2 (by decide))]
  simp [Char.isAlphanum, h]

lemma isWordPart_of_range (low count : Nat)
    (hall : ∀ n ∈ range' low count, Text.isWordPart (Char.ofNat n) = true) (hlow : low ≤ c.toNat)
    (hhigh : c.toNat < low + count) : Text.isWordPart c = true := by
  rw [← Char.ofNat_toNat c]
  exact hall c.toNat (mem_range'_1.2 ⟨hlow, hhigh⟩)

lemma isWordPart_of_digitIn? {base : Nat} (h : (Number.digitIn? base c).isSome = true) :
    Text.isWordPart c = true := by
  unfold Number.digitIn? at h
  by_cases hdigit : c.isDigit = true
  · exact isWordPart_of_isDigit hdigit
  · by_cases hlower : ('a' ≤ c && c ≤ 'f') = true
    · simp only [Bool.and_eq_true, decide_eq_true_eq] at hlower
      exact isWordPart_of_range 97 6 (by decide) (UInt32.le_iff_toNat_le.1 hlower.1)
        (Nat.lt_succ_of_le (UInt32.le_iff_toNat_le.1 hlower.2))
    · by_cases hupper : ('A' ≤ c && c ≤ 'F') = true
      · simp only [Bool.and_eq_true, decide_eq_true_eq] at hupper
        exact isWordPart_of_range 65 6 (by decide) (UInt32.le_iff_toNat_le.1 hupper.1)
          (Nat.lt_succ_of_le (UInt32.le_iff_toNat_le.1 hupper.2))
      · simp [hdigit, hlower, hupper] at h

lemma isDigit_of_isWordStart (h : Text.isWordStart c = true) : c.isDigit = false := by
  cases hdigit : c.isDigit with
  | false => rfl
  | true =>
    obtain ⟨hlow, hhigh⟩ := toNat_of_isDigit hdigit
    have hcases : ∀ n ∈ range' 48 10, Text.isWordStart (Char.ofNat n) = false := by decide
    have hmem : c.toNat ∈ range' 48 10 := by
      rw [mem_range'_1]
      omega
    rw [← Char.ofNat_toNat c, hcases c.toNat hmem] at h
    cases h

lemma stops_of_isWordPart (h : Text.isWordPart c = true) : stops [c] = false := by
  simp [stops, h]

lemma head?_of_stops {p : Char → Bool} (hp : ∀ c, p c = true → stops [c] = false) (h : stops cs = true) :
    ∀ c ∈ cs.head?, p c = false := by
  intro c hc
  cases cs with
  | nil => cases hc
  | cons d cs =>
    cases hc
    cases hpc : p c with
    | false => rfl
    | true => exact absurd (h.symm.trans (hp c hpc)) (by decide)

lemma endsNumber_of_stops (h : stops cs = true) : endsNumber cs = true := by
  cases cs with
  | nil => rfl
  | cons c cs =>
    have hends : (c.isDigit || Text.isWordStart c) = false := by
      refine head?_of_stops (p := fun c => c.isDigit || Text.isWordStart c) (fun d hd => ?_) h c rfl
      exact stops_of_isWordPart ((Bool.or_eq_true _ _ ▸ hd).elim isWordPart_of_isDigit isWordPart_of_isWordStart)
    simp [endsNumber, hends]

/-! ## Readers -/

/-- What is read at the start of a text, what follows it, and whether it is well formed. -/
abbrev Reader (α : Type) := List Char → α × List Char × Bool

namespace Reader

variable {α β : Type} {f : Reader α} {p : Char → Bool}

def give (a : α) (isSound : Bool) : Reader α := fun cs => (a, cs, isSound)

def followed (f : Reader α) (next : α → Reader β) : Reader β := fun cs =>
  ((next (f cs).1 (f cs).2.1).1, (next (f cs).1 (f cs).2.1).2.1, (f cs).2.2 && (next (f cs).1 (f cs).2.1).2.2)

/-- Goes by the next character, and takes it if it is one of those asked for. -/
def onHead (p : Char → Bool) (taken : Char → Reader α) (other : Reader α) : Reader α
  | [] => other []
  | c :: cs => if p c then taken c cs else other (c :: cs)

def ends (t : Token) : Reader Token := fun cs => (t, cs, endsNumber cs)

def run (p : Char → Bool) : Reader (List Char) := fun cs => (cs.takeWhile p, cs.dropWhile p, true)

/-- What is left is the end of the text, and may be any text that ends numbers. -/
structure IsLocal (f : Reader α) : Prop where
  suffix (cs : List Char) : (f cs).2.1 <:+ cs
  front {text mid rest rest' : List Char} {a : α} : f (text ++ rest) = (a, mid ++ rest, true) → stops rest' = true →
    f (text ++ rest') = (a, mid ++ rest', true)

lemma isLocal_give (a : α) (isSound : Bool) : (give a isSound).IsLocal where
  suffix _ := suffix_rfl
  front h _ := by
    simp only [give, Prod.mk.injEq, append_cancel_right_eq] at h ⊢
    exact h

lemma isLocal_ends (t : Token) : (ends t).IsLocal where
  suffix _ := suffix_rfl
  front {text _ _ _ _} h hstops := by
    simp only [ends, Prod.mk.injEq, append_cancel_right_eq] at h ⊢
    refine ⟨h.1, h.2.1, ?_⟩
    cases text with
    | nil => exact endsNumber_of_stops hstops
    | cons c text => exact h.2.2

lemma IsLocal.followed {next : α → Reader β} (hf : f.IsLocal) (hnext : ∀ a, (next a).IsLocal) :
    (f.followed next).IsLocal where
  suffix cs := ((hnext _).suffix _).trans (hf.suffix cs)
  front {text mid rest rest' b} h hstops := by
    simp only [Reader.followed, Prod.mk.injEq, Bool.and_eq_true] at h
    obtain ⟨hb, hrest, hsound, hsound'⟩ := h
    -- what is between the two readers is some text in front of the rest
    obtain ⟨between, hbetween⟩ := (hnext (f (text ++ rest)).1).suffix (f (text ++ rest)).2.1
    rw [hrest, ← append_assoc] at hbetween
    have hfirst : f (text ++ rest) = ((f (text ++ rest)).1, (between ++ mid) ++ rest, true) :=
      Prod.ext rfl (Prod.ext hbetween.symm hsound)
    have hsecond : next (f (text ++ rest)).1 ((between ++ mid) ++ rest) = (b, mid ++ rest, true) := by
      rw [hbetween]
      exact Prod.ext hb (Prod.ext hrest hsound')
    simp only [Reader.followed, hf.front hfirst hstops, (hnext _).front hsecond hstops, Bool.and_self]

lemma onHead_cons {taken : Char → Reader α} {other : Reader α} {c : Char} (h : p c = true) (cs : List Char) :
    onHead p taken other (c :: cs) = taken c cs :=
  if_pos h

lemma onHead_other {taken : Char → Reader α} {other : Reader α} {cs : List Char} (h : ∀ c ∈ cs.head?, p c = false) :
    onHead p taken other cs = other cs := by
  cases cs with
  | nil => rfl
  | cons c cs => exact if_neg (by simp [h c rfl])

/-- The characters asked for end no number, or the reader never leaves all of the text. -/
lemma IsLocal.onHead {taken : Char → Reader α} {other : Reader α}
    (hp : (∀ c, p c = true → stops [c] = false) ∨ ∀ cs, (other cs).2.2 = true → (other cs).2.1 ≠ cs)
    (htaken : ∀ c, p c = true → (taken c).IsLocal) (hother : other.IsLocal) : (onHead p taken other).IsLocal where
  suffix cs := by
    cases cs with
    | nil => exact hother.suffix []
    | cons c cs =>
      cases hc : p c with
      | true =>
        rw [onHead_cons hc]
        exact ((htaken c hc).suffix cs).trans (suffix_cons c cs)
      | false =>
        rw [onHead_other (by simpa using hc)]
        exact hother.suffix (c :: cs)
  front {text mid rest rest' a} h hstops := by
    cases text with
    | cons c text =>
      cases hc : p c with
      | true =>
        rw [cons_append, onHead_cons hc] at h ⊢
        exact (htaken c hc).front h hstops
      | false =>
        rw [onHead_other (by simpa using hc)] at h ⊢
        exact hother.front h hstops
    | nil =>
      rw [nil_append] at h ⊢
      have hhead : ∀ c ∈ rest.head?, p c = false := by
        intro c hc
        obtain ⟨cs, rfl⟩ := head?_eq_some_iff.1 hc
        refine Bool.eq_false_iff.2 (fun hpc => ?_)
        -- it would have been taken
        rw [onHead_cons hpc] at h
        have hsuffix := (htaken c hpc).suffix cs
        rw [h] at hsuffix
        have hle := hsuffix.length_le
        simp only [length_append, length_cons] at hle
        omega
      rw [onHead_other hhead] at h
      have hmid : mid = [] := by
        have hle := (hother.suffix rest).length_le
        rw [h, length_append] at hle
        exact eq_nil_of_length_eq_zero (by omega)
      rcases hp with hp | hp
      · rw [onHead_other (head?_of_stops hp hstops)]
        exact hother.front (show other ([] ++ rest) = _ from h) hstops
      · exact absurd (congrArg (·.2.1) h) (by rw [hmid]; exact hp rest (congrArg (·.2.2) h))

lemma IsLocal.onChar {taken other : Reader α} {d : Char} (hd : stops [d] = false) (htaken : taken.IsLocal)
    (hother : other.IsLocal) : (Reader.onHead (· == d) (fun _ => taken) other).IsLocal :=
  .onHead (.inl (fun _ hc => beq_iff_eq.1 hc ▸ hd)) (fun _ _ => htaken) hother

lemma IsLocal.cons (hf : f.IsLocal) {c : Char} (h : ∀ cs, (f (c :: cs)).2.1 <:+ cs) :
    IsLocal (fun cs => f (c :: cs)) where
  suffix := h
  front {text _ rest _ _} heq hstops := hf.front (show f ((c :: text) ++ rest) = _ from heq) hstops

lemma takeWhile_eq_nil {cs : List Char} (h : ∀ c ∈ cs.head?, p c = false) :
    cs.takeWhile p = [] ∧ cs.dropWhile p = cs := by
  cases cs with
  | nil => exact ⟨rfl, rfl⟩
  | cons c cs =>
    have hc := h c rfl
    exact ⟨takeWhile_cons_of_neg (by simp [hc]), dropWhile_cons_of_neg (by simp [hc])⟩

lemma isLocal_run (hp : ∀ c, p c = true → stops [c] = false) : (run p).IsLocal where
  suffix cs := dropWhile_suffix _
  front {text mid rest rest' a} h hstops := by
    simp only [run, Prod.mk.injEq, and_true] at h ⊢
    obtain ⟨rfl, hdrop⟩ := h
    have htext : text = (text ++ rest).takeWhile p ++ mid := by
      have hwhole := takeWhile_append_dropWhile (p := p) (l := text ++ rest)
      rw [hdrop, ← append_assoc] at hwhole
      exact (append_cancel_right hwhole).symm
    have hrun : ∀ c ∈ (text ++ rest).takeWhile p, p c = true := fun c hc => all_eq_true.1 all_takeWhile c hc
    have hmid : ∀ c ∈ (mid ++ rest').head?, p c = false := by
      cases mid with
      | nil => exact head?_of_stops hp hstops
      | cons d mid =>
        have hd := head?_dropWhile_not p (text ++ rest)
        rw [hdrop] at hd
        simpa using hd
    obtain ⟨htake, hleft⟩ := takeWhile_eq_nil hmid
    generalize (text ++ rest).takeWhile p = run at htext hrun ⊢
    subst htext
    rw [append_assoc, takeWhile_append_of_pos hrun, dropWhile_append_of_pos hrun, htake, hleft,
      append_nil]
    exact ⟨rfl, rfl⟩

end Reader

/-! ## The parts of a number -/

section Parts

open Reader

variable {text rest rest' : List Char} {c d : Char} {bits : Nat}

lemma stops_digit {isDigit : Char → Bool} (h : ∀ c, isDigit c = true → Text.isWordPart c = true) (c : Char)
    (hc : (isDigit c || c == '_') = true) : stops [c] = false := by
  rcases Bool.or_eq_true _ _ ▸ hc with hc | hc
  · exact stops_of_isWordPart (h c hc)
  · rw [beq_iff_eq.1 hc]
    decide

lemma isLocal_spanDigits {isDigit : Char → Bool} (h : ∀ c, isDigit c = true → Text.isWordPart c = true) :
    Reader.IsLocal (spanDigits isDigit) := by
  have heq : spanDigits isDigit = (run (fun c => isDigit c || c == '_')).followed (fun digits =>
      give (digits.filter (· != '_')) (digits.head? != some '_' && separatorsFit digits)) := by
    funext cs
    simp [spanDigits, run, followed, give]
  rw [heq]
  exact (isLocal_run (stops_digit h)).followed (fun _ => isLocal_give _ _)

lemma isLocal_digits : Reader.IsLocal (spanDigits Char.isDigit) := isLocal_spanDigits (fun _ => isWordPart_of_isDigit)

lemma spanDigits_suffix (h : c.isDigit = true) (cs : List Char) : (spanDigits Char.isDigit (c :: cs)).2.1 <:+ cs := by
  unfold spanDigits
  simp only [span_eq_takeWhile_dropWhile]
  rw [dropWhile_cons_of_pos (by simp [h])]
  exact dropWhile_suffix _

/-- The digits of an exponent, of which there is at least one. -/
def exponentDigits (mark : List Char) : Reader (List Char) :=
  followed (spanDigits Char.isDigit) (fun digits => give (mark ++ digits) !digits.isEmpty)

def signedExponent (mark : Char) : Reader (List Char) :=
  onHead (fun c => c = '+' || c = '-') (fun c => exponentDigits [mark, c]) (exponentDigits [mark])

lemma isLocal_exponentDigits (mark : List Char) : (exponentDigits mark).IsLocal :=
  isLocal_digits.followed (fun _ => isLocal_give _ _)

lemma isLocal_signedExponent (mark : Char) : (signedExponent mark).IsLocal := by
  refine IsLocal.onHead (.inr (fun cs hsound hcs => ?_)) (fun _ _ => isLocal_exponentDigits _) (isLocal_exponentDigits _)
  -- without a digit it is not well formed
  simp only [exponentDigits, followed, give, Bool.and_eq_true] at hsound hcs
  unfold spanDigits at hsound hcs
  simp only [span_eq_takeWhile_dropWhile] at hsound hcs
  have hnil : cs.takeWhile (fun c => c.isDigit || c == '_') = [] := by
    have hwhole := takeWhile_append_dropWhile (p := fun c => c.isDigit || c == '_') (l := cs)
    rw [hcs] at hwhole
    exact append_cancel_right (hwhole.trans (nil_append cs).symm)
  rw [hnil] at hsound
  exact absurd hsound.2 (by decide)

lemma exponentPart_eq :
    exponentPart = onHead (fun c => c = 'e' || c = 'E') signedExponent (give [] true) := by
  funext cs
  cases cs with
  | nil => rfl
  | cons c cs =>
    cases hc : decide (c = 'e') || decide (c = 'E') with
    | false => simp [exponentPart, onHead, give, hc]
    | true =>
      rw [onHead_cons hc]
      simp only [exponentPart, hc]
      cases cs with
      | nil => rfl
      | cons d cs =>
        by_cases hplus : d = '+'
        · subst hplus
          rfl
        · by_cases hminus : d = '-'
          · subst hminus
            rfl
          · simp [signedExponent, onHead, exponentDigits, followed, give, hplus, hminus]

lemma isLocal_exponentPart : Reader.IsLocal exponentPart := by
  rw [exponentPart_eq]
  refine IsLocal.onHead (.inl (fun c hc => ?_)) (fun _ _ => isLocal_signedExponent _) (isLocal_give _ _)
  rcases Bool.or_eq_true _ _ ▸ hc with hc | hc <;> rw [of_decide_eq_true hc] <;> decide

/-! ## Numbers -/

/-- The lexeme of a reading, as far as what is read in front of it is well formed too. -/
def Lexeme.ofReading (isSound : Bool) (r : Token × List Char × Bool) : Lexeme := ⟨r.1, r.2.1, isSound && r.2.2⟩

def exponent (written : List Char) : Reader Token :=
  followed exponentPart (fun e => ends (.number (decimalBits (written ++ e))))

def fraction (whole : List Char) : Reader Token :=
  followed (spanDigits Char.isDigit) (fun digits => exponent (whole ++ '.' :: digits))

def decimal (whole : List Char) : Reader Token := onHead (· == '.') (fun _ => fraction whole) (exponent whole)

lemma decimalLexeme_eq (whole : List Char) (isSound : Bool) (cs : List Char) :
    decimalLexeme whole isSound cs = .ofReading isSound (decimal whole cs) := by
  cases cs with
  | nil => simp [decimalLexeme, decimal, onHead, exponent, followed, ends, Lexeme.ofReading, Bool.and_assoc]
  | cons c cs =>
    by_cases hc : c = '.'
    · subst hc
      simp [decimalLexeme, decimal, onHead, fraction, exponent, followed, ends, Lexeme.ofReading, Bool.and_assoc]
    · simp [decimalLexeme, decimal, onHead, exponent, followed, ends, Lexeme.ofReading, Bool.and_assoc, hc]

lemma isLocal_exponent (written : List Char) : (exponent written).IsLocal :=
  isLocal_exponentPart.followed (fun _ => isLocal_ends _)

lemma isLocal_fraction (whole : List Char) : (fraction whole).IsLocal :=
  isLocal_digits.followed (fun _ => isLocal_exponent _)

lemma isLocal_decimal (whole : List Char) : (decimal whole).IsLocal :=
  .onChar (by decide) (isLocal_fraction whole) (isLocal_exponent whole)

def integer (written : List Char) (other : Reader Token) : Reader Token :=
  onHead (· == 'n') (fun _ => ends (.bigint (String.ofList (written ++ ['n'])))) other

lemma isLocal_integer {other : Reader Token} (written : List Char) (h : other.IsLocal) :
    (integer written other).IsLocal :=
  .onChar (by decide) (isLocal_ends _) h

lemma intLexeme_eq (written : List Char) (bits : Nat) (isSound : Bool) (cs : List Char) :
    intLexeme written bits isSound cs = .ofReading isSound (integer written (ends (.number bits)) cs) := by
  cases cs with
  | nil => rfl
  | cons c cs =>
    by_cases hc : c = 'n'
    · subst hc
      rfl
    · simp [intLexeme, integer, onHead, ends, Lexeme.ofReading, hc]

def based (mark : List Char) (base exact : Nat) : Reader Token :=
  followed (spanDigits (fun c => (Number.digitIn? base c).isSome)) (fun digits =>
    followed (give () !digits.isEmpty) (fun _ => integer (mark ++ digits) (ends (.number (baseValue base exact digits)))))

lemma isLocal_based (mark : List Char) (base exact : Nat) : (based mark base exact).IsLocal :=
  (isLocal_spanDigits (fun _ => isWordPart_of_digitIn?)).followed (fun _ =>
    (isLocal_give _ _).followed (fun _ => isLocal_integer _ (isLocal_ends _)))

lemma baseLexeme_eq (mark : List Char) (base exact : Nat) (cs : List Char) :
    baseLexeme mark base exact cs = .ofReading true (based mark base exact cs) := by
  simp [baseLexeme, intLexeme_eq, based, followed, give, Lexeme.ofReading, Bool.and_assoc]

/-- The rest of a number that starts with zero and another digit. -/
def legacyTail (digits : List Char) : Reader Token :=
  if digits.all (fun c => decide (c < '8')) then ends (.number (baseValue 8 21 (digits.drop 1)))
  else onHead (· == '.') (fun _ => fraction digits) (onHead (· == 'e')
    (fun _ => followed (signedExponent 'e') (fun e => ends (.number (decimalBits (digits ++ e)))))
    (ends (.number (decimalBits digits))))

def legacy (front : List Char) : Reader Token := followed (run Char.isDigit) (fun digits => legacyTail (front ++ digits))

lemma isLocal_legacy (front : List Char) : (legacy front).IsLocal := by
  refine (isLocal_run (fun _ hc => stops_of_isWordPart (isWordPart_of_isDigit hc))).followed (fun digits => ?_)
  unfold legacyTail
  split
  · exact isLocal_ends _
  · exact .onChar (by decide) (isLocal_fraction _) (.onChar (by decide)
      ((isLocal_signedExponent _).followed (fun _ => isLocal_ends _)) (isLocal_ends _))

lemma legacyLexeme_eq (h : d.isDigit = true) (cs : List Char) :
    legacyLexeme ('0' :: d :: cs) = .ofReading true (legacy ['0', d] cs) := by
  have hlegacy : legacy ['0', d] cs =
      legacyTail ('0' :: d :: cs.takeWhile Char.isDigit) (cs.dropWhile Char.isDigit) := by
    simp [legacy, followed, run]
  unfold legacyLexeme
  rw [span_eq_takeWhile_dropWhile, takeWhile_cons_of_pos (by decide), dropWhile_cons_of_pos (by decide),
    takeWhile_cons_of_pos h, dropWhile_cons_of_pos h, hlegacy]
  unfold legacyTail
  generalize '0' :: d :: cs.takeWhile Char.isDigit = digits
  simp only [decimalLexeme_eq]
  by_cases hall : digits.all (fun c => decide (c < '8')) = true
  · simp only [if_pos hall, ends, Lexeme.ofReading, Bool.true_and]
  · simp only [if_neg hall]
    cases cs.dropWhile Char.isDigit with
    | nil => rfl
    | cons c r =>
      by_cases hpoint : c = '.'
      · subst hpoint
        rfl
      · by_cases hmark : c = 'e'
        · subst hmark
          simp [decimal, exponent, exponentPart_eq, onHead, followed]
        · simp [onHead, ends, Lexeme.ofReading, hpoint, hmark]

def zero : Reader Token :=
  onHead (fun d => d = 'x' || d = 'X') (fun d => based ['0', d] 16 16)
    (onHead (fun d => d = 'o' || d = 'O') (fun d => based ['0', d] 8 21)
      (onHead (fun d => d = 'b' || d = 'B') (fun d => based ['0', d] 2 64)
        (integer ['0'] (onHead Char.isDigit (fun d => legacy ['0', d]) (decimal ['0'])))))

lemma isLocal_zero : zero.IsLocal := by
  have hmark : ∀ {a b c : Char}, stops [a] = false → stops [b] = false → (decide (c = a) || decide (c = b)) = true →
      stops [c] = false := by
    intro a b c ha hb hc
    rcases Bool.or_eq_true _ _ ▸ hc with hc | hc <;> rw [of_decide_eq_true hc] <;> assumption
  refine .onHead (.inl (fun _ => hmark (by decide) (by decide))) (fun _ _ => isLocal_based _ _ _) ?_
  refine .onHead (.inl (fun _ => hmark (by decide) (by decide))) (fun _ _ => isLocal_based _ _ _) ?_
  refine .onHead (.inl (fun _ => hmark (by decide) (by decide))) (fun _ _ => isLocal_based _ _ _) ?_
  refine isLocal_integer _ (.onHead (.inl (fun _ hc => ?_)) (fun _ _ => isLocal_legacy _) (isLocal_decimal _))
  exact stops_of_isWordPart (isWordPart_of_isDigit hc)

def nonzero (c : Char) : Reader Token :=
  followed (fun cs => spanDigits Char.isDigit (c :: cs)) (fun digits => integer digits (decimal digits))

lemma isLocal_nonzero (h : c.isDigit = true) : (nonzero c).IsLocal :=
  (isLocal_digits.cons (spanDigits_suffix h)).followed (fun _ => isLocal_integer _ (isLocal_decimal _))

lemma numberLexeme_zero (cs : List Char) : numberLexeme ('0' :: cs) = .ofReading true (zero cs) := by
  cases cs with
  | nil => exact decimalLexeme_eq ['0'] true []
  | cons d cs =>
    by_cases hmark : d ∈ ['x', 'X', 'o', 'O', 'b', 'B', 'n']
    · simp only [mem_cons, not_mem_nil, or_false] at hmark
      rcases hmark with rfl | rfl | rfl | rfl | rfl | rfl | rfl
      all_goals first | exact baseLexeme_eq _ _ _ cs | rfl
    · simp only [mem_cons, not_or] at hmark
      cases hd : d.isDigit with
      | true =>
        simp [numberLexeme, zero, integer, onHead, hmark, hd, legacyLexeme_eq hd]
      | false => simp [numberLexeme, zero, integer, onHead, hmark, hd, decimalLexeme_eq]

lemma numberLexeme_nonzero (h : c ≠ '0') (cs : List Char) :
    numberLexeme (c :: cs) = .ofReading true (nonzero c cs) := by
  unfold numberLexeme
  split
  all_goals first | (rename_i heq; exact absurd (cons.inj heq).1 h) | skip
  simp only [nonzero, followed]
  rcases spanDigits Char.isDigit (c :: cs) with ⟨digits, rest, fit⟩
  simp only [decimalLexeme_eq]
  cases rest with
  | nil => rfl
  | cons d rest =>
    by_cases hn : d = 'n'
    · subst hn
      rfl
    · simp [integer, onHead, Lexeme.ofReading, hn]

def number (c : Char) : Reader Token := if c = '0' then zero else nonzero c

lemma isLocal_number (h : c.isDigit = true) : (number c).IsLocal := by
  unfold number
  split
  · exact isLocal_zero
  · exact isLocal_nonzero h

lemma lexeme_digit (h : c.isDigit = true) (cs : List Char) :
    lexeme false (c :: cs) = .ofReading true (number c cs) := by
  have hnumber : lexeme false (c :: cs) = numberLexeme (c :: cs) := by
    unfold lexeme
    split
    all_goals rename_i heq
    · cases heq
    all_goals cases heq
    all_goals first | exact absurd h (by decide) | skip
    rw [if_pos h]
  rw [hnumber, number]
  split
  · rename_i hc
    rw [hc, numberLexeme_zero]
  · rename_i hc
    exact numberLexeme_nonzero hc cs

lemma lexeme_point (h : d.isDigit = true) (cs : List Char) :
    lexeme false ('.' :: d :: cs) = .ofReading true (fraction [] (d :: cs)) := by
  have hdecimal : lexeme false ('.' :: d :: cs) = decimalLexeme [] true ('.' :: d :: cs) := by simp [lexeme, h]
  rw [hdecimal, decimalLexeme_eq]
  rfl

lemma isLocal_point (h : d.isDigit = true) : Reader.IsLocal (fun cs => fraction [] (d :: cs)) :=
  (isLocal_digits.cons (spanDigits_suffix h)).followed (fun _ => isLocal_exponent _)

lemma number_cases {rest : List Char} (h : lexeme false cs = ⟨.number bits, rest, true⟩) :
    (∃ c r, cs = c :: r ∧ c.isDigit = true) ∨ ∃ d r, cs = '.' :: d :: r ∧ d.isDigit = true := by
  have hword : ∀ cs, wordLexeme cs ≠ ⟨.number bits, rest, true⟩ := by
    intro cs hcs
    unfold wordLexeme at hcs
    split at hcs <;> cases hcs
  have hpunct : ∀ cs, punctLexeme cs ≠ ⟨.number bits, rest, true⟩ := by
    intro cs hcs
    unfold punctLexeme at hcs
    simp only at hcs
    split at hcs
    · split at hcs <;> cases hcs
    · cases hcs
    · cases hcs
  have hprivate : ∀ cs, privateLexeme cs ≠ ⟨.number bits, rest, true⟩ := by
    intro cs hcs
    unfold privateLexeme at hcs
    split at hcs <;> cases hcs
  have hstring : ∀ quote cs, stringLexeme quote cs ≠ ⟨.number bits, rest, true⟩ := by
    intro quote cs hcs
    unfold stringLexeme at hcs
    split at hcs <;> cases hcs
  have htemplate : ∀ cs, templateLexeme cs ≠ ⟨.number bits, rest, true⟩ := by
    intro cs hcs
    unfold templateLexeme at hcs
    split at hcs <;> cases hcs
  unfold lexeme at h
  split at h
  · cases h
  · cases h
  · exact absurd h (hprivate _)
  · exact absurd h (hstring _ _)
  · exact absurd h (hstring _ _)
  · exact absurd h (htemplate _)
  · split at h
    · exact .inr ⟨_, _, rfl, ‹_›⟩
    · exact absurd h (hpunct _)
  · split at h
    · exact .inl ⟨_, _, rfl, ‹_›⟩
    · split at h
      · exact absurd h (hword _)
      · exact absurd h (hpunct _)

/-- A number starts with a digit, or with a point and a digit; a local reader reads the rest. -/
lemma exists_of_lexeme_number (h : lexeme false (text ++ rest) = ⟨.number bits, rest, true⟩) :
    ∃ (front text' : List Char) (f : Reader Token), text = front ++ text' ∧ f.IsLocal ∧
      (∀ cs, lexeme false (front ++ cs) = .ofReading true (f cs)) ∧
      ((∃ c, front = [c] ∧ c.isDigit = true) ∨ ∃ d, front = ['.', d]) := by
  obtain ⟨front, cs, f, hcs, hlocal, hread, hfront⟩ : ∃ (front cs : List Char) (f : Reader Token),
      text ++ rest = front ++ cs ∧ f.IsLocal ∧ (∀ cs, lexeme false (front ++ cs) = .ofReading true (f cs)) ∧
      ((∃ c, front = [c] ∧ c.isDigit = true) ∨ ∃ d, front = ['.', d]) := by
    rcases number_cases h with ⟨c, r, hcs, hc⟩ | ⟨d, r, hcs, hd⟩
    · exact ⟨[c], r, number c, hcs, isLocal_number hc, lexeme_digit hc, .inl ⟨c, rfl, hc⟩⟩
    · exact ⟨['.', d], r, _, hcs, isLocal_point hd, lexeme_point hd, .inr ⟨d, rfl⟩⟩
  -- what is left is the end of what stands behind the front
  rw [hcs, hread] at h
  obtain ⟨text', htext'⟩ := hlocal.suffix cs
  rw [show (f cs).2.1 = rest from congrArg Lexeme.rest h] at htext'
  rw [← htext', ← append_assoc] at hcs
  exact ⟨front, text', f, append_cancel_right hcs, hlocal, hread, hfront⟩

lemma lexeme_number (h : lexeme false (text ++ rest) = ⟨.number bits, rest, true⟩)
    (hstops : stops rest' = true) : lexeme false (text ++ rest') = ⟨.number bits, rest', true⟩ := by
  obtain ⟨front, text, f, rfl, hlocal, hread, -⟩ := exists_of_lexeme_number h
  rw [append_assoc, hread] at h ⊢
  simp only [Lexeme.ofReading, Lexeme.mk.injEq] at h
  have hfront : f (text ++ rest) = (.number bits, [] ++ rest, true) := Prod.ext h.1 (Prod.ext h.2.1 h.2.2)
  rw [hlocal.front hfront hstops]
  rfl

end Parts
end ReactiveTemplate.Script
