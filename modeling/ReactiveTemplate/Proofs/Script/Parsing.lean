import ReactiveTemplate.Proofs.Script.Phrase
/-!
# Parsing — phrases are read as their trees
-/
set_option linter.all false

namespace ReactiveTemplate.Script
open List

/-! ## Tokens around phrases -/

def followers : List String := plainOperators ++ assignmentOperators ++ stepOperators ++ [",", ")"]

namespace Token

def follows : Token → Bool
  | finish => true
  | punct s => followers.contains s
  | _ => false

def isNeutral (t : Token) : Bool := t.follows && !t.is "++" && !t.is "--"

def closes (t : Token) : Bool := t == finish || t == punct "," || t == punct ")"

def pull (t : Token) : Nat := (t.symbol?.map Phrase.pull).getD 0

def hold (t : Token) : Nat := (t.symbol?.map Phrase.hold).getD 0

def startsPhrase : Token → Bool
  | word x false => isName x
  | number _ => true
  | punct s => ("(" :: stepOperators ++ signOperators).contains s
  | _ => false

variable {t : Token} {s : String}

lemma is_of_follows (h : t.follows = true) (hs : s ∉ followers) : t.is s = false := by
  cases t with
  | finish => rfl
  | punct s' =>
    have hs' : s' ∈ followers := by simpa [follows] using h
    have hne : s' ≠ s := fun heq => hs (heq ▸ hs')
    simpa [is, symbol?] using hne
  | _ => cases h

lemma isTemplate_of_follows (h : t.follows = true) : t.isTemplate = false := by
  cases t <;> first | rfl | cases h

lemma is_of_isName {x : String} (hx : isName x = true) (hs : isName s = false) : (word x false).is s = false := by
  have hne : x ≠ s := by
    rintro rfl
    exact absurd (hx.symm.trans hs) (by decide)
  simpa [is, symbol?] using hne

lemma is_of_startsPhrase (h : t.startsPhrase = true) (hs : s ∉ "(" :: stepOperators ++ signOperators)
    (hname : isName s = false) : t.is s = false := by
  cases t with
  | word x escaped =>
    cases escaped with
    | true => cases h
    | false => exact is_of_isName h hname
  | punct s' =>
    have hs' : s' ∈ "(" :: stepOperators ++ signOperators := by simpa [startsPhrase] using h
    have hne : s' ≠ s := fun heq => hs (heq ▸ hs')
    simpa [is, symbol?] using hne
  | number bits => rfl
  | _ => cases h

lemma closes_cases (h : t.closes = true) : t = finish ∨ t = punct "," ∨ t = punct ")" := by
  simpa [closes, or_assoc] using h

lemma follows_of_closes (h : t.closes = true) : t.follows = true := by
  rcases closes_cases h with rfl | rfl | rfl <;> decide

lemma isNeutral_of_closes (h : t.closes = true) : t.isNeutral = true := by
  rcases closes_cases h with rfl | rfl | rfl <;> decide

end Token

lemma Phrase.startsPhrase_cursor {e : Phrase} (h : e.fits = true) (b : Nat) (row : List Chunk) :
    (cursor b (e.chunks ++ row)).token.startsPhrase = true := by
  induction e generalizing row with
  | name gap x => exact h
  | numeral gap text bits => rfl
  | paren gap inner behind => exact rfl
  | call gap callee opening arguments behind =>
    simp only [fits, Bool.and_eq_true] at h
    exact h.1
  | stepBefore gap operator inside x =>
    simp only [fits, Bool.and_eq_true, contains_iff_mem] at h
    have hmem : operator ∈ "(" :: stepOperators ++ signOperators := by simp [h.1]
    exact contains_iff_mem.2 hmem
  | stepBehind gap x inside operator =>
    simp only [fits, Bool.and_eq_true] at h
    exact h.1.2
  | sign gap operator operand =>
    simp only [fits, Bool.and_eq_true, contains_iff_mem] at h
    have hmem : operator ∈ "(" :: stepOperators ++ signOperators := by simp [h.1.1]
    exact contains_iff_mem.2 hmem
  | assign gap x inside operator value =>
    simp only [fits, Bool.and_eq_true] at h
    exact h.1.1.1
  | binary left gap operator right ih _ =>
    simp only [fits, Bool.and_eq_true] at h
    rw [chunks, append_assoc]
    exact ih h.1.1.1.1.2 _
  | comma first gap rest ih _ =>
    simp only [fits, Bool.and_eq_true] at h
    rw [chunks, append_assoc]
    exact ih h.1.1 _

lemma Phrase.is_cursor_chunks {e : Phrase} (h : e.fits = true) (b : Nat) (row : List Chunk) {s : String}
    (hs : s ∉ "(" :: stepOperators ++ signOperators) (hname : isName s = false) :
    (cursor b (e.chunks ++ row)).token.is s = false :=
  Token.is_of_startsPhrase (e.startsPhrase_cursor h b row) hs hname

/-! ## Operands -/

namespace Parser
open Phrase

variable {g : Grammar} {b : Nat} {q : Chunk} {ps : List Chunk} {gap : List Char} {x : String}

/-- A parser reads a phrase that stands at a place, whatever chunks stand behind it, and stops there. -/
abbrev Reads (P : Parser Node) (e : Phrase) (b : Nat) (q : Chunk) (ps : List Chunk) : Prop :=
  P {} (cursor b (e.chunks ++ q :: ps)) = some (e.tree b, cursor (b + e.size) (q :: ps))

lemma not_reserved (hx : isName x = true) : reservedWords.contains x = false := by
  unfold isName at hx
  simp only [Bool.and_eq_true, Bool.not_eq_true'] at hx
  exact hx.1.2

lemma isReference_name (hx : isName x = true) (m : Mode) : isReference m (.word x false) = true := by
  unfold isReference
  split
  · rename_i heq
    cases heq
    exact absurd hx (by decide)
  · rename_i heq
    cases heq
    exact absurd hx (by decide)
  · simp only [Token.isPlainWord, not_reserved hx, Bool.not_false]

lemma isBinding_name (hx : isName x = true) : isBinding (.word x false) = true := by
  unfold isBinding
  split
  · rename_i heq
    cases heq
    exact absurd hx (by decide)
  · rename_i heq
    cases heq
    exact absurd hx (by decide)
  · simp only [Token.isPlainWord, not_reserved hx, Bool.not_false]

lemma next_word (h : AllRead (.word gap x :: q :: ps)) :
    (cursor b (.word gap x :: q :: ps)).next = cursor (b + (gap.length + x.toList.length)) (q :: ps) := by
  rw [next_cursor h, Chunk.size_word]

variable {operator s : String} {e : Phrase} {row : List Chunk} {m : Mode} {c : Cursor} {least n start : Nat} {behind : List Char} {t : Token}

lemma next_punct (h : AllRead (.punct gap s :: q :: ps)) :
    (cursor b (.punct gap s :: q :: ps)).next = cursor (b + (gap.length + s.toList.length)) (q :: ps) := by
  rw [next_cursor h, Chunk.size_punct]

lemma next_punct_chunks (h : AllRead (.punct gap s :: (e.chunks ++ row))) :
    (cursor b (.punct gap s :: (e.chunks ++ row))).next =
      cursor (b + (gap.length + s.toList.length)) (e.chunks ++ row) := by
  obtain ⟨p, ps, hp, -⟩ := e.exists_chunks_eq
  rw [hp] at h ⊢
  exact next_punct h

lemma is_cursor_punct {s' : String} : (cursor b (.punct gap s :: row)).token.is s' = decide (s = s') := by
  rfl

lemma reference_name (hx : isName x = true) (h : AllRead (.word gap x :: q :: ps)) :
    reference {} (cursor b (.word gap x :: q :: ps)) =
      some (nameAt b gap x, cursor (b + (gap.length + x.toList.length)) (q :: ps)) := by
  have htoken : (cursor b (.word gap x :: q :: ps)).token = .word x false := rfl
  unfold reference word
  simp only [run_bind, run_position, run_read, run_get, Option.bind_some, htoken, isReference_name hx, if_true,
    run_advance, next_word h]
  rfl

lemma wordOperand_name (hx : isName x = true) (h : AllRead (.word gap x :: q :: ps)) :
    wordOperand g x {} (cursor b (.word gap x :: q :: ps)) =
      some (nameAt b gap x, cursor (b + (gap.length + x.toList.length)) (q :: ps)) := by
  have hasync : (cursor b (.word gap x :: q :: ps)).token.is "async" = false :=
    Token.is_of_startsPhrase hx (by decide) (by decide)
  unfold wordOperand
  split
  all_goals first
    | exact absurd hx (by decide)
    | simp only [onAsyncFunction, run_bind, run_peek, run_on, Option.bind_some, hasync]
      exact reference_name hx h

lemma primary_name (hx : isName x = true) (h : AllRead (.word gap x :: q :: ps)) :
    primary g {} (cursor b (.word gap x :: q :: ps)) =
      some (nameAt b gap x, cursor (b + (gap.length + x.toList.length)) (q :: ps)) := by
  unfold primary
  rw [run_bind, run_get, Option.bind_some]
  exact wordOperand_name hx h

lemma primary_numeral {text : List Char} {bits : Nat} (h : AllRead (⟨gap, text, .number bits⟩ :: q :: ps)) :
    primary g {} (cursor b (⟨gap, text, .number bits⟩ :: q :: ps)) =
      some ((Phrase.numeral gap text bits).tree b, cursor (b + (Phrase.numeral gap text bits).size) (q :: ps)) := by
  show constant (.number bits) {} _ = _
  unfold constant
  simp only [run_bind, run_position, Option.bind_some, run_advance, next_cursor h]
  have hsize : (⟨gap, text, .number bits⟩ : Chunk).size = gap.length + text.length := length_append
  rw [hsize]
  simp only [tree, trees, Phrase.span, size_numeral]
  rfl

/-! ### Items -/

def ReadsItems (P : Parser Node) (n : Nat) : Prop :=
  ∀ {e : Phrase} {b : Nat} {q : Chunk} {ps : List Chunk}, e.fits = true → e.isItem = true → e.floors < n →
    AllRead (e.chunks ++ q :: ps) → q.token.closes = true → Reads P e b q ps

def delimitedStep {α : Type} (closing : String) (item : Parser α) (items : List α) :
    Parser (List α ⊕ List α × Bool) := do
  let n ← item
  let items := items ++ [n]
  if ← on closing then return .inr (items, false)
  expect ","
  if ← on closing then return .inr (items, true)
  return .inl items

lemma run_delimited {α : Type} (closing : String) (item : Parser α) (m : Mode) (c : Cursor) :
    delimited closing item m c = if c.token.is closing then some (([], false), c)
      else iterate (delimitedStep closing item) (c.rest.length + 2) [] m c := by
  unfold delimited
  rw [run_bind, run_on]
  cases c.token.is closing <;> rfl

lemma run_delimitedStep {α : Type} {closing : String} {item : Parser α} {items : List α} {c' : Cursor}
    {n : α} (h : item m c = some (n, c')) : delimitedStep closing item items m c =
      if c'.token.is closing then some (.inr (items ++ [n], false), c')
      else if c'.token.is "," then
        if c'.next.token.is closing then some (.inr (items ++ [n], true), c'.next)
        else some (.inl (items ++ [n]), c'.next)
      else none := by
  unfold delimitedStep
  rw [run_bind, h, Option.bind_some, run_bind, run_on, Option.bind_some]
  cases c'.token.is closing with
  | true => rfl
  | false =>
    simp only [Bool.false_eq_true, if_false, run_bind, run_expect]
    cases c'.token.is "," with
    | false => rfl
    | true =>
      simp only [if_true, Option.bind_some, run_on]
      cases c'.next.token.is closing <;> rfl

lemma iterate_delimitedStep {P : Parser Node} (hP : ReadsItems P n) (e : Phrase) :
    ∀ {b : Nat} {fuel : Nat} {items : List Node}, e.fits = true → e.floors < n → e.commas < fuel →
      AllRead (e.chunks ++ .punct behind ")" :: q :: ps) →
      iterate (delimitedStep ")" P) fuel items {} (cursor b (e.chunks ++ .punct behind ")" :: q :: ps)) =
        some ((items ++ e.trees b, false), cursor (b + e.size) (.punct behind ")" :: q :: ps)) := by
  induction e using item_rec with
  | item e hitem =>
    intro b fuel items hfits hfloors hfuel hread
    obtain ⟨fuel, rfl⟩ := Nat.exists_eq_add_one.2 (Nat.zero_lt_of_lt hfuel)
    rw [run_iterate, run_delimitedStep (hP hfits hitem hfloors hread rfl), trees_eq hitem]
    rfl
  | comma first gap rest ih =>
    intro b fuel items hfits hfloors hfuel hread
    simp only [fits, Bool.and_eq_true] at hfits
    simp only [floors] at hfloors
    simp only [Phrase.commas] at hfuel
    obtain ⟨fuel, rfl⟩ := Nat.exists_eq_add_one.2 (Nat.zero_lt_of_lt hfuel)
    simp only [chunks, append_assoc, cons_append] at hread ⊢
    have hrest := hread.right
    have hclosing : (cursor (b + first.size + (gap.length + 1)) (rest.chunks ++ .punct behind ")" :: q :: ps)).token.is ")"
        = false := is_cursor_chunks hfits.2 _ _ (by decide) (by decide)
    rw [run_iterate, run_delimitedStep (hP hfits.1.1 hfits.1.2 (by omega) hread rfl)]
    simp only [is_cursor_punct, next_punct_chunks hrest, String.reduceEq, decide_false, Bool.false_eq_true, if_false,
      decide_true, if_true, show ",".toList.length = 1 from rfl, hclosing, Option.bind_some]
    rw [ih hfits.2 (by omega) (by omega) hrest.2, trees, trees_eq hfits.1.2, size_comma]
    simp [Nat.add_assoc]

lemma delimited_items {P : Parser Node} (hP : ReadsItems P n)
    (hfits : e.fits = true) (hfloors : e.floors < n) (hread : AllRead (e.chunks ++ .punct behind ")" :: q :: ps)) :
    delimited ")" P {} (cursor b (e.chunks ++ .punct behind ")" :: q :: ps)) =
      some ((e.trees b, false), cursor (b + e.size) (.punct behind ")" :: q :: ps)) := by
  have hclosing : (cursor b (e.chunks ++ .punct behind ")" :: q :: ps)).token.is ")" = false :=
    is_cursor_chunks hfits _ _ (by decide) (by decide)
  have hfuel : e.commas < (cursor b (e.chunks ++ .punct behind ")" :: q :: ps)).rest.length + 2 :=
    Nat.lt_of_le_of_lt commas_le_rest (Nat.lt_add_of_pos_right (by decide))
  rw [run_delimited, if_neg (by simp [hclosing]), iterate_delimitedStep hP e hfits hfloors hfuel hread, nil_append]

lemma run_joined {inside : Nat} {ns : List Node} (h : ns ≠ []) (k : Node → Parser Node) :
    (match ns with
      | [] => failure >>= k
      | [e] => pure e >>= k
      | es => close inside .sequence es >>= k) m c = k (Phrase.join ⟨inside, c.before⟩ ns) m c := by
  match ns with
  | [] => exact absurd rfl h
  | [e] => rfl
  | e :: e' :: es => rfl

lemma primary_paren (hg : ReadsItems g.assignment n) {inner : Phrase}
    (hfits : inner.fits = true) (hfloors : inner.floors < n)
    (h : AllRead ((Phrase.paren gap inner behind).chunks ++ q :: ps)) :
    Reads (primary g) (.paren gap inner behind) b q ps := by
  unfold Reads primary
  simp only [chunks, cons_append, append_assoc, nil_append] at h ⊢
  have hinner := h.2
  rw [run_bind]
  show parenthesized g {} _ = _
  unfold parenthesized
  rw [run_bind, run_position, Option.bind_some, run_bind, run_expect, is_cursor_punct, if_pos (by simp)]
  rw [next_punct_chunks h, Option.bind_some, run_bind, run_position, Option.bind_some, run_bind]
  have hitems : allowingIn (delimited ")" g.assignment) {} _ = _ :=
    delimited_items (b := b + (gap.length + 1)) hg hfits hfloors hinner
  have hclose := hinner.right
  rw [show "(".toList.length = 1 from rfl, hitems, Option.bind_some]
  simp only [if_false]
  refine (run_joined (trees_ne_nil _ _) _).trans ?_
  rw [run_bind, run_expect, next_punct hclose,
    start_cursor_chunks]
  simp only [tree, trees, Phrase.span, size_paren, Nat.add_assoc]
  rfl

/-! ### Members and calls -/

def endsMembers (t : Token) : Bool := !t.is "[" && !t.is "." && !t.is "?." && !t.isTemplate

lemma endsMembers_of_follows (h : t.follows = true) : endsMembers t = true := by
  simp only [endsMembers, Token.is_of_follows h (show "[" ∉ followers by decide),
    Token.is_of_follows h (show "." ∉ followers by decide), Token.is_of_follows h (show "?." ∉ followers by decide),
    Token.isTemplate_of_follows h, Bool.not_false, Bool.and_self]

lemma members_end {n : Node} {chained : Bool} (h : endsMembers c.token = true) :
    members g start true n chained {} c = some ((n, chained), c) := by
  simp only [endsMembers, Bool.and_eq_true, Bool.not_eq_true'] at h
  obtain ⟨⟨⟨hbracket, hdot⟩, hquestion⟩, htemplate⟩ := h
  unfold members
  rw [run_repeatFrom, run_iterate]
  simp only [run_bind, run_get, run_read, Option.bind_some, hbracket, hdot, hquestion, htemplate, Bool.false_and,
    Bool.false_eq_true, if_false, run_pure]

def callsStep (g : Grammar) (start : Nat) : Node × Bool → Parser ((Node × Bool) ⊕ (Node × Bool)) :=
  fun ((n, chained) : Node × Bool) => do
    let (n, chained) ← members g start true n chained
    if ← on "(" then
      let items ← arguments g
      let n ← close start (.call false) (n :: items)
      return .inl (n, chained)
    else if ← eat "?." then
      let items ← arguments g
      let n ← close start (.call true) (n :: items)
      return .inl (n, true)
    else return .inr (n, chained)

lemma run_calls {n : Node} :
    calls g start n m c = iterate (callsStep g start) (c.rest.length + 2) (n, false) m c := rfl

lemma callsStep_end {n : Node} {chained : Bool} (h : c.token.follows = true) :
    callsStep g start (n, chained) {} c = some (.inr (n, chained), c) := by
  have hparen : c.token.is "(" = false := Token.is_of_follows h (by decide)
  have hquestion : c.token.is "?." = false := Token.is_of_follows h (by decide)
  unfold callsStep
  simp only [run_bind, members_end (endsMembers_of_follows h), Option.bind_some, run_on, hparen, Bool.false_eq_true,
    if_false, run_eat, hquestion, run_pure]

lemma calls_end {n : Node} (h : c.token.follows = true) : calls g start n {} c = some ((n, false), c) := by
  rw [run_calls, run_iterate, callsStep_end h]
  rfl

lemma readsItems_spreadable (hg : ReadsItems g.assignment n) : ReadsItems (spreadable g) n := by
  intro e b q ps hfits hitem hfloors hread hq
  have hdots : (cursor b (e.chunks ++ q :: ps)).token.is "..." = false :=
    is_cursor_chunks hfits _ _ (by decide) (by decide)
  unfold Reads spreadable
  rw [run_bind, run_on, hdots]
  exact hg hfits hitem hfloors hread hq

lemma arguments_items (hg : ReadsItems g.assignment n) {opening : List Char}
    (hfits : e.fits = true) (hfloors : e.floors < n)
    (h : AllRead (.punct opening "(" :: (e.chunks ++ .punct behind ")" :: q :: ps))) :
    arguments g {} (cursor b (.punct opening "(" :: (e.chunks ++ .punct behind ")" :: q :: ps))) =
      some (e.trees (b + (opening.length + 1)),
        cursor (b + (opening.length + 1) + e.size + (behind.length + 1)) (q :: ps)) := by
  have hitems : allowingIn (delimited ")" (spreadable g)) {} _ = _ :=
    delimited_items (b := b + (opening.length + 1)) (readsItems_spreadable hg) hfits hfloors h.2
  unfold arguments
  rw [run_bind, run_expect, is_cursor_punct, if_pos (by simp), Option.bind_some, next_punct_chunks h,
    show "(".toList.length = 1 from rfl, run_bind, hitems, Option.bind_some]
  simp only
  rw [run_bind, run_expect, is_cursor_punct, if_pos (by simp), Option.bind_some, next_punct h.2.right]
  rfl

lemma calls_call (hg : ReadsItems g.assignment n) {callee : Node} {opening : List Char}
    (hfits : e.fits = true) (hfloors : e.floors < n) (hq : q.token.follows = true)
    (h : AllRead (.punct opening "(" :: (e.chunks ++ .punct behind ")" :: q :: ps))) :
    calls g start callee {} (cursor b (.punct opening "(" :: (e.chunks ++ .punct behind ")" :: q :: ps))) =
      some ((.node (.call false) ⟨start, b + (opening.length + 1) + e.size + (behind.length + 1)⟩
          (callee :: e.trees (b + (opening.length + 1))), false),
        cursor (b + (opening.length + 1) + e.size + (behind.length + 1)) (q :: ps)) := by
  have hcall : callsStep g start (callee, false) {}
      (cursor b (.punct opening "(" :: (e.chunks ++ .punct behind ")" :: q :: ps))) =
      some (.inl (.node (.call false) ⟨start, b + (opening.length + 1) + e.size + (behind.length + 1)⟩
          (callee :: e.trees (b + (opening.length + 1))), false),
        cursor (b + (opening.length + 1) + e.size + (behind.length + 1)) (q :: ps)) := by
    have hmembers : endsMembers
        (cursor b (.punct opening "(" :: (e.chunks ++ .punct behind ")" :: q :: ps))).token = true :=
      show endsMembers (.punct "(") = true by decide
    unfold callsStep
    simp only [run_bind, members_end hmembers, Option.bind_some, run_on,
      is_cursor_punct, decide_true, if_true, arguments_items hg hfits hfloors h, run_close, before_cursor, run_pure]
  rw [run_calls, run_iterate, hcall]
  simp only [Option.bind_some]
  rw [run_iterate, callsStep_end hq]
  rfl

lemma leftSide_operand (hg : ReadsItems g.assignment n) (he : e.isOperand = true)
    (hfits : e.fits = true) (hfloors : e.floors ≤ n) (h : AllRead (e.chunks ++ q :: ps)) (hq : q.token.follows = true) :
    Reads (leftSide g) e b q ps := by
  unfold Reads leftSide
  rw [run_bind, run_position, Option.bind_some, run_bind]
  cases e with
  | name gap x =>
    rw [chunks, singleton_append] at h ⊢
    rw [primary_name hfits h, Option.bind_some, run_bind, calls_end hq, size_name]
    rfl
  | numeral gap text bits =>
    rw [chunks, singleton_append] at h ⊢
    rw [primary_numeral h, Option.bind_some, run_bind, calls_end hq]
    rfl
  | paren gap inner behind =>
    rw [primary_paren hg (show inner.fits = true from hfits) hfloors h, Option.bind_some, run_bind, calls_end hq]
    rfl
  | call gap callee opening arguments behind =>
    simp only [fits, Bool.and_eq_true] at hfits
    rw [start_cursor_chunks]
    simp only [chunks, cons_append, append_assoc, nil_append] at h ⊢
    rw [primary_name hfits.1 h, Option.bind_some, run_bind, calls_call hg hfits.2 hfloors hq h.2]
    simp [run_pure, tree, trees, Phrase.join, Phrase.span,
      size_call, Nat.add_assoc]
  | _ => cases he

/-! ### Operators in front and behind -/

def ReadsUnary (P : Parser Node) (n : Nat) : Prop :=
  ∀ {e : Phrase} {b : Nat} {q : Chunk} {ps : List Chunk}, e.fits = true → e.tightness = 14 → e.floors < n →
    AllRead (e.chunks ++ q :: ps) → q.token.isNeutral = true → Reads P e b q ps

lemma step_cases (h : stepOperators.contains operator = true) : operator = "++" ∨ operator = "--" := by
  simpa [stepOperators] using h

lemma is_step (b : Nat) (gap : List Char) (row : List Chunk) (h : stepOperators.contains operator = true) :
    ((cursor b (.punct gap operator :: row)).token.is "++" || (cursor b (.punct gap operator :: row)).token.is "--") = true ∧
      (if (cursor b (.punct gap operator :: row)).token.is "++" then "++" else "--") = operator := by
  rcases step_cases h with rfl | rfl <;> exact ⟨rfl, rfl⟩

lemma run_target_name (patterns : Bool) :
    (((nameAt b gap x).target? patterns).getM : Parser Node) {} c = some (nameAt b gap x, c) := by
  cases patterns <;> rfl

lemma update_before (hg : ReadsUnary g.unary n) {inside : List Char}
    (hfits : (Phrase.stepBefore gap operator inside x).fits = true) (hn : 0 < n)
    (h : AllRead ((Phrase.stepBefore gap operator inside x).chunks ++ q :: ps)) (hq : q.token.isNeutral = true) :
    Reads (update g) (.stepBefore gap operator inside x) b q ps := by
  unfold Reads update
  simp only [fits, Bool.and_eq_true] at hfits
  simp only [chunks, cons_append, nil_append] at h ⊢
  have hname : g.unary {} (cursor _ (.word inside x :: q :: ps)) = some (nameAt _ inside x, _) :=
    hg (b := b + (gap.length + operator.toList.length)) (e := .name inside x) hfits.2 rfl hn h.2 hq
  obtain ⟨hstep, hoperator⟩ := is_step b gap (.word inside x :: q :: ps) hfits.1
  simp only [run_bind, run_position, run_get, Option.bind_some, hstep, if_true, run_advance, next_punct h, hname,
    run_target_name, hoperator, run_close]
  rw [size_name]
  simp [start_cursor, before_cursor, tree, trees, Phrase.join, Phrase.span, lead,
    size_stepBefore, Chunk.punct, Nat.add_assoc]

lemma update_behind (hg : ReadsItems g.assignment n) {inside : List Char}
    (hfits : (Phrase.stepBehind gap x inside operator).fits = true)
    (h : AllRead ((Phrase.stepBehind gap x inside operator).chunks ++ q :: ps)) :
    Reads (update g) (.stepBehind gap x inside operator) b q ps := by
  unfold Reads update
  simp only [fits, Bool.and_eq_true, Bool.not_eq_true'] at hfits
  simp only [chunks, cons_append, nil_append] at h ⊢
  have hplus : (cursor b (.word gap x :: .punct inside operator :: q :: ps)).token.is "++" = false :=
    Token.is_of_isName hfits.1.2 (by decide)
  have hminus : (cursor b (.word gap x :: .punct inside operator :: q :: ps)).token.is "--" = false :=
    Token.is_of_isName hfits.1.2 (by decide)
  have hfollows : (Chunk.punct inside operator).token.follows = true := by
    rcases step_cases hfits.1.1 with rfl | rfl <;> rfl
  have hname : leftSide g {} (cursor b (.word gap x :: .punct inside operator :: q :: ps)) =
      some (nameAt b gap x, _) :=
    leftSide_operand (e := .name gap x) hg rfl hfits.1.2 (Nat.zero_le n) h hfollows
  obtain ⟨hstep, hoperator⟩ := is_step (b + (Phrase.name gap x).size) inside (q :: ps) hfits.1.1
  have hnewline : (cursor (b + (Phrase.name gap x).size) (.punct inside operator :: q :: ps)).newline = false := hfits.2
  simp only [run_bind, run_position, run_get, Option.bind_some, hplus, hminus, Bool.or_false, Bool.false_eq_true,
    if_false, hname, hstep, hnewline, Bool.not_false, Bool.and_true, if_true, run_target_name, run_advance,
    next_punct h.2, hoperator, run_close]
  simp only [start_cursor, before_cursor, tree, trees, Phrase.join, Phrase.span, lead,
    size_stepBehind, size_name, Chunk.word, Nat.add_assoc]

lemma is_of_isOperand (he : e.isOperand = true) (hfits : e.fits = true)
    (hs : s ≠ "(") (hname : isName s = false) : (cursor b (e.chunks ++ row)).token.is s = false := by
  cases e with
  | name gap x => exact Token.is_of_isName hfits hname
  | numeral gap text bits => rfl
  | paren gap inner behind =>
    exact decide_eq_false hs.symm
  | call gap callee opening arguments behind =>
    simp only [fits, Bool.and_eq_true] at hfits
    exact Token.is_of_isName hfits.1 hname
  | _ => cases he

lemma update_operand (hg : ReadsItems g.assignment n) (he : e.isOperand = true)
    (hfits : e.fits = true) (hfloors : e.floors ≤ n) (h : AllRead (e.chunks ++ q :: ps)) (hq : q.token.isNeutral = true) :
    Reads (update g) e b q ps := by
  simp only [Token.isNeutral, Bool.and_eq_true, Bool.not_eq_true'] at hq
  have hplus : (cursor b (e.chunks ++ q :: ps)).token.is "++" = false := is_of_isOperand he hfits (by decide) (by decide)
  have hminus : (cursor b (e.chunks ++ q :: ps)).token.is "--" = false := is_of_isOperand he hfits (by decide) (by decide)
  have hleft := leftSide_operand (b := b) hg he hfits hfloors h hq.1.1
  unfold Reads update
  simp only [run_bind, run_position, run_get, Option.bind_some, hplus, hminus, Bool.or_false, Bool.false_eq_true,
    if_false, hleft, token_cursor, hq.1.2, hq.2, Bool.false_and, run_pure]

lemma filter_symbol? {symbols : List String} (h : ∀ s ∈ symbols, t.is s = false) :
    t.symbol?.filter symbols.contains = none := by
  cases hs : t.symbol? with
  | none => rfl
  | some s =>
    have hmem : s ∉ symbols := fun hmem => by
      have := h s hmem
      simp [Token.is, hs] at this
    simp [hmem]

lemma unary_eq_update (h : ∀ s ∈ "await" :: unaryOperators, c.token.is s = false) : unary g {} c = update g {} c := by
  have hfilter := filter_symbol? (fun s hs => h s (.tail _ hs))
  unfold unary
  simp only [run_bind, run_position, run_get, Option.bind_some, hfilter, run_on, h "await" mem_cons_self,
    Bool.false_eq_true, if_false]

lemma unary_sign (hg : ReadsUnary g.unary n) {operand : Phrase}
    (hfits : (Phrase.sign gap operator operand).fits = true) (hfloors : operand.floors < n)
    (h : AllRead ((Phrase.sign gap operator operand).chunks ++ q :: ps)) (hq : q.token.isNeutral = true) :
    Reads (unary g) (.sign gap operator operand) b q ps := by
  unfold Reads unary
  simp only [fits, Bool.and_eq_true, beq_iff_eq] at hfits
  simp only [chunks, cons_append] at h ⊢
  have hoperand := hg (b := b + (gap.length + operator.toList.length)) hfits.1.2 hfits.2 hfloors h.2 hq
  have hfilter : (cursor b (.punct gap operator :: (operand.chunks ++ q :: ps))).token.symbol?.filter
      unaryOperators.contains = some operator := by
    have hmem : ∀ s ∈ signOperators, s ∈ unaryOperators := by decide
    simp [token_cursor, Chunk.punct, Token.symbol?, hmem operator (contains_iff_mem.1 hfits.1.1)]
  have hitem : operand.isItem = true := isItem_of_tightness (by simp [hfits.2])
  simp only [run_bind, run_position, run_get, Option.bind_some, hfilter, run_advance, next_punct_chunks h, hoperand,
    run_close]
  simp [start_cursor, before_cursor, tree_sign hitem, Phrase.span, lead, size_sign,
    Chunk.punct, Nat.add_assoc]

lemma unary_phrase (hassignment : ReadsItems g.assignment n) (hunary : ReadsUnary g.unary n)
    (hfits : e.fits = true) (he : e.tightness = 14) (hfloors : e.floors ≤ n) (h : AllRead (e.chunks ++ q :: ps))
    (hq : q.token.isNeutral = true) :
    Reads (unary g) e b q ps := by
  have hplain : ∀ s ∈ "await" :: unaryOperators, s ≠ "(" ∧ isName s = false := by decide
  have hoperand : e.isOperand = true → Reads (unary g) e b q ps := by
    intro hoperand
    rw [Reads, unary_eq_update (fun s hs => is_of_isOperand hoperand hfits (hplain s hs).1 (hplain s hs).2)]
    exact update_operand hassignment hoperand hfits hfloors h hq
  cases e with
  | name gap x => exact hoperand rfl
  | numeral gap text bits => exact hoperand rfl
  | paren gap inner behind => exact hoperand rfl
  | call gap callee opening arguments behind => exact hoperand rfl
  | stepBefore gap operator inside x =>
    rw [Reads, unary_eq_update ?_]
    · exact update_before hunary hfits hfloors h hq
    · have hstep : ∀ s ∈ "await" :: unaryOperators, s ∉ stepOperators := by decide
      intro s hs
      simp only [fits, Bool.and_eq_true, contains_iff_mem] at hfits
      exact decide_eq_false (fun heq => hstep s hs (heq ▸ hfits.1))
  | stepBehind gap x inside operator =>
    rw [Reads, unary_eq_update ?_]
    · exact update_behind hassignment hfits h
    · intro s hs
      simp only [fits, Bool.and_eq_true] at hfits
      exact Token.is_of_isName hfits.1.2 (hplain s hs).2
  | sign gap operator operand => exact unary_sign hunary hfits hfloors h hq
  | binary left gap operator right =>
    have hhold : ∀ s ∈ plainOperators, hold s ≠ 14 := by decide
    simp only [fits, Bool.and_eq_true, contains_iff_mem] at hfits
    exact absurd he (hhold operator hfits.1.1.1.1.1)
  | assign gap x inside operator value => cases he
  | comma first gap rest => cases he

/-! ### Operators between operands -/

def ReadsOperators (P : Nat → Parser Node) (n : Nat) : Prop :=
  ∀ {e : Phrase} {b least : Nat} {q : Chunk} {ps : List Chunk}, e.fits = true → least < e.tightness → e.floors < n →
    AllRead (e.chunks ++ q :: ps) → q.token.isNeutral = true → q.token.pull ≤ e.tightness → q.token.hold ≤ least →
      Reads (P least) e b q ps

def operatorStep (g : Grammar) (start least : Nat) (opens : Bool) (left : Node) : Parser (Node ⊕ Node) := do
  match ← operator? least with
  | some (operator, p) =>
    advance
    let opensRight ← on "("
    let right ← g.binary p
    let n ← operation start operator left right opens opensRight
    return .inl n
  | none => return .inr left

lemma run_binary (hannotations : c.annotations = []) (htoken : c.token.startsPhrase = true) :
    binary g least {} c = (unary g {} c).bind (fun r =>
      iterate (operatorStep g c.start least (c.token.is "(")) (r.2.rest.length + 2) r.1 {} r.2) := by
  unfold binary
  rw [run_bind, run_position, Option.bind_some, run_bind, run_read, Option.bind_some, run_bind, run_get,
    Option.bind_some, run_bind, run_on]
  cases hc : c.token with
  | privateName name => rw [hc] at htoken; cases htoken
  | _ =>
    simp only [hannotations, filter_nil, run_bind, run_annotate]
    rfl

lemma run_operator? : operator? least {} c =
    some ((c.token.symbol?.bind (fun s => (binaryPrecedence? s).bind (fun p =>
      if least < hold s then some (s, p) else none))), c) := by
  unfold operator?
  rw [run_bind, run_read, Option.bind_some, run_bind, run_get, Option.bind_some]
  cases c.token.symbol? with
  | none => rfl
  | some s =>
    simp only [Option.bind_some]
    cases hp : binaryPrecedence? s with
    | none => rfl
    | some p =>
      simp only [hold, hp, run_pure]
      by_cases hs : s = "**"
      · subst hs
        obtain rfl : 12 = p := Option.some.inj hp
        simp [Nat.lt_succ_iff]
      · simp [hs]

lemma operator?_none (h : c.token.hold ≤ least) : operator? least {} c = some (none, c) := by
  rw [run_operator?]
  cases hs : c.token.symbol? with
  | none => rfl
  | some s =>
    have hnot : ¬least < hold s := by simpa [Token.hold, hs] using h
    simp [hnot]

lemma operator?_some (hop : plainOperators.contains operator = true) (h : least < hold operator) :
    operator? least {} (cursor b (.punct gap operator :: row)) =
      some (some (operator, (binaryPrecedence? operator).getD 0), cursor b (.punct gap operator :: row)) := by
  have hsome : ∀ s ∈ plainOperators, binaryPrecedence? s = some ((binaryPrecedence? s).getD 0) := by decide
  have hsymbol : (cursor b (.punct gap operator :: row)).token.symbol? = some operator := rfl
  rw [run_operator?, hsymbol, Option.bind_some, hsome operator (contains_iff_mem.1 hop)]
  simp [h]

lemma run_operation {left right : Node} {opens opensRight : Bool}
    (hop : plainOperators.contains operator = true) (hleft : (operator == "**" && isUnaryForm left) = false) :
    operation start operator left right opens opensRight {} c =
      some (.node (.binary operator) ⟨start, c.before⟩ [left, right], c) := by
  have hlogical : ∀ s ∈ plainOperators, logicalOperators.contains s = false := by decide
  unfold operation
  rw [hlogical operator (contains_iff_mem.1 hop), if_neg Bool.false_ne_true, run_bind, hleft, run_flawIf,
    Option.bind_some, run_close]

lemma isUnaryForm_tree (h : 0 < e.tightness) : isUnaryForm (e.tree b) = e.isSign := by
  cases e with
  | comma first gap rest => cases h
  | _ => rfl

lemma isNeutral_operator (h : plainOperators.contains operator = true) :
    (Chunk.punct gap operator).token.isNeutral = true := by
  have hall : ∀ s ∈ plainOperators, (Token.punct s).isNeutral = true := by decide
  exact hall operator (contains_iff_mem.1 h)

lemma hold_le_precedence (h : t.pull ≤ hold operator) : t.hold ≤ (binaryPrecedence? operator).getD 0 := by
  unfold Token.hold
  unfold Token.pull at h
  cases hsymbol : t.symbol? with
  | none => exact Nat.zero_le _
  | some s =>
    simp only [hsymbol, Option.map_some, Option.getD_some] at h ⊢
    have hhold := hold_le operator
    have hprecedence := precedence_le s
    unfold Phrase.pull hold at *
    by_cases hs : s = "**"
    · rw [if_pos hs] at h
      omega
    · rw [if_neg hs] at h ⊢
      by_cases hop : operator = "**"
      · rw [hop]
        exact hprecedence
      · rwa [if_neg hop] at h

lemma pull_le_tightness (h : t.pull ≤ hold operator)
    (he : (binaryPrecedence? operator).getD 0 < e.tightness) : t.pull ≤ e.tightness := by
  refine Nat.le_trans h ?_
  unfold hold
  split
  · rename_i hop
    rw [hop] at he
    exact he
  · exact Nat.le_of_lt he

lemma iterate_operatorStep (hassignment : ReadsItems g.assignment n) (hunary : ReadsUnary g.unary n)
    (hbinary : ReadsOperators g.binary n) (least : Nat) (opens : Bool) (e : Phrase) :
    ∀ {q : Chunk} {ps : List Chunk}, e.fits = true → least < e.tightness → e.floors ≤ n →
      AllRead (e.chunks ++ q :: ps) → q.token.isNeutral = true → q.token.pull ≤ e.tightness →
      ∃ first b' mid, unary g {} (cursor b (e.chunks ++ q :: ps)) = some (first, cursor b' (mid ++ q :: ps)) ∧
        (mid = [] → e.spine = 0) ∧ e.spine ≤ (flat mid.tail).length + 1 ∧
        ∀ fuel, e.spine < fuel →
          iterate (operatorStep g (b + e.lead.length) least opens) fuel first {} (cursor b' (mid ++ q :: ps)) =
            iterate (operatorStep g (b + e.lead.length) least opens) (fuel - e.spine) (e.tree b) {}
              (cursor (b + e.size) (q :: ps)) := by
  induction e using spine_rec with
  | operand e hspine =>
    intro q ps hfits htight hfloors hread hq _
    have hunit := tightness_of_spine hspine (Nat.zero_lt_of_lt htight)
    refine ⟨e.tree b, b + e.size, [], unary_phrase hassignment hunary hfits hunit hfloors hread hq, fun _ => hspine, ?_, ?_⟩
    · omega
    · intro fuel _
      rw [hspine]
      rfl
  | binary left gap operator right ih =>
    intro q ps hfits htight hfloors hread hq hpull
    simp only [fits, Bool.and_eq_true, decide_eq_true_eq, Bool.not_eq_true'] at hfits
    obtain ⟨⟨⟨⟨⟨hop, hleft⟩, hright⟩, hpullLeft⟩, hholdRight⟩, hsign⟩ := hfits
    simp only [floors] at hfloors
    simp only [tightness] at htight hpull
    have hlead : (Phrase.binary left gap operator right).lead = left.lead := rfl
    rw [chunks, append_assoc, cons_append] at hread ⊢
    have hrest := hread.right
    obtain ⟨first, b', mid, hfirst, hnil, hspine, hloop⟩ := ih hleft (by have := hold_le_pull operator; omega) (by omega)
      hread (isNeutral_operator hop) hpullLeft
    refine ⟨first, b', mid ++ .punct gap operator :: right.chunks, ?_, ?_, ?_, ?_⟩
    · rw [hfirst, append_assoc, cons_append]
    · simp
    · have hroom : 1 ≤ operator.toList.length := by
        have hall : ∀ s ∈ plainOperators, 1 ≤ s.toList.length := by decide
        exact hall operator (contains_iff_mem.1 hop)
      cases mid with
      | nil => simp [spine, hnil rfl]
      | cons p mid =>
        simp only [spine, cons_append, tail_cons, length_flat_append, length_flat_cons,
          Chunk.size_punct] at hspine ⊢
        omega
    · intro fuel hfuel
      have hspine' : (Phrase.binary left gap operator right).spine = left.spine + 1 := rfl
      have hoperand := hbinary (b := b + left.size + (gap.length + operator.toList.length)) hright hholdRight (by omega)
        hrest.2 hq (pull_le_tightness hpull hholdRight) (hold_le_precedence hpull)
      have hunaryForm : (operator == "**" && isUnaryForm (left.tree b)) = false := by
        rw [isUnaryForm_tree (by have := hold_le_pull operator; omega)]
        exact hsign
      have hstep : operatorStep g (b + left.lead.length) least opens (left.tree b) {}
          (cursor (b + left.size) (.punct gap operator :: (right.chunks ++ q :: ps))) =
          some (.inl ((Phrase.binary left gap operator right).tree b),
            cursor (b + (Phrase.binary left gap operator right).size) (q :: ps)) := by
        unfold operatorStep
        simp only [run_bind, operator?_some hop htight, Option.bind_some, run_advance, next_punct_chunks hrest, run_on,
          hoperand, run_operation hop hunaryForm, run_pure]
        rw [tree_binary (isItem_of_tightness (by have := hold_le_pull operator; omega))
          (isItem_of_tightness (Nat.zero_lt_of_lt hholdRight))]
        simp [before_cursor, Phrase.span, hlead, size_binary, Nat.add_assoc]
      rw [hlead, append_assoc, cons_append, hloop fuel (by omega),
        show fuel - left.spine = fuel - (left.spine + 1) + 1 by omega, run_iterate, hstep]
      rfl

lemma binary_phrase (hassignment : ReadsItems g.assignment n) (hunary : ReadsUnary g.unary n)
    (hbinary : ReadsOperators g.binary n) (hfits : e.fits = true) (he : least < e.tightness)
    (hfloors : e.floors ≤ n) (h : AllRead (e.chunks ++ q :: ps)) (hq : q.token.isNeutral = true)
    (hpull : q.token.pull ≤ e.tightness) (hhold : q.token.hold ≤ least) :
    Reads (binary g least) e b q ps := by
  rw [Reads, run_binary annotations_cursor_chunks (startsPhrase_cursor hfits b _), start_cursor_chunks]
  obtain ⟨first, b', mid, hfirst, hnil, hspine, hloop⟩ := iterate_operatorStep hassignment hunary hbinary least
    ((cursor b (e.chunks ++ q :: ps)).token.is "(") e hfits he hfloors h hq hpull
  have hfuel : e.spine < (cursor b' (mid ++ q :: ps)).rest.length + 2 := by
    cases mid with
    | nil => simp [hnil rfl]
    | cons p mid =>
      simp only [cons_append, rest_cursor, length_flat_append, tail_cons] at hspine ⊢
      omega
  obtain ⟨fuel, hfuel'⟩ : ∃ fuel, (cursor b' (mid ++ q :: ps)).rest.length + 2 - e.spine = fuel + 1 :=
    Nat.exists_eq_add_one.2 (by omega)
  have hend : operatorStep g (b + e.lead.length) least ((cursor b (e.chunks ++ q :: ps)).token.is "(") (e.tree b) {}
      (cursor (b + e.size) (q :: ps)) = some (.inr (e.tree b), cursor (b + e.size) (q :: ps)) := by
    unfold operatorStep
    rw [run_bind, operator?_none hhold]
    rfl
  rw [hfirst, Option.bind_some, hloop _ hfuel, hfuel', run_iterate, hend]
  rfl

end Parser
end ReactiveTemplate.Script
