import ReactiveTemplate.Proofs.Script.Parsing
/-!
# Assignments — phrases with assignments and commas
-/
set_option linter.all false

namespace ReactiveTemplate.Script
open List
open Phrase

variable {t : Token} {behind : List Char}

/-! ## Parentheses that open no parameters -/

lemma Token.is_of_closes {s : String} (h : t.closes = true) (hs : s ∉ [",", ")"]) : t.is s = false := by
  rcases closes_cases h with rfl | rfl | rfl
  · rfl
  · simpa [is, symbol?] using fun heq : "," = s => hs (heq ▸ by decide)
  · simpa [is, symbol?] using fun heq : ")" = s => hs (heq ▸ by decide)

lemma Token.pull_of_closes (h : t.closes = true) : t.pull = 0 := by
  rcases closes_cases h with rfl | rfl | rfl <;> decide

lemma Token.hold_of_closes (h : t.closes = true) : t.hold = 0 := by
  rcases closes_cases h with rfl | rfl | rfl <;> decide

section

variable {operator : String} (h : operator ∈ assignmentOperators)
include h

lemma Token.isNeutral_assign : (punct operator).isNeutral = true := by
  revert operator
  decide

lemma Token.pull_assign : (punct operator).pull = 0 := by
  revert operator
  decide

lemma Token.hold_assign : (punct operator).hold = 0 := by
  revert operator
  decide

end

lemma Chunk.is_punct_of_mem {gap : List Char} {operators : List String} {s t : String} (hs : s ∈ operators)
    (ht : t ∉ operators) : (punct gap s).token.is t = false := by
  have hne : s ≠ t := fun heq => ht (heq ▸ hs)
  simpa [punct, Token.is, Token.symbol?] using hne

lemma Phrase.pos_of_pull_le {operator : String} {n : Nat} (h : operator ∈ plainOperators) (hn : pull operator ≤ n) :
    0 < n := by
  have hpos : ∀ s ∈ plainOperators, 0 < pull s := by decide
  exact Nat.lt_of_lt_of_le (hpos operator h) hn

lemma Phrase.second_chunk {e : Phrase} (hfits : e.fits = true) (hitem : e.isItem = true) :
    (∃ gap x, e = .name gap x) ∨ (∃ gap x inside value, e = .assign gap x inside "=" value) ∨
      (∃ p ps, e.chunks = p :: ps ∧ ∀ x, p.token ≠ .word x false) ∨
      ∃ p p' ps, e.chunks = p :: p' :: ps ∧ ∀ s ∈ ["=", ",", ")"], p'.token.is s = false := by
  have hpunct : ∀ {gap : List Char} {operators : List String} {s : String}, s ∈ operators →
      (∀ t ∈ ["=", ",", ")"], t ∉ operators) → ∀ t ∈ ["=", ",", ")"], (Chunk.punct gap s).token.is t = false :=
    fun hs hall t ht => Chunk.is_punct_of_mem hs (hall t ht)
  induction e with
  | name gap x => exact .inl ⟨gap, x, rfl⟩
  | numeral gap text bits => exact .inr (.inr (.inl ⟨_, _, rfl, fun x h => nomatch h⟩))
  | paren gap inner behind => exact .inr (.inr (.inl ⟨_, _, rfl, fun x h => nomatch h⟩))
  | call gap callee opening arguments behind =>
    exact .inr (.inr (.inr ⟨_, _, _, rfl, hpunct (mem_singleton_self "(") (by decide)⟩))
  | stepBefore gap operator inside x => exact .inr (.inr (.inl ⟨_, _, rfl, fun x h => nomatch h⟩))
  | stepBehind gap x inside operator =>
    simp only [fits, Bool.and_eq_true, contains_iff_mem] at hfits
    exact .inr (.inr (.inr ⟨_, _, _, rfl, hpunct hfits.1.1 (by decide)⟩))
  | sign gap operator operand => exact .inr (.inr (.inl ⟨_, _, rfl, fun x h => nomatch h⟩))
  | assign gap x inside operator value =>
    simp only [fits, Bool.and_eq_true, contains_iff_mem] at hfits
    by_cases hop : operator = "="
    · exact .inr (.inl ⟨gap, x, inside, value, by rw [hop]⟩)
    · have hmem : operator ∈ assignmentOperators.erase "=" := (mem_erase_of_ne hop).2 hfits.1.1.2
      exact .inr (.inr (.inr ⟨_, _, _, rfl, hpunct hmem (by decide)⟩))
  | binary left gap operator right ih _ =>
    simp only [fits, Bool.and_eq_true, contains_iff_mem, decide_eq_true_eq] at hfits
    obtain ⟨⟨⟨⟨⟨hop, hleft⟩, -⟩, hpull⟩, -⟩, -⟩ := hfits
    have htight := pos_of_pull_le hop hpull
    rcases ih hleft (isItem_of_tightness htight) with ⟨gap', x, rfl⟩ | ⟨gap', x, inside, value, rfl⟩ | ⟨p, ps, hp, hx⟩ |
      ⟨p, p', ps, hp, hs⟩
    · exact .inr (.inr (.inr ⟨_, _, _, rfl, hpunct hop (by decide)⟩))
    · exact absurd htight (Nat.lt_irrefl 0)
    · exact .inr (.inr (.inl ⟨p, _, by rw [chunks, hp, cons_append], hx⟩))
    · exact .inr (.inr (.inr ⟨p, p', _, by rw [chunks, hp, cons_append, cons_append], hs⟩))
  | comma first gap rest => cases hitem

lemma Phrase.is_colon {e : Phrase} (hfits : e.fits = true) : ∀ p ∈ e.chunks, p.token.is ":" = false := by
  have hword : ∀ {gap : List Char} {x : String}, isName x = true → (Chunk.word gap x).token.is ":" = false :=
    fun hx => Token.is_of_isName hx (by decide)
  have hpunct : ∀ {gap : List Char} {operators : List String} {s : String}, s ∈ operators → ":" ∉ operators →
      (Chunk.punct gap s).token.is ":" = false := Chunk.is_punct_of_mem
  induction e with
  | name gap x => exact forall_mem_singleton.2 (hword hfits)
  | numeral gap text bits => exact forall_mem_singleton.2 rfl
  | paren gap inner behind ih =>
    exact forall_mem_cons.2 ⟨rfl, forall_mem_append.2 ⟨ih hfits, forall_mem_singleton.2 rfl⟩⟩
  | call gap callee opening arguments behind ih =>
    simp only [fits, Bool.and_eq_true] at hfits
    refine forall_mem_cons.2 ⟨hword hfits.1, forall_mem_cons.2 ⟨rfl, ?_⟩⟩
    exact forall_mem_append.2 ⟨ih hfits.2, forall_mem_singleton.2 rfl⟩
  | stepBefore gap operator inside x =>
    simp only [fits, Bool.and_eq_true, contains_iff_mem] at hfits
    exact forall_mem_cons.2 ⟨hpunct hfits.1 (by decide), forall_mem_singleton.2 (hword hfits.2)⟩
  | stepBehind gap x inside operator =>
    simp only [fits, Bool.and_eq_true, contains_iff_mem] at hfits
    exact forall_mem_cons.2 ⟨hword hfits.1.2, forall_mem_singleton.2 (hpunct hfits.1.1 (by decide))⟩
  | sign gap operator operand ih =>
    simp only [fits, Bool.and_eq_true, contains_iff_mem] at hfits
    exact forall_mem_cons.2 ⟨hpunct hfits.1.1 (by decide), ih hfits.1.2⟩
  | binary left gap operator right ihl ihr =>
    simp only [fits, Bool.and_eq_true, contains_iff_mem] at hfits
    obtain ⟨⟨⟨⟨⟨hop, hleft⟩, hright⟩, -⟩, -⟩, -⟩ := hfits
    exact forall_mem_append.2 ⟨ihl hleft, forall_mem_cons.2 ⟨hpunct hop (by decide), ihr hright⟩⟩
  | assign gap x inside operator value ih =>
    simp only [fits, Bool.and_eq_true, contains_iff_mem] at hfits
    obtain ⟨⟨⟨hx, hop⟩, hvalue⟩, -⟩ := hfits
    exact forall_mem_cons.2 ⟨hword hx, forall_mem_cons.2 ⟨hpunct hop (by decide), ih hvalue⟩⟩
  | comma first gap rest ihf ihr =>
    simp only [fits, Bool.and_eq_true] at hfits
    exact forall_mem_append.2 ⟨ihf hfits.1.1, forall_mem_cons.2 ⟨rfl, ihr hfits.2⟩⟩

lemma Phrase.paren_chunks {e : Phrase} (hfits : e.fits = true) (hitem : e.isItem = true) :
    (∃ p ps, e.chunks = p :: ps ∧ p.token.is "(" = false) ∨
      ∃ (gap : List Char) (inner : Phrase) (behind : List Char) (rest : List Chunk),
        e.chunks = .punct gap "(" :: (inner.chunks ++ .punct behind ")" :: rest) ∧ inner.fits = true ∧
        inner.floors < e.floors ∧ ∀ p ∈ rest.head?, p.token.follows = true := by
  induction e with
  | paren gap inner behind => exact .inr ⟨gap, inner, behind, [], rfl, hfits, Nat.lt_succ_self _, by simp⟩
  | numeral gap text bits => exact .inl ⟨_, _, rfl, rfl⟩
  | name gap x => exact .inl ⟨_, _, rfl, Token.is_of_isName hfits (by decide)⟩
  | call gap callee opening arguments behind =>
    simp only [fits, Bool.and_eq_true] at hfits
    exact .inl ⟨_, _, rfl, Token.is_of_isName hfits.1 (by decide)⟩
  | stepBefore gap operator inside x =>
    simp only [fits, Bool.and_eq_true, contains_iff_mem] at hfits
    exact .inl ⟨_, _, rfl, Chunk.is_punct_of_mem hfits.1 (by decide)⟩
  | stepBehind gap x inside operator =>
    simp only [fits, Bool.and_eq_true] at hfits
    exact .inl ⟨_, _, rfl, Token.is_of_isName hfits.1.2 (by decide)⟩
  | sign gap operator operand =>
    simp only [fits, Bool.and_eq_true, contains_iff_mem] at hfits
    exact .inl ⟨_, _, rfl, Chunk.is_punct_of_mem hfits.1.1 (by decide)⟩
  | assign gap x inside operator value =>
    simp only [fits, Bool.and_eq_true] at hfits
    exact .inl ⟨_, _, rfl, Token.is_of_isName hfits.1.1.1 (by decide)⟩
  | binary left gap operator right ih _ =>
    simp only [fits, Bool.and_eq_true, contains_iff_mem, decide_eq_true_eq] at hfits
    obtain ⟨⟨⟨⟨⟨hop, hleft⟩, -⟩, hpull⟩, -⟩, -⟩ := hfits
    rcases ih hleft (isItem_of_tightness (pos_of_pull_le hop hpull)) with
      ⟨p, ps, hp, hne⟩ | ⟨gap', inner, behind, rest, hp, hinner, hfloors, hrest⟩
    · exact .inl ⟨p, _, by rw [chunks, hp, cons_append], hne⟩
    · refine .inr ⟨gap', inner, behind, rest ++ .punct gap operator :: right.chunks, ?_, hinner,
        Nat.lt_of_lt_of_le hfloors (Nat.le_max_left _ _), ?_⟩
      · simp [chunks, hp]
      · cases rest with
        | nil =>
          have hfollows : operator ∈ followers := by simp [followers, hop]
          simpa [Chunk.punct, Token.follows] using hfollows
        | cons p rest => exact hrest
  | comma first gap rest => cases hitem

namespace Parser

variable {g : Grammar} {b : Nat} {q : Chunk} {ps : List Chunk} {gap : List Char} {x : String}

def ReadsPatterns (P : Parser Node) : Prop :=
  ∀ {b : Nat} {p q : Chunk} {ps : List Chunk} {n : Node} {c : Cursor}, p.token.startsPhrase = true →
    AllRead (p :: q :: ps) → P {} (cursor b (p :: q :: ps)) = some (n, c) →
      (∃ x, p.token = .word x false) ∧ c = cursor (b + p.size) (q :: ps)

variable {n start : Nat} {c : Cursor} {e : Phrase}

lemma run_withDefault {pattern : Node} : withDefault g start pattern {} c =
    if c.token.is "=" then (g.assignment {} c.next).bind (fun r =>
      some (.node .defaulted ⟨start, r.2.before⟩ [pattern, r.1], r.2))
    else some (pattern, c) := by
  unfold withDefault
  rw [run_bind, run_eat]
  cases c.token.is "=" <;> rfl

lemma patternElement_item (hassignment : ReadsItems g.assignment n) (hpattern : ReadsPatterns g.pattern)
    (hfits : e.fits = true) (hitem : e.isItem = true) (hfloors : e.floors < n)
    (h : AllRead (e.chunks ++ q :: ps)) (hq : q.token.closes = true) {node : Node}
    (hresult : patternElement g {} (cursor b (e.chunks ++ q :: ps)) = some (node, c)) :
    c = cursor (b + e.size) (q :: ps) ∨ (c.token.is ")" = false ∧ c.token.is "," = false) := by
  have hstarts := startsPhrase_cursor hfits b (q :: ps)
  unfold patternElement at hresult
  rw [run_bind, run_position, Option.bind_some, run_bind, Option.bind_eq_some_iff] at hresult
  obtain ⟨⟨pattern, c'⟩, hname, hresult⟩ := hresult
  rw [run_withDefault] at hresult
  rcases second_chunk hfits hitem with ⟨gap, x, rfl⟩ | ⟨gap, x, inside, value, rfl⟩ | ⟨p, ps', hp, hx⟩ |
    ⟨p, p', ps', hp, hs⟩
  · obtain ⟨-, rfl⟩ := hpattern hstarts h hname
    rw [token_cursor, Token.is_of_closes hq (by decide)] at hresult
    cases hresult
    exact .inl (by rw [size_name, Chunk.size_word])
  · simp only [fits, Bool.and_eq_true] at hfits
    simp only [floors] at hfloors
    rw [chunks, cons_append, cons_append] at h hname hstarts
    obtain ⟨-, rfl⟩ := hpattern hstarts h hname
    have hvalue : AllRead (value.chunks ++ q :: ps) := h.2.2
    rw [next_punct_chunks h.2, hassignment hfits.1.2 hfits.2 (by omega) hvalue hq] at hresult
    cases hresult
    exact .inl (by rw [size_assign]; simp [Nat.add_assoc])
  · rw [hp] at h hname hstarts
    cases ps' with
    | nil => exact absurd (hpattern hstarts h hname).1.choose_spec (hx _)
    | cons p' ps' => exact absurd (hpattern hstarts h hname).1.choose_spec (hx _)
  · rw [hp] at h hname hstarts
    obtain ⟨-, rfl⟩ := hpattern hstarts h hname
    rw [token_cursor, hs "=" (by decide)] at hresult
    cases hresult
    exact .inr ⟨hs ")" (by decide), hs "," (by decide)⟩

def restStep (closing : String) (item rest : Parser Node) : List Node × Bool → Parser (List Node × Bool ⊕ List Node) :=
  fun (items, sawRest) => do
    if ← on closing then return .inr items
    if !items.isEmpty then
      expect ","
      flawIf sawRest
    if ← on closing then return .inr items
    if ← on "..." then
      let n ← rest
      return .inl (items ++ [n], true)
    else
      let n ← item
      return .inl (items ++ [n], sawRest)

lemma run_delimitedWithRest (closing : String) (item rest : Parser Node) (m : Mode) (c : Cursor) :
    delimitedWithRest closing item rest m c = iterate (restStep closing item rest) (c.rest.length + 2) ([], false) m c :=
  run_repeatFrom ([], false) (restStep closing item rest) m c

section Parameters

variable {item rest : Parser Node} {items : List Node} {e : Phrase} {row : List Chunk}

lemma restStep_first (hfits : e.fits = true) : restStep ")" item rest ([], false) {} (cursor b (e.chunks ++ row)) =
    (item {} (cursor b (e.chunks ++ row))).bind (fun r => some (.inl ([r.1], false), r.2)) := by
  have hclosing := is_cursor_chunks hfits b row (s := ")") (by decide) (by decide)
  have hdots := is_cursor_chunks hfits b row (s := "...") (by decide) (by decide)
  unfold restStep
  simp only [run_bind, run_on, Option.bind_some, hclosing, hdots, Bool.false_eq_true, if_false, isEmpty_nil,
    Bool.not_true]
  rfl

lemma restStep_comma (hfits : e.fits = true) (hitems : items ≠ []) (h : AllRead (.punct gap "," :: (e.chunks ++ row))) :
    restStep ")" item rest (items, false) {} (cursor b (.punct gap "," :: (e.chunks ++ row))) =
      (item {} (cursor (b + (gap.length + 1)) (e.chunks ++ row))).bind (fun r =>
        some (.inl (items ++ [r.1], false), r.2)) := by
  have hclosing := is_cursor_chunks hfits (b + (gap.length + 1)) row (s := ")") (by decide) (by decide)
  have hdots := is_cursor_chunks hfits (b + (gap.length + 1)) row (s := "...") (by decide) (by decide)
  have hnext : (cursor b (.punct gap "," :: (e.chunks ++ row))).next = cursor (b + (gap.length + 1)) (e.chunks ++ row) :=
    next_punct_chunks h
  unfold restStep
  simp only [run_bind, run_on, Option.bind_some, is_cursor_punct, String.reduceEq, decide_false, Bool.false_eq_true, if_false,
    isEmpty_eq_false_iff.2 hitems, Bool.not_false, if_true, run_expect, decide_true, hnext, run_flawIf, hclosing, hdots]
  rfl

lemma restStep_closing (row : List Chunk) : restStep ")" item rest (items, false) {} (cursor b (.punct gap ")" :: row)) =
    some (.inr items, cursor b (.punct gap ")" :: row)) := rfl

lemma restStep_other {c : Cursor} (hitems : items ≠ []) (hclosing : c.token.is ")" = false)
    (hcomma : c.token.is "," = false) : restStep ")" item rest (items, false) {} c = none := by
  unfold restStep
  simp only [run_bind, run_on, Option.bind_some, hclosing, Bool.false_eq_true, if_false,
    isEmpty_eq_false_iff.2 hitems, Bool.not_false, if_true, run_expect, hcomma]
  rfl

lemma iterate_restStep {n : Nat} (hassignment : ReadsItems g.assignment n) (hpattern : ReadsPatterns g.pattern)
    (e : Phrase) : ∀ (items : List Node) {b fuel : Nat} {ns : List Node} {c : Cursor},
      e.fits = true → e.floors < n → AllRead (e.chunks ++ .punct behind ")" :: row) →
      (patternElement g {} (cursor b (e.chunks ++ .punct behind ")" :: row))).bind (fun r =>
        iterate (restStep ")" (patternElement g) rest) fuel (items ++ [r.1], false) {} r.2) = some (ns, c) →
      c = cursor (b + e.size) (.punct behind ")" :: row) := by
  induction e using item_rec with
  | item e hitem =>
    intro items b fuel ns c hfits hfloors hread hresult
    obtain ⟨⟨node, c'⟩, helement, hloop⟩ := Option.bind_eq_some_iff.1 hresult
    cases fuel with
    | zero => cases hloop
    | succ fuel =>
      rw [run_iterate] at hloop
      rcases patternElement_item hassignment hpattern hfits hitem hfloors hread rfl helement with rfl | ⟨hclosing, hcomma⟩
      · cases hloop
        rfl
      · rw [restStep_other (by simp) hclosing hcomma] at hloop
        cases hloop
  | comma first gap tail ih =>
    intro items b fuel ns c hfits hfloors hread hresult
    simp only [fits, Bool.and_eq_true] at hfits
    simp only [floors] at hfloors
    simp only [chunks, append_assoc, cons_append] at hread hresult
    obtain ⟨⟨node, c'⟩, helement, hloop⟩ := Option.bind_eq_some_iff.1 hresult
    cases fuel with
    | zero => cases hloop
    | succ fuel =>
      rw [run_iterate] at hloop
      rcases patternElement_item hassignment hpattern hfits.1.1 hfits.1.2 (by omega) hread rfl helement with
        rfl | ⟨hclosing, hcomma⟩
      · rw [restStep_comma hfits.2 (by simp) hread.right, Option.bind_assoc] at hloop
        rw [ih _ hfits.2 (by omega) hread.right.2 hloop, size_comma]
        simp [Nat.add_assoc]
      · rw [restStep_other (by simp) hclosing hcomma] at hloop
        cases hloop

lemma arrowHead_paren {n : Nat} (hassignment : ReadsItems g.assignment n) (hpattern : ReadsPatterns g.pattern)
    (hfits : e.fits = true) (hfloors : e.floors < n)
    (h : AllRead (.punct gap "(" :: (e.chunks ++ .punct behind ")" :: q :: ps))) (hq : q.token.is "=>" = false) :
    arrowHead g {} (cursor b (.punct gap "(" :: (e.chunks ++ .punct behind ")" :: q :: ps))) = none := by
  have hparameters : ∀ {r}, parameters g {} (cursor b (.punct gap "(" :: (e.chunks ++ .punct behind ")" :: q :: ps))) =
      some r → r.2.token = q.token := by
    intro r hr
    unfold parameters at hr
    rw [run_bind, run_position, Option.bind_some, run_bind, run_expect, is_cursor_punct, next_punct_chunks h] at hr
    simp only [decide_true, if_true, Option.bind_some] at hr
    rw [run_bind, run_delimitedWithRest, run_iterate, restStep_first hfits] at hr
    obtain ⟨⟨ns, c⟩, hitems, hr⟩ := Option.bind_eq_some_iff.1 hr
    rw [Option.bind_assoc] at hitems
    cases iterate_restStep hassignment hpattern e [] hfits hfloors h.2 hitems
    rw [run_bind, run_expect, next_punct h.2.right] at hr
    cases hr
    rfl
  unfold arrowHead
  rw [run_bind, run_eat, is_cursor_punct]
  simp only [String.reduceEq, decide_false, Bool.false_eq_true, if_false, Option.bind_some]
  rw [run_bind, run_within]
  show Option.bind (parameters g {} _) _ = none
  cases hr : parameters g {} (cursor b (.punct gap "(" :: (e.chunks ++ .punct behind ")" :: q :: ps))) with
  | none => rfl
  | some r =>
    rw [Option.bind_some, run_bind, run_newline, Option.bind_some, run_bind, run_expect, hparameters hr, hq]
    rfl

lemma guessArrow_paren (hfits : e.fits = true)
    (h : AllRead (.punct gap "(" :: (e.chunks ++ .punct behind ")" :: q :: ps))) :
    guessArrow (cursor b (.punct gap "(" :: (e.chunks ++ .punct behind ")" :: q :: ps))) ≠ .sure := by
  have hnot : ∀ s ∈ [")", "[", "\x7b", "..."],
      (cursor (b + (gap.length + 1)) (e.chunks ++ .punct behind ")" :: q :: ps)).token.is s = false := by
    intro s hs
    refine is_cursor_chunks hfits _ _ ?_ ?_ <;> revert s <;> decide
  have hthird : (cursor (b + (gap.length + 1)) (e.chunks ++ .punct behind ")" :: q :: ps)).next.token.is ":" = false := by
    obtain ⟨p, tail, hp, -⟩ := e.exists_chunks_eq
    have htail : ∀ p ∈ tail, p.token.is ":" = false := fun p hmem => e.is_colon hfits p (hp ▸ mem_cons_of_mem _ hmem)
    have hread := h.2
    rw [hp] at hread ⊢
    cases tail with
    | nil =>
      rw [cons_append, nil_append] at hread ⊢
      rw [next_cursor hread]
      rfl
    | cons p' tail =>
      rw [cons_append, cons_append] at hread ⊢
      rw [next_cursor hread]
      exact htail p' (.head _)
  have hnext : (cursor b (.punct gap "(" :: (e.chunks ++ .punct behind ")" :: q :: ps))).next =
      cursor (b + (gap.length + 1)) (e.chunks ++ .punct behind ")" :: q :: ps) := next_punct_chunks h
  unfold guessArrow guessParameters
  simp only [is_cursor_punct, decide_true, if_true, hnext, hnot ")" (by decide), hnot "[" (by decide),
    hnot "\x7b" (by decide), hnot "..." (by decide), hthird, Bool.false_eq_true, if_false, Bool.or_self]
  split
  · split <;> decide
  · decide

lemma arrow?_item {n : Nat} (hassignment : ReadsItems g.assignment n) (hpattern : ReadsPatterns g.pattern)
    (hfits : e.fits = true) (hitem : e.isItem = true) (hfloors : e.floors ≤ n)
    (h : AllRead (e.chunks ++ q :: ps)) (hq : q.token.follows = true) :
    arrow? g {} (cursor b (e.chunks ++ q :: ps)) = some (none, cursor b (e.chunks ++ q :: ps)) := by
  have hnone : guessArrow (cursor b (e.chunks ++ q :: ps)) = .no ∨
      guessArrow (cursor b (e.chunks ++ q :: ps)) ≠ .sure ∧ arrowHead g {} (cursor b (e.chunks ++ q :: ps)) = none := by
    have hasync := is_cursor_chunks hfits b (q :: ps) (s := "async") (by decide) (by decide)
    rcases paren_chunks hfits hitem with ⟨p, tail, hp, hne⟩ | ⟨gap, inner, behind, rest, hp, hinner, hlt, hrest⟩
    · left
      rw [hp, cons_append] at hasync ⊢
      unfold guessArrow
      rw [hasync, token_cursor, hne]
      rfl
    · right
      obtain ⟨r, rs, hr, hfollows⟩ : ∃ r rs, rest ++ q :: ps = r :: rs ∧ r.token.follows = true := by
        cases rest with
        | nil => exact ⟨q, ps, rfl, hq⟩
        | cons r rs => exact ⟨r, rs ++ q :: ps, rfl, hrest r rfl⟩
      rw [hp, cons_append, append_assoc, cons_append, hr] at h ⊢
      exact ⟨guessArrow_paren hinner h,
        arrowHead_paren hassignment hpattern hinner (by omega) h (Token.is_of_follows hfollows (by decide))⟩
  unfold arrow?
  rw [run_bind, run_get, Option.bind_some]
  rcases hnone with hno | ⟨hsure, hhead⟩
  · simp only [hno]
    rfl
  · cases hguess : guessArrow (cursor b (e.chunks ++ q :: ps)) with
    | sure => exact absurd hguess hsure
    | no => rfl
    | maybe =>
      simp only
      rw [run_bind, run_orElse, run_map, hhead]
      rfl

end Parameters

/-! ## Assignments -/

lemma readsPatterns_pattern : ReadsPatterns (pattern g) := by
  intro b p q ps n c hstarts h hresult
  unfold pattern at hresult
  have hbrackets : p.token.is "[" = false := Token.is_of_startsPhrase hstarts (by decide) (by decide)
  have hbraces : p.token.is "\x7b" = false := Token.is_of_startsPhrase hstarts (by decide) (by decide)
  rw [run_bind, run_position, Option.bind_some, run_bind, run_eat, token_cursor, hbrackets] at hresult
  simp only [Bool.false_eq_true, if_false, Option.bind_some] at hresult
  rw [run_bind, run_eat, token_cursor, hbraces] at hresult
  simp only [Bool.false_eq_true, if_false, Option.bind_some] at hresult
  unfold bindingName at hresult
  rw [run_bind, run_position, Option.bind_some, run_bind, run_get, Option.bind_some, token_cursor] at hresult
  obtain ⟨gap, text, token⟩ := p
  cases token with
  | word x escaped =>
    cases escaped with
    | true => cases hstarts
    | false =>
      have hx : isName x = true := hstarts
      have hawait : (x == "await") = false := beq_eq_false_iff_ne.2 (fun heq => absurd (heq ▸ hx) (by decide))
      have hword : word {} (cursor b (⟨gap, text, .word x false⟩ :: q :: ps)) =
          some (x, cursor (b + (⟨gap, text, .word x false⟩ : Chunk).size) (q :: ps)) := by
        rw [← next_cursor h]
        rfl
      rw [if_pos (isBinding_name hx), run_bind, hword, Option.bind_some, run_bind, run_read, Option.bind_some,
        checkBinding, hawait] at hresult
      cases hresult
      exact ⟨⟨x, rfl⟩, rfl⟩
  | _ => cases hresult

lemma asyncArrow?_phrase {row : List Chunk} (hfits : e.fits = true) :
    asyncArrow? g {} (cursor b (e.chunks ++ row)) = some (none, cursor b (e.chunks ++ row)) := by
  have hasync := is_cursor_chunks hfits b row (s := "async") (by decide) (by decide)
  unfold asyncArrow?
  simp only [run_bind, run_get, Option.bind_some, hasync]
  rfl

lemma run_plainAssignment (hassignment : ReadsItems g.assignment n) (hpattern : ReadsPatterns g.pattern)
    (hfits : e.fits = true) (hitem : e.isItem = true) (hfloors : e.floors ≤ n)
    (h : AllRead (e.chunks ++ q :: ps)) (hq : q.token.follows = true) :
    plainAssignment g {} (cursor b (e.chunks ++ q :: ps)) =
      (binary g 0 {} (cursor b (e.chunks ++ q :: ps))).bind (fun r => assignmentTail g (b + e.lead.length) r.1 {} r.2) := by
  have hyield := is_cursor_chunks hfits b (q :: ps) (s := "yield") (by decide) (by decide)
  unfold plainAssignment
  rw [run_bind, run_position, Option.bind_some, run_bind, run_read, Option.bind_some, run_bind, run_on, Option.bind_some]
  simp only [hyield]
  rw [run_bind, hasOperandBehind, run_bind, run_peek, Option.bind_some, run_pure, Option.bind_some]
  simp only [Bool.false_and, Bool.false_eq_true, if_false]
  rw [run_bind, arrow?_item hassignment hpattern hfits hitem hfloors h hq, Option.bind_some]
  simp only
  rw [run_bind, asyncArrow?_phrase hfits, Option.bind_some]
  simp only
  rw [run_bind, start_cursor_chunks]

lemma run_assignmentTail {left : Node} (h : c.token.is "=>" = false) :
    assignmentTail g start left {} c =
      match c.token.symbol?.filter assignmentOperators.contains with
      | some operator => ((left.target? true).getM : Parser Node) {} c |>.bind fun r =>
        (g.assignment {} r.2.next).bind fun r' => close start (.assign operator) [r.1, r'.1] {} r'.2
      | none => if c.token.is "?" then (do
          let first ← allowingIn g.assignment
          expect ":"
          let second ← g.assignment
          close start .conditional [left, first, second] : Parser Node) {} c.next
        else some (left, c) := by
  have hguard : ¬(left.identifier?.isSome && c.token.is "=>") = true := by simp [h]
  unfold assignmentTail
  rw [run_bind, run_get, Option.bind_some]
  refine (congrFun (congrFun (if_neg hguard) _) _).trans ?_
  cases c.token.symbol?.filter assignmentOperators.contains with
  | some operator => rfl
  | none =>
    simp only
    rw [run_bind, run_eat]
    cases c.token.is "?" <;> rfl

lemma assignmentTail_closes {left : Node} (hq : q.token.closes = true) :
    assignmentTail g start left {} (cursor b (q :: ps)) = some (left, cursor b (q :: ps)) := by
  have hfilter : q.token.symbol?.filter assignmentOperators.contains = none :=
    filter_symbol? (fun s hs => Token.is_of_closes hq (by revert s; decide))
  rw [run_assignmentTail (Token.is_of_closes hq (by decide)), token_cursor, hfilter]
  simp [Token.is_of_closes hq (show "?" ∉ [",", ")"] by decide), Bool.false_eq_true, if_false]

lemma assignmentTail_assign (hassignment : ReadsItems g.assignment n) {inside : List Char}
    {operator : String} {value : Phrase} (hop : operator ∈ assignmentOperators) (hfits : value.fits = true)
    (hitem : value.isItem = true) (hfloors : value.floors < n) {b' : Nat}
    (h : AllRead (.punct inside operator :: (value.chunks ++ q :: ps))) (hq : q.token.closes = true) :
    assignmentTail g start (nameAt b' gap x) {} (cursor b (.punct inside operator :: (value.chunks ++ q :: ps))) =
      some (.node (.assign operator) ⟨start, b + (inside.length + operator.toList.length) + value.size⟩
        [nameAt b' gap x, value.tree (b + (inside.length + operator.toList.length))],
        cursor (b + (inside.length + operator.toList.length) + value.size) (q :: ps)) := by
  have hfilter : (Chunk.punct inside operator).token.symbol?.filter assignmentOperators.contains = some operator :=
    Option.filter_eq_some_iff.2 ⟨rfl, contains_iff_mem.2 hop⟩
  have harrow : (Chunk.punct inside operator).token.is "=>" = false := Chunk.is_punct_of_mem hop (by decide)
  rw [run_assignmentTail harrow, token_cursor, hfilter]
  simp only [run_target_name, Option.bind_some, next_punct_chunks h, hassignment hfits hitem hfloors h.2 hq]
  rfl

lemma readsItems_assignment (hassignment : ReadsItems g.assignment n) (hunary : ReadsUnary g.unary n)
    (hbinary : ReadsOperators g.binary n) (hpattern : ReadsPatterns g.pattern) : ReadsItems (assignment g) (n + 1) := by
  intro e b q ps hfits hitem hfloors h hq
  have htail : (binary g 0 {} (cursor b (e.chunks ++ q :: ps))).bind (fun r =>
      assignmentTail g (b + e.lead.length) r.1 {} r.2) = some (e.tree b, cursor (b + e.size) (q :: ps)) := by
    by_cases htight : 0 < e.tightness
    · rw [binary_phrase hassignment hunary hbinary hfits htight (Nat.lt_succ_iff.1 hfloors) h (Token.isNeutral_of_closes hq)
        (by simp [Token.pull_of_closes hq]) (by simp [Token.hold_of_closes hq]), Option.bind_some,
        assignmentTail_closes hq]
    cases e with
    | assign gap x inside operator value =>
      simp only [fits, Bool.and_eq_true, contains_iff_mem] at hfits
      obtain ⟨⟨⟨hx, hop⟩, hvalue⟩, hvalueItem⟩ := hfits
      simp only [floors] at hfloors
      rw [chunks, cons_append, cons_append] at h ⊢
      have hname := binary_phrase (b := b) (e := .name gap x) hassignment hunary hbinary hx (Nat.succ_pos 13) (Nat.zero_le n)
        h (Token.isNeutral_assign hop) (le_of_eq_of_le (Token.pull_assign hop) (Nat.zero_le _)) (Nat.le_of_eq (Token.hold_assign hop))
      rw [Reads, chunks, singleton_append] at hname
      rw [hname, size_name]
      refine (assignmentTail_assign hassignment hop hvalue hvalueItem (by omega) h.2 hq).trans ?_
      rw [Phrase.tree_assign hvalueItem, Phrase.span, Phrase.size_assign]
      simp [Nat.add_assoc]
    | binary left gap operator right =>
      simp only [fits, Bool.and_eq_true, contains_iff_mem] at hfits
      have hpos : ∀ s ∈ plainOperators, 0 < hold s := by decide
      exact absurd (hpos operator hfits.1.1.1.1.1) htight
    | comma first gap rest => cases hitem
    | _ => exact absurd (Nat.succ_pos 13) htight
  unfold Reads assignment
  rw [run_bind, run_get, Option.bind_some, annotations_cursor_chunks, run_bind,
    run_plainAssignment hassignment hpattern hfits hitem (Nat.lt_succ_iff.1 hfloors) h (Token.follows_of_closes hq), htail]
  rfl

end Parser
end ReactiveTemplate.Script
