import Mathlib.Tactic.Lemma
import ReactiveTemplate.Script.Parse
/-!
# Tokens — parsers on a row of tokens

A `Chunk` is a token as it is written, with the blanks in front of it.
-/
set_option linter.all false

namespace ReactiveTemplate.Script
open List

def isGap (c : Char) : Bool := isBlank c || isLineEnd c

/-- A token as it is written, behind the blanks in front of it. -/
structure Chunk where
  gap : List Char := []
  text : List Char
  token : Token

namespace Chunk

def chars (p : Chunk) : List Char := p.gap ++ p.text

def size (p : Chunk) : Nat := p.chars.length

end Chunk

def flat (ps : List Chunk) : List Char := ps.flatMap Chunk.chars

def opensNoComment : List Char → Bool
  | '/' :: '/' :: _ | '/' :: '*' :: _ => false
  | _ => true

def startsToken (cs : List Char) : Bool := opensNoComment cs && (cs.head?.map isGap != some true) && cs.head? != some '#'

structure Chunk.Reads (p : Chunk) (rest : List Char) : Prop where
  gap : p.gap.all isGap = true
  starts : startsToken (p.text ++ rest) = true
  token : lexeme false (p.text ++ rest) = ⟨p.token, rest, true⟩

def AllRead : List Chunk → Prop
  | [] => True
  | p :: ps => p.Reads (flat ps) ∧ AllRead ps

instance (p : Chunk) (rest : List Char) : Decidable (p.Reads rest) :=
  decidable_of_iff (p.gap.all isGap = true ∧ startsToken (p.text ++ rest) = true ∧
      lexeme false (p.text ++ rest) = ⟨p.token, rest, true⟩)
    ⟨fun h => ⟨h.1, h.2.1, h.2.2⟩, fun h => ⟨h.gap, h.starts, h.token⟩⟩

instance decidableAllRead : (ps : List Chunk) → Decidable (AllRead ps)
  | [] => .isTrue trivial
  | p :: ps => @instDecidableAnd (p.Reads (flat ps)) (AllRead ps) _ (decidableAllRead ps)

def Chunk.stand (before : Nat) (p : Chunk) (rest : List Char) : Cursor where
  token := p.token
  start := before + p.gap.length
  stop := before + p.size
  newline := p.gap.any isLineEnd
  here := p.text ++ rest
  rest := rest
  before := before
  isFlawed := false
  annotations := []
  comments := []
  annotated := []

def cursor (before : Nat) : List Chunk → Cursor
  | [] => Chunk.stand before ⟨[], [], .finish⟩ []
  | p :: ps => p.stand before (flat ps)

lemma read_blank_cons {opening : Bool} {c : Char} {cs : List Char} (h : opensNoComment (c :: cs) = true)
    (r : Trivia.Reader) : Trivia.read opening .blank r (c :: cs) =
      if isLineEnd c then Trivia.read opening .blank r.lineEnd cs
      else if isBlank c then Trivia.read opening .blank r.step cs
      else r.done (c :: cs) true := by
  rw [Trivia.read]
  · rintro rest rfl rfl
    cases h
  · rintro rest rfl rfl
    cases h

lemma read_start {opening : Bool} {cs : List Char} (h : startsToken cs = true) (r : Trivia.Reader) :
    Trivia.read opening .blank r cs = r.done cs true := by
  unfold startsToken at h
  simp only [Bool.and_eq_true] at h
  obtain ⟨⟨hcomment, hgap⟩, -⟩ := h
  match cs with
  | [] => rfl
  | c :: cs =>
    have hc : isGap c = false := by simpa using hgap
    simp only [isGap, Bool.or_eq_false_iff] at hc
    rw [read_blank_cons hcomment]
    simp [hc]

lemma read_gap {opening : Bool} {cs : List Char} (hcs : startsToken cs = true) : ∀ {gap : List Char},
    gap.all isGap = true → ∀ r : Trivia.Reader, r.pending = [] → Trivia.read opening .blank r (gap ++ cs) =
      ⟨r.newline || gap.any isLineEnd, [], r.annotations, r.size + gap.length, cs, true⟩
  | [], _, r, hr => by
    rw [nil_append, read_start hcs]
    simp [Trivia.Reader.done, hr]
  | c :: gap, hgap, r, hr => by
    simp only [all_cons, Bool.and_eq_true] at hgap
    have hcomment : opensNoComment (c :: (gap ++ cs)) = true := by
      unfold opensNoComment
      split
      · rename_i heq
        obtain rfl := (cons.inj heq).1
        exact absurd hgap.1 (by decide)
      · rename_i heq
        obtain rfl := (cons.inj heq).1
        exact absurd hgap.1 (by decide)
      · rfl
    rw [cons_append, read_blank_cons hcomment]
    by_cases hline : isLineEnd c = true
    · rw [read_gap hcs hgap.2]
      · simp [Trivia.Reader.lineEnd, hline, Nat.add_comm, Nat.add_left_comm]
      · simp [Trivia.Reader.lineEnd, hr, Trivia.Reader.followed]
    · have hblank : isBlank c = true := by simpa [isGap, hline] using hgap.1
      rw [if_pos hblank, read_gap hcs hgap.2 r.step hr]
      simp [Trivia.Reader.step, hline, Nat.add_comm, Nat.add_left_comm]

lemma lexeme_first {cs : List Char} (first : Bool) (h : startsToken cs = true) : lexeme first cs = lexeme false cs := by
  unfold startsToken at h
  unfold lexeme
  split
  · rfl
  · simp at h
  · rfl
  all_goals rfl

lemma read_chunk {first opening : Bool} {before : Nat} {p : Chunk} {rest : List Char} (h : p.Reads rest) :
    Cursor.read first opening before (p.chars ++ rest) = p.stand before rest := by
  have htrivia : skipTrivia first opening (p.chars ++ rest) =
      ⟨p.gap.any isLineEnd, [], [], p.gap.length, p.text ++ rest, true⟩ := by
    unfold skipTrivia Chunk.chars
    rw [append_assoc, read_gap h.starts h.gap _ rfl]
    simp
  unfold Cursor.read
  simp only [htrivia, lexeme_first _ h.starts, h.token]
  simp [Chunk.stand, Chunk.size, Chunk.chars, Nat.add_assoc]

lemma next_cursor {before : Nat} {p q : Chunk} {ps : List Chunk} (h : AllRead (p :: q :: ps)) :
    (cursor before (p :: q :: ps)).next = cursor (before + p.size) (q :: ps) := by
  have hread := @read_chunk false (p.token.is "=" || p.token.is "(") (before + p.size) q (flat ps) h.2.1
  unfold Cursor.next cursor
  simp only [Chunk.stand, flat, flatMap_cons] at hread ⊢
  rw [hread]
  simp

lemma cursor_ofSource {source : String} {p : Chunk} {ps : List Chunk} (h : AllRead (p :: ps))
    (hsource : source.toList = flat (p :: ps)) : Cursor.ofSource source = cursor 0 (p :: ps) := by
  unfold Cursor.ofSource
  rw [hsource]
  exact read_chunk h.1

section
variable {before : Nat} {p : Chunk} {ps qs : List Chunk}

lemma token_cursor : (cursor before (p :: ps)).token = p.token := rfl

lemma start_cursor : (cursor before (p :: ps)).start = before + p.gap.length := rfl

lemma before_cursor : (cursor before (p :: ps)).before = before := rfl

lemma annotations_cursor : (cursor before (p :: ps)).annotations = [] := rfl

lemma rest_cursor : (cursor before (p :: ps)).rest = flat ps := rfl

lemma flat_append : flat (ps ++ qs) = flat ps ++ flat qs := flatMap_append

lemma flat_cons : flat (p :: ps) = p.chars ++ flat ps := rfl

@[simp] lemma flat_nil : flat [] = [] := rfl

@[simp] lemma length_flat_cons : (flat (p :: ps)).length = p.size + (flat ps).length := length_append

@[simp] lemma length_flat_append : (flat (ps ++ qs)).length = (flat ps).length + (flat qs).length := by
  rw [flat_append, length_append]

lemma AllRead.right : ∀ {ps : List Chunk}, AllRead (ps ++ qs) → AllRead qs
  | [], h => h
  | _ :: _, h => AllRead.right h.2

end

/-! ## Parsers as functions of the cursor -/

namespace Parser

variable {α β : Type}

lemma run_bind (P : Parser α) (f : α → Parser β) (m : Mode) (c : Cursor) :
    (P >>= f) m c = (P m c).bind (fun r => f r.1 m r.2) := rfl

lemma run_pure (a : α) (m : Mode) (c : Cursor) : (pure a : Parser α) m c = some (a, c) := rfl
lemma run_map (f : α → β) (P : Parser α) (m : Mode) (c : Cursor) :
    (f <$> P) m c = (P m c).map (fun r => (f r.1, r.2)) := by
  show (P m c).bind _ = _
  cases P m c <;> rfl
lemma run_get (m : Mode) (c : Cursor) : (get : Parser Cursor) m c = some (c, c) := rfl
lemma run_read (m : Mode) (c : Cursor) : (read : Parser Mode) m c = some (m, c) := rfl
lemma run_orElse (P Q : Parser α) (m : Mode) (c : Cursor) : (P <|> Q) m c = (P m c).or (Q m c) := by
  show (P m c <|> Q m c) = _
  cases P m c <;> rfl
lemma run_on (s : String) (m : Mode) (c : Cursor) : on s m c = some (c.token.is s, c) := rfl
lemma run_advance (m : Mode) (c : Cursor) : advance m c = some ((), c.next) := rfl
lemma run_position (m : Mode) (c : Cursor) : position m c = some (c.start, c) := rfl
lemma run_close (start : Nat) (form : Form) (parts : List Node) (m : Mode) (c : Cursor) :
    close start form parts m c = some (.node form ⟨start, c.before⟩ parts, c) := rfl
lemma run_eat (s : String) (m : Mode) (c : Cursor) :
    eat s m c = if c.token.is s then some (true, c.next) else some (false, c) := by
  unfold eat
  rw [run_bind, run_on]
  cases c.token.is s <;> rfl
lemma run_expect (s : String) (m : Mode) (c : Cursor) :
    expect s m c = if c.token.is s then some ((), c.next) else none := by
  unfold expect
  rw [run_bind, run_eat]
  cases c.token.is s <;> rfl
lemma run_within (f : Mode → Mode) (P : Parser α) (m : Mode) (c : Cursor) : within f P m c = P (f m) c := rfl
lemma run_newline (m : Mode) (c : Cursor) : newline m c = some (c.newline, c) := rfl
lemma run_peek (m : Mode) (c : Cursor) : peek m c = some (c.next, c) := rfl
lemma run_annotate (n : Node) (m : Mode) (c : Cursor) : annotate [] n m c = some ((), c) := by
  show some ((), { c with annotated := c.annotated ++ [] ++ [] }) = _
  simp
lemma run_iterate (step : α → Parser (α ⊕ β)) (fuel : Nat) (a : α) (m : Mode) (c : Cursor) :
    iterate step (fuel + 1) a m c = (step a m c).bind (fun r =>
      match r.1 with
      | .inl a' => iterate step fuel a' m r.2
      | .inr b => some (b, r.2)) := by
  rw [iterate, run_bind]
  cases step a m c with
  | none => rfl
  | some r => obtain ⟨a' | b, c'⟩ := r <;> rfl
lemma run_flawIf (m : Mode) (c : Cursor) : flawIf false m c = some ((), c) := rfl
lemma run_repeatFrom (start : α) (step : α → Parser (α ⊕ β)) (m : Mode) (c : Cursor) :
    repeatFrom start step m c = iterate step (c.rest.length + 2) start m c := rfl

end Parser
end ReactiveTemplate.Script
