import ReactiveTemplate.Proofs.Script.Tokens
/-!
# Phrase — expressions of arithmetic and assignment, as they are written

A `Phrase` is an expression of names, numerals, operators and assignments with the blanks in front of its tokens.
-/
set_option linter.all false

namespace ReactiveTemplate.Script
open List

def isWordText : List Char → Bool
  | [] => false
  | c :: cs => Text.isWordStart c && cs.all Text.isWordPart

/-- Whether a text is a plain name: a word that is not reserved, and none of those that start something else. -/
def isName (x : String) : Bool :=
  isWordText x.toList && !reservedWords.contains x && !(["async", "let", "using"].contains x)

/-- The operators between two operands both of which are always evaluated, but for those that are words. -/
def plainOperators : List String :=
  ["|", "^", "&", "==", "!=", "===", "!==", "<", ">", "<=", ">=", "<<", ">>", ">>>", "+", "-", "*", "/", "%", "**"]

def stepOperators : List String := ["++", "--"]

def signOperators : List String := ["+", "-", "!", "~"]

inductive Phrase where
  | name (gap : List Char) (x : String)
  | numeral (gap text : List Char) (bits : Nat)
  | paren (gap : List Char) (inner : Phrase) (behind : List Char)
  | call (gap : List Char) (callee : String) (opening : List Char) (arguments : Phrase) (behind : List Char)
  | stepBefore (gap : List Char) (operator : String) (inside : List Char) (x : String)
  | stepBehind (gap : List Char) (x : String) (inside : List Char) (operator : String)
  | sign (gap : List Char) (operator : String) (operand : Phrase)
  | binary (left : Phrase) (gap : List Char) (operator : String) (right : Phrase)
  | assign (gap : List Char) (x : String) (inside : List Char) (operator : String) (value : Phrase)
  | comma (first : Phrase) (gap : List Char) (rest : Phrase)

namespace Chunk

def word (gap : List Char) (x : String) : Chunk := ⟨gap, x.toList, .word x false⟩

def punct (gap : List Char) (s : String) : Chunk := ⟨gap, s.toList, .punct s⟩

def finish (gap : List Char) : Chunk := ⟨gap, [], .finish⟩

@[simp] lemma size_word (gap : List Char) (x : String) : (word gap x).size = gap.length + x.toList.length := length_append

@[simp] lemma size_punct (gap : List Char) (s : String) : (punct gap s).size = gap.length + s.toList.length := length_append

end Chunk

namespace Phrase

def chunks : Phrase → List Chunk
  | name gap x => [.word gap x]
  | numeral gap text bits => [⟨gap, text, .number bits⟩]
  | paren gap inner behind => .punct gap "(" :: inner.chunks ++ [.punct behind ")"]
  | call gap callee opening arguments behind =>
    .word gap callee :: .punct opening "(" :: arguments.chunks ++ [.punct behind ")"]
  | stepBefore gap operator inside x => [.punct gap operator, .word inside x]
  | stepBehind gap x inside operator => [.word gap x, .punct inside operator]
  | sign gap operator operand => .punct gap operator :: operand.chunks
  | binary left gap operator right => left.chunks ++ .punct gap operator :: right.chunks
  | assign gap x inside operator value => .word gap x :: .punct inside operator :: value.chunks
  | comma first gap rest => first.chunks ++ .punct gap "," :: rest.chunks

def lead : Phrase → List Char
  | name gap _ | numeral gap _ _ | paren gap _ _ | call gap _ _ _ _ | stepBefore gap _ _ _ | stepBehind gap _ _ _
  | sign gap _ _ | assign gap _ _ _ _ => gap
  | binary left _ _ _ => left.lead
  | comma first _ _ => first.lead

def size (e : Phrase) : Nat := (flat e.chunks).length

def span (b : Nat) (e : Phrase) : Span := ⟨b + e.lead.length, b + e.size⟩

def nameAt (b : Nat) (gap : List Char) (x : String) : Node :=
  .node (.identifier x) ⟨b + gap.length, b + (gap.length + x.toList.length)⟩ []

def join (span : Span) : List Node → Node
  | [n] => n
  | ns => .node .sequence span ns

def trees (b : Nat) : Phrase → List Node
  | name gap x => [nameAt b gap x]
  | numeral gap text bits => [.node (.number bits) ((numeral gap text bits).span b) []]
  | paren gap inner behind =>
    let inside := b + (gap.length + 1)
    [.node .parenthesized ((paren gap inner behind).span b) [join (inner.span inside) (trees inside inner)]]
  | call gap callee opening arguments behind =>
    let inside := b + (gap.length + callee.toList.length) + (opening.length + 1)
    [.node (.call false) ((call gap callee opening arguments behind).span b) (nameAt b gap callee :: trees inside arguments)]
  | stepBefore gap operator inside x =>
    [.node (.update operator true) ((stepBefore gap operator inside x).span b)
      [nameAt (b + (gap.length + operator.toList.length)) inside x]]
  | stepBehind gap x inside operator =>
    [.node (.update operator false) ((stepBehind gap x inside operator).span b) [nameAt b gap x]]
  | sign gap operator operand =>
    [.node (.unary operator) ((sign gap operator operand).span b)
      (trees (b + (gap.length + operator.toList.length)) operand)]
  | binary left gap operator right =>
    [.node (.binary operator) ((binary left gap operator right).span b)
      (trees b left ++ trees (b + left.size + (gap.length + operator.toList.length)) right)]
  | assign gap x inside operator value =>
    [.node (.assign operator) ((assign gap x inside operator value).span b)
      (nameAt b gap x ::
        trees (b + (gap.length + x.toList.length) + (inside.length + operator.toList.length)) value)]
  | comma first gap rest => trees b first ++ trees (b + first.size + (gap.length + 1)) rest

def tree (b : Nat) (e : Phrase) : Node := join (e.span b) (e.trees b)

/-! ## Which phrases can be read -/

def isItem : Phrase → Bool
  | comma _ _ _ => false
  | _ => true

def isOperand : Phrase → Bool
  | name _ _ | numeral _ _ _ | paren _ _ _ | call _ _ _ _ _ => true
  | _ => false

def isSign : Phrase → Bool
  | sign _ _ _ => true
  | _ => false

def hold (operator : String) : Nat := if operator = "**" then 13 else (binaryPrecedence? operator).getD 0

def pull (operator : String) : Nat := if operator = "**" then 14 else (binaryPrecedence? operator).getD 0

/-- How tightly a phrase is bound: by its operator if it has one; assignments and lists not at all. -/
def tightness : Phrase → Nat
  | binary _ _ operator _ => hold operator
  | assign _ _ _ _ _ | comma _ _ _ => 0
  | _ => 14

def fits : Phrase → Bool
  | name _ x => isName x
  | numeral _ _ _ => true
  | paren _ inner _ => inner.fits
  | call _ callee _ arguments _ => isName callee && arguments.fits
  | stepBefore _ operator _ x => stepOperators.contains operator && isName x
  | stepBehind _ x inside operator => stepOperators.contains operator && isName x && !inside.any isLineEnd
  | sign _ operator operand => signOperators.contains operator && operand.fits && operand.tightness == 14
  | binary left _ operator right =>
    plainOperators.contains operator && left.fits && right.fits && decide (pull operator ≤ left.tightness) &&
      decide ((binaryPrecedence? operator).getD 0 < right.tightness) && !(operator == "**" && left.isSign)
  | assign _ x _ operator value => isName x && assignmentOperators.contains operator && value.fits && value.isItem
  | comma first _ rest => first.fits && first.isItem && rest.fits

def floors : Phrase → Nat
  | name _ _ | numeral _ _ _ | stepBehind _ _ _ _ => 0
  | stepBefore _ _ _ _ => 1
  | paren _ inner _ => inner.floors + 1
  | call _ _ _ arguments _ => arguments.floors + 1
  | sign _ _ operand => operand.floors + 1
  | binary left _ _ right => max left.floors (right.floors + 1)
  | assign _ _ _ _ value => value.floors + 1
  | comma first _ rest => max first.floors rest.floors

def spine : Phrase → Nat
  | binary left _ _ _ => left.spine + 1
  | _ => 0

def commas : Phrase → Nat
  | comma _ _ rest => rest.commas + 1
  | _ => 0

/-! ## Sizes and first tokens -/

variable {b bits : Nat} {e left right : Phrase} {row : List Chunk} {gap inside behind text : List Char} {x operator : String}

attribute [local simp] size chunks

lemma size_name : (name gap x).size = gap.length + x.toList.length := Chunk.size_word gap x ▸ length_flat_cons

lemma size_numeral : (numeral gap text bits).size = gap.length + text.length := by
  simp [flat, Chunk.chars]

lemma size_paren : (paren gap e behind).size = gap.length + 1 + e.size + (behind.length + 1) := by
  simp [Nat.add_assoc]

lemma size_call : (call gap x inside e behind).size =
    gap.length + x.toList.length + (inside.length + 1) + e.size + (behind.length + 1) := by
  simp [Nat.add_assoc]

lemma size_stepBefore : (stepBefore gap operator inside x).size =
    gap.length + operator.toList.length + (inside.length + x.toList.length) := by
  simp

lemma size_stepBehind : (stepBehind gap x inside operator).size =
    gap.length + x.toList.length + (inside.length + operator.toList.length) := by
  simp

lemma size_sign : (sign gap operator e).size = gap.length + operator.toList.length + e.size := by
  simp

lemma size_binary :
    (binary left gap operator right).size = left.size + (gap.length + operator.toList.length) + right.size := by
  simp [Nat.add_assoc]

lemma size_assign : (assign gap x inside operator e).size =
    gap.length + x.toList.length + (inside.length + operator.toList.length) + e.size := by
  simp [Nat.add_assoc]

lemma size_comma : (comma left gap right).size = left.size + (gap.length + 1) + right.size := by
  simp [Nat.add_assoc]

lemma exists_chunks_eq (e : Phrase) : ∃ p ps, e.chunks = p :: ps ∧ p.gap = e.lead := by
  induction e with
  | binary left gap operator right ih _ =>
    obtain ⟨p, ps, h, hgap⟩ := ih
    exact ⟨p, ps ++ .punct gap operator :: right.chunks, by simp [chunks, h], hgap⟩
  | comma first gap rest ih _ =>
    obtain ⟨p, ps, h, hgap⟩ := ih
    exact ⟨p, ps ++ .punct gap "," :: rest.chunks, by simp [chunks, h], hgap⟩
  | _ => exact ⟨_, _, rfl, rfl⟩

lemma start_cursor_chunks : (cursor b (e.chunks ++ row)).start = b + e.lead.length := by
  obtain ⟨p, ps, h, hgap⟩ := e.exists_chunks_eq
  rw [h, cons_append, start_cursor, hgap]

lemma annotations_cursor_chunks : (cursor b (e.chunks ++ row)).annotations = [] := by
  obtain ⟨p, ps, h, -⟩ := e.exists_chunks_eq
  rw [h, cons_append, annotations_cursor]

/-- Lists of items from their last item on. -/
lemma item_rec {motive : Phrase → Prop} (item : ∀ e : Phrase, e.isItem = true → motive e)
    (comma : ∀ first gap rest, motive rest → motive (.comma first gap rest)) (e : Phrase) : motive e := by
  induction e with
  | comma first gap rest _ ih => exact comma first gap rest ih
  | _ => exact item _ rfl

/-- Chains of operators from their first operand on. -/
lemma spine_rec {motive : Phrase → Prop} (operand : ∀ e : Phrase, e.spine = 0 → motive e)
    (binary : ∀ left gap operator right, motive left → motive (.binary left gap operator right)) (e : Phrase) :
    motive e := by
  induction e with
  | binary left gap operator right ih _ => exact binary left gap operator right ih
  | _ => exact operand _ rfl

lemma tightness_of_spine (h : e.spine = 0) (hpos : 0 < e.tightness) : e.tightness = 14 := by
  cases e <;> first | rfl | cases hpos | cases h

lemma trees_ne_nil (e : Phrase) (b : Nat) : e.trees b ≠ [] := by
  induction e generalizing b with
  | comma first gap rest ih _ => exact append_ne_nil_of_left_ne_nil (ih b) _
  | _ => exact cons_ne_nil _ _

lemma trees_eq (h : e.isItem = true) : e.trees b = [e.tree b] := by
  cases e with
  | comma first gap rest => cases h
  | _ => rfl

lemma precedence_le (s : String) : (binaryPrecedence? s).getD 0 ≤ 12 := by
  unfold binaryPrecedence?
  split <;> decide

lemma hold_le (s : String) : hold s ≤ 13 := by
  have hprecedence := precedence_le s
  unfold hold
  split <;> omega

lemma hold_le_pull (s : String) : hold s ≤ pull s := by
  unfold hold pull
  split <;> simp

lemma tightness_le (e : Phrase) : e.tightness ≤ 14 := by
  cases e with
  | binary left gap operator right => exact Nat.le_succ_of_le (hold_le operator)
  | assign gap x inside operator value => exact Nat.zero_le 14
  | comma first gap rest => exact Nat.zero_le 14
  | _ => exact Nat.le_refl 14

lemma isItem_of_tightness (h : 0 < e.tightness) : e.isItem = true := by
  cases e with
  | comma first gap rest => cases h
  | _ => rfl

lemma tree_sign (h : e.isItem = true) :
    (sign gap operator e).tree b = .node (.unary operator) ((sign gap operator e).span b)
      [e.tree (b + (gap.length + operator.toList.length))] := by
  rw [← trees_eq h]
  rfl

lemma tree_binary (hleft : left.isItem = true) (hright : right.isItem = true) :
    (binary left gap operator right).tree b = .node (.binary operator) ((binary left gap operator right).span b)
      [left.tree b, right.tree (b + left.size + (gap.length + operator.toList.length))] := by
  rw [← singleton_append, ← trees_eq hleft, ← trees_eq hright]
  rfl

lemma tree_assign (h : e.isItem = true) : (assign gap x inside operator e).tree b =
      .node (.assign operator) ((assign gap x inside operator e).span b) [nameAt b gap x,
        e.tree (b + (gap.length + x.toList.length) + (inside.length + operator.toList.length))] := by
  rw [← trees_eq h]
  rfl

lemma commas_le_size : ∀ e : Phrase, e.commas ≤ e.size
  | comma first gap rest => by
    have := commas_le_size rest
    rw [size_comma, commas]
    omega
  | name _ _ | numeral _ _ _ | paren _ _ _ | call _ _ _ _ _ | stepBefore _ _ _ _ | stepBehind _ _ _ _ | sign _ _ _
  | binary _ _ _ _ | assign _ _ _ _ _ => Nat.zero_le _

lemma commas_le_rest : e.commas ≤ (cursor b (e.chunks ++ row)).rest.length := by
  cases e with
  | comma first gap rest =>
    obtain ⟨p, ps, hp, -⟩ := first.exists_chunks_eq
    have hrest : rest.commas ≤ (flat rest.chunks).length := commas_le_size rest
    simp only [chunks, hp, cons_append, rest_cursor, length_flat_append, length_flat_cons, commas,
      Chunk.size_punct, show ",".toList.length = 1 from rfl]
    omega
  | _ => exact Nat.zero_le _

end Phrase
end ReactiveTemplate.Script
