import ReactiveTemplate.Proofs.Reactive.Snippets
/-!
# Told — the tree of a snippet with its calls

`Node.told` puts the calls into the tree, and `Node.unplaced` forgets where nodes stand.
-/
set_option linter.all false

namespace ReactiveTemplate
open List

open Script (Phrase Chunk Node Form Span UseKind flat AllRead)

namespace Script.Node

mutual
def unplaced : Node → Node
  | node form _ parts => node form ⟨0, 0⟩ (unplacedAll parts)

def unplacedAll : List Node → List Node
  | [] => []
  | n :: ns => unplaced n :: unplacedAll ns
end

def named (x : String) : Node := node (.identifier x) ⟨0, 0⟩ []

def telling (k : Nat) (x : String) (write : Node) : Node :=
  node (.call false) ⟨0, 0⟩ [named "_$i", node (.number (indexBits k)) ⟨0, 0⟩ [], named x, write]

/-- The write that a node is, as the last argument of the call: an update in front of which the old value is read is
followed by the variable. -/
def renewed (kind : UseKind) (x : String) (write : Node) : Node :=
  if kind = .updated false then node .parenthesized ⟨0, 0⟩ [node .sequence ⟨0, 0⟩ [write, named x]] else write

/-- A node with the call around it that a use of it wants, if it is a write to a name that has a number. -/
def tellOf (number : String → Option Nat) (use : Option (UseKind × String)) (n : Node) : Node :=
  match use with
  | none | some (.read, _) | some (.called, _) => n
  | some (kind, x) => (number x).elim n (fun k => telling k x (renewed kind x n))

mutual
def told (number : String → Option Nat) : Node → Node
  | node form span parts => tellOf number (form.useOf parts) (node form span (toldAll number parts))

def toldAll (number : String → Option Nat) : List Node → List Node
  | [] => []
  | n :: ns => told number n :: toldAll number ns
end

variable {number : String → Option Nat}

lemma unplacedAll_append (ns ms : List Node) : unplacedAll (ns ++ ms) = unplacedAll ns ++ unplacedAll ms := by
  induction ns with
  | nil => rfl
  | cons n ns ih => rw [cons_append, unplacedAll, ih, unplacedAll, cons_append]

lemma toldAll_append (ns ms : List Node) : toldAll number (ns ++ ms) = toldAll number ns ++ toldAll number ms := by
  induction ns with
  | nil => rfl
  | cons n ns ih => rw [cons_append, toldAll, ih, toldAll, cons_append]

lemma unplaced_join (span : Span) : ∀ ns : List Node,
    (Phrase.join span ns).unplaced = Phrase.join ⟨0, 0⟩ (unplacedAll ns)
  | [] => rfl
  | [_] => rfl
  | _ :: _ :: _ => rfl

lemma told_join (span : Span) : ∀ ns : List Node, (Phrase.join span ns).told number = Phrase.join span (toldAll number ns)
  | [] => rfl
  | [_] => rfl
  | _ :: _ :: _ => rfl

lemma unplaced_told_join {span span' : Span} {ns ms : List Node} (h : unplacedAll ns = unplacedAll (toldAll number ms)) :
    (Phrase.join span ns).unplaced = ((Phrase.join span' ms).told number).unplaced := by
  rw [told_join, unplaced_join, unplaced_join, h]

end Script.Node

namespace Script.Phrase

open Node (unplaced unplacedAll told toldAll)

variable {number : String → Option Nat}

lemma unplacedAll_telling {gap : List Char} {k : Nat} {x : String} {write : Phrase} {w : Node} {b : Nat}
    (hwrite : ∀ b, unplacedAll (write.trees b) = [w.unplaced]) :
    unplacedAll ((telling gap k x write).trees b) = [(Node.telling k x w).unplaced] := by
  simp [telling, index, trees, nameAt, unplacedAll, unplaced, Node.telling, Node.named, hwrite]

lemma unplaced_wrap (e : Phrase) : ∀ b b' : Nat,
    unplacedAll ((e.wrap number).trees b') = unplacedAll (toldAll number (e.trees b)) := by
  induction e with
  | name gap x => exact fun _ _ => rfl
  | numeral gap text bits => exact fun _ _ => rfl
  | paren gap inner behind ih =>
    intro b b'
    exact congrArg (fun n => [Node.node .parenthesized ⟨0, 0⟩ [n]]) (Node.unplaced_told_join (ih _ _))
  | call gap callee opening arguments behind ih =>
    intro b b'
    exact congrArg (fun ns => [Node.node (.call false) ⟨0, 0⟩ (Node.named callee :: ns)]) (ih _ _)
  | stepBefore gap operator inside x =>
    intro b b'
    show _ = [((number x).elim (Node.node (.update operator true) _ [nameAt _ inside x]) _).unplaced]
    rw [wrap]
    cases number x with
    | none => rfl
    | some k => exact unplacedAll_telling (fun _ => rfl)
  | stepBehind gap x inside operator =>
    intro b b'
    show _ = [((number x).elim (Node.node (.update operator false) _ [nameAt b gap x]) _).unplaced]
    rw [wrap]
    cases number x with
    | none => rfl
    | some k => exact unplacedAll_telling (fun _ => rfl)
  | sign gap operator operand ih =>
    intro b b'
    exact congrArg (fun ns => [Node.node (.unary operator) ⟨0, 0⟩ ns]) (ih _ _)
  | binary left gap operator right ihl ihr =>
    intro b b'
    have hparts : ∀ d d' : Nat, unplacedAll ((left.wrap number).trees b' ++ (right.wrap number).trees d') =
        unplacedAll (toldAll number (left.trees b ++ right.trees d)) := by
      intro d d'
      rw [Node.toldAll_append, Node.unplacedAll_append, Node.unplacedAll_append, ihl b b', ihr d d']
    exact congrArg (fun ns => [Node.node (.binary operator) ⟨0, 0⟩ ns]) (hparts _ _)
  | assign gap x inside operator value ih =>
    intro b b'
    have hassign : ∀ (gap' : List Char) (b' : Nat),
        unplacedAll ((assign gap' x inside operator (value.wrap number)).trees b') =
          [(Node.node (.assign operator) ((assign gap x inside operator value).span b) (toldAll number (nameAt b gap x ::
            value.trees (b + (gap.length + x.toList.length) + (inside.length + operator.toList.length))))).unplaced] := by
      intro gap' b'
      exact congrArg (fun ns => [Node.node (.assign operator) ⟨0, 0⟩ (Node.named x :: ns)]) (ih _ _)
    show _ = [((number x).elim (Node.node (.assign operator) _ (toldAll number (nameAt b gap x :: _))) _).unplaced]
    rw [wrap]
    cases number x with
    | none => exact hassign gap b'
    | some k => exact unplacedAll_telling (hassign [' '])
  | comma first gap rest ihf ihr =>
    intro b b'
    rw [wrap, trees, trees, Node.toldAll_append, Node.unplacedAll_append, Node.unplacedAll_append, ihf b b', ihr _ _]

end Script.Phrase

section Snippet

variable {e : Phrase} {behind : List Char} {source : String}

lemma exists_told (context : List String) (vars : IndexedSet String) (hfits : e.fits = true)
    (hsource : source.toList = flat (e.chunks ++ [.finish behind])) (hread : AllRead (e.chunks ++ [.finish behind])) :
    ∃ text vars' program', Script.parseProgram? source = some (e.program behind) ∧
      instrumentSnippet source context vars = .ok (text, vars') ∧ Script.parseProgram? text = some program' ∧
      program'.root.unplaced = ((e.program behind).root.told (Invalidation.numbering context vars')).unplaced := by
  obtain ⟨vars', -, hsnippet⟩ := instrumentSnippet_phrase context vars hfits hsource hread
  have hstops : Script.stops (flat [.finish behind]) = true := by
    have hgap : behind.all Script.isGap = true := hread.right.1.gap
    cases behind with
    | nil => rfl
    | cons c cs =>
      rw [all_cons, Bool.and_eq_true] at hgap
      exact Script.stops_gap hgap.1
  have hread' := Script.allRead_wrap (Invalidation.numbering context vars') e hfits hread hread.right hstops
  have htree : ((e.wrap (Invalidation.numbering context vars')).tree 0).unplaced =
      ((e.tree 0).told (Invalidation.numbering context vars')).unplaced :=
    Script.Node.unplaced_told_join (e.unplaced_wrap 0 0)
  refine ⟨_, vars', _, Script.parseProgram?_phrase hfits hsource hread, hsnippet,
    Script.parseProgram?_phrase (Phrase.fits_wrap hfits) String.toList_ofList hread', ?_⟩
  exact congrArg (fun n => Node.node .program ⟨0, 0⟩ [Node.node .expression ⟨0, 0⟩ [n]]) htree

def Script.Phrase.tight : Phrase :=
  .comma (.assign [] "y" [] "=" (.binary (.stepBehind [] "x" [] "++") [] "+" (.name [] "z"))) []
    (.assign [] "x" [] "-=" (.sign [] "-" (.paren [] (.assign [] "n" [] "*=" (.numeral [] ['2'] (Script.decimalBits ['2']))) [])))

def Script.Node.leadingForm (n : Node) : Form := ((n.part 0).part 0).form

end Snippet

end ReactiveTemplate
