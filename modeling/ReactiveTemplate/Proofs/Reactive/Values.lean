import ReactiveTemplate.Proofs.Reactive.Told
/-!
# Values — what a snippet comes to with its calls

Expressions are evaluated over a store (`Node.eval`), whatever the operators make of values (`Arithmetic`).
-/
set_option linter.all false

namespace ReactiveTemplate
open List

open Script (Phrase Chunk Node Form Span UseKind flat AllRead)

structure Arithmetic (V : Type) where
  numeral : Nat → V
  sign : String → V → V
  combine : String → V → V → V
  numeric : V → V
  step : String → V → V
  isTruthy : V → Bool
  isNullish : V → Bool

abbrev Store (V : Type) := String → V

def Store.write {V : Type} (s : Store V) (x : String) (v : V) : Store V := fun y => if y = x then v else s y

/-- What evaluating does: it gives a value and changes the store, or there is nothing that it could do. -/
abbrev Run (V : Type) := StateT (Store V) Option

def Run.read {V : Type} (x : String) : Run V V := fun s => some (s x, s)

def Run.write {V : Type} (x : String) (v : V) : Run V V := fun s => some (v, s.write x v)

def Run.all {V : Type} : List (Run V V) → Run V V
  | [] => failure
  | first :: rest => rest.foldl (fun done next => do let _ ← done; next) first

namespace Arithmetic

variable {V : Type} (A : Arithmetic V)

def isSettled (operator : String) (old : V) : Bool :=
  match operator with
  | "&&=" => !A.isTruthy old
  | "||=" => A.isTruthy old
  | "??=" => !A.isNullish old
  | _ => false

def assigned (operator : String) (old new : V) : V :=
  if ["=", "&&=", "||=", "??="].contains operator then new
  else A.combine (String.ofList operator.toList.dropLast) old new

def assign (operator x : String) (value : Run V V) : Run V V := do
  let old ← Run.read x
  if A.isSettled operator old then return old
  Run.write x (A.assigned operator old (← value))

def update (operator x : String) (isNew : Bool) : Run V V := do
  let old := A.numeric (← Run.read x)
  let new ← Run.write x (A.step operator old)
  return if isNew then new else old

/-- What a node does, from what its parts do and the name that its first part is. -/
def act (renewed : String → Bool) (form : Form) (first : Option String) (parts : List (Run V V)) : Run V V :=
  match form, first, parts with
  | .identifier x, _, [] => Run.read x
  | .number bits, _, [] => pure (A.numeral bits)
  | .parenthesized, _, [inner] | .expression, _, [inner] | .program, _, [inner] => inner
  | .sequence, _, items => Run.all items
  | .unary operator, _, [operand] => A.sign operator <$> operand
  | .binary operator, _, [left, right] => do return A.combine operator (← left) (← right)
  | .update operator isPrefix, some x, [_] => A.update operator x (isPrefix || renewed x)
  | .assign operator, some x, [_, value] => A.assign operator x value
  | .call false, some callee, [_, number, before, after] =>
    if callee = "_$i" then Run.all [number, before, after] else failure
  | _, _, _ => failure

end Arithmetic

namespace Script.Node

variable {V : Type} (A : Arithmetic V) (renewed : String → Bool)

def firstName (ns : List Node) : Option String := ns.head?.bind identifier?

mutual
def eval : Node → Run V V
  | node form _ parts => A.act renewed form (firstName parts) (evalAll parts)

def evalAll : List Node → List (Run V V)
  | [] => []
  | n :: ns => eval n :: evalAll ns
end

variable {A renewed} {number : String → Option Nat}

/-! ## Trees with calls -/

lemma firstName_unplacedAll (ns : List Node) : firstName (unplacedAll ns) = firstName ns := by
  cases ns with
  | nil => rfl
  | cons n ns =>
    cases n
    rfl

mutual
theorem eval_unplaced : ∀ n : Node, n.unplaced.eval A renewed = n.eval A renewed
  | node form span parts => by
    rw [unplaced, eval, eval, firstName_unplacedAll, evalAll_unplacedAll parts]

theorem evalAll_unplacedAll : ∀ ns : List Node, evalAll A renewed (unplacedAll ns) = evalAll A renewed ns
  | [] => rfl
  | n :: ns => by
    rw [unplacedAll, evalAll, evalAll, eval_unplaced n, evalAll_unplacedAll ns]
end

variable {form : Form} {parts : List Node} {x : String} {span : Span}

lemma useOf_write {kind : UseKind}
    (h : form.useOf parts = some (kind, x)) (hread : kind ≠ .read) (hcalled : kind ≠ .called) :
    firstName parts = some x ∧
      ((∃ operator, form = .assign operator ∧ kind = .assigned) ∨
        ∃ operator isPrefix, form = .update operator isPrefix ∧ kind = .updated isPrefix) := by
  unfold Form.useOf at h
  split at h
  · cases h
    exact absurd rfl hread
  · rename_i operator target rest
    obtain ⟨y, hy, heq⟩ := Option.map_eq_some_iff.1 h
    cases heq
    exact ⟨hy, .inl ⟨operator, rfl, rfl⟩⟩
  · rename_i operator isPrefix target rest
    obtain ⟨y, hy, heq⟩ := Option.map_eq_some_iff.1 h
    cases heq
    exact ⟨hy, .inr ⟨operator, isPrefix, rfl, rfl⟩⟩
  · obtain ⟨y, -, heq⟩ := Option.map_eq_some_iff.1 h
    cases heq
    exact absurd rfl hcalled
  · cases h

lemma useOf_update {operator : String} {isPrefix : Bool} (h : firstName parts = some x) :
    (Form.update operator isPrefix).useOf parts = some (.updated isPrefix, x) := by
  cases parts with
  | nil => cases h
  | cons n ns => exact congrArg (Option.map _) h

lemma identifier?_told (n : Node) : (n.told number).identifier? = n.identifier? := by
  obtain ⟨form, span, parts⟩ := n
  rw [told]
  unfold tellOf
  split
  · rfl
  · rfl
  · rfl
  · rename_i kind x hread hcalled huse
    cases number x with
    | none => rfl
    | some k =>
      -- a write is no name, and neither is a call
      rcases (useOf_write huse hread hcalled).2 with
        ⟨operator, rfl, -⟩ | ⟨operator, isPrefix, rfl, -⟩ <;> rfl

lemma firstName_toldAll (ns : List Node) : firstName (toldAll number ns) = firstName ns := by
  cases ns with
  | nil => rfl
  | cons n ns => exact identifier?_told n

lemma eval_telling (k : Nat) (x : String) (write : Node) :
    (telling k x write).eval A renewed = write.eval A renewed := by
  rfl

lemma act_congr {renewed' : String → Bool} {first : Option String} {runs : List (Run V V)}
    (h : ∀ operator x, form = .update operator false → first = some x → renewed x = renewed' x) :
    A.act renewed form first runs = A.act renewed' form first runs := by
  unfold Arithmetic.act
  split <;> try rfl
  rename_i operator isPrefix x _
  cases isPrefix with
  | true => rfl
  | false => rw [h operator x rfl rfl]

lemma eval_congr {renewed' : String → Bool} (hparts : evalAll A renewed parts = evalAll A renewed' parts)
    (h : ∀ operator x, form = .update operator false → firstName parts = some x → renewed x = renewed' x) :
    (node form span parts).eval A renewed = (node form span parts).eval A renewed' := by
  rw [eval, hparts]
  exact act_congr h

lemma all_update_read (operator x : String) :
    Run.all [A.update operator x false, Run.read x] = A.update operator x true := by
  funext s
  refine congrArg some (Prod.ext ?_ rfl)
  exact if_pos rfl

lemma eval_renewed_update {operator : String} (h : firstName parts = some x) :
    (Node.renewed (.updated false) x (node (.update operator false) span parts)).eval A (fun _ => false) =
      A.act (fun _ => true) (.update operator false) (some x) (evalAll A (fun _ => false) parts) := by
  have hall : (Node.renewed (.updated false) x (node (.update operator false) span parts)).eval A (fun _ => false) =
      Run.all [A.act (fun _ => false) (.update operator false) (firstName parts) (evalAll A (fun _ => false) parts),
        Run.read x] := rfl
  rw [hall, h]
  generalize evalAll A (fun _ => false) parts = runs
  match runs with
  | [] => rfl
  | [_] => exact all_update_read operator x
  | _ :: _ :: _ => rfl

lemma eval_tellOf {parts' : List Node} (hfirst : firstName parts' = firstName parts) :
    (tellOf number (form.useOf parts) (node form span parts')).eval A (fun _ => false) =
      A.act (fun x => (number x).isSome) form (firstName parts) (evalAll A (fun _ => false) parts') := by
  have hother : (∀ operator x, form = .update operator false → firstName parts = some x → number x = none) →
      (node form span parts').eval A (fun _ => false) =
        A.act (fun x => (number x).isSome) form (firstName parts) (evalAll A (fun _ => false) parts') := by
    intro h
    rw [eval, hfirst]
    refine act_congr (fun operator x hform hx => ?_)
    rw [h operator x hform hx]
    rfl
  have hupdate : ∀ operator x, form = .update operator false → firstName parts = some x →
      form.useOf parts = some (.updated false, x) := by
    rintro operator x rfl hx
    exact useOf_update hx
  unfold tellOf
  split
  · rename_i huse
    exact hother (fun operator x hform hx => nomatch huse.symm.trans (hupdate operator x hform hx))
  · rename_i huse
    exact hother (fun operator x hform hx => nomatch huse.symm.trans (hupdate operator x hform hx))
  · rename_i huse
    exact hother (fun operator x hform hx => nomatch huse.symm.trans (hupdate operator x hform hx))
  · rename_i kind x hread hcalled huse
    obtain ⟨hx, hform⟩ := useOf_write huse hread hcalled
    cases hnumber : number x with
    | none =>
      refine hother (fun operator y _ hy => ?_)
      cases hx.symm.trans hy
      exact hnumber
    | some k =>
      refine (eval_telling k x _).trans ?_
      rcases hform with ⟨operator, rfl, rfl⟩ | ⟨operator, isPrefix, rfl, rfl⟩
      · exact hother (fun _ _ h => nomatch h)
      · cases isPrefix with
        | true => exact hother (fun _ _ h => nomatch h)
        | false =>
          rw [eval_renewed_update (hfirst.trans hx), hx]
          refine act_congr (fun _ y _ hy => ?_)
          cases hy
          rw [hnumber]
          rfl

mutual
theorem eval_told : ∀ n : Node, (n.told number).eval A (fun _ => false) = n.eval A (fun x => (number x).isSome)
  | node form span parts => by
    rw [told, eval_tellOf (firstName_toldAll parts), evalAll_toldAll parts, eval]

theorem evalAll_toldAll : ∀ ns : List Node,
    evalAll A (fun _ => false) (toldAll number ns) = evalAll A (fun x => (number x).isSome) ns
  | [] => rfl
  | n :: ns => by
    rw [toldAll, evalAll, evalAll, eval_told n, evalAll_toldAll ns]
end

lemma evalAll_append (ns ms : List Node) : evalAll A renewed (ns ++ ms) = evalAll A renewed ns ++ evalAll A renewed ms := by
  induction ns with
  | nil => rfl
  | cons n ns ih => rw [cons_append, evalAll, ih, evalAll, cons_append]

lemma eval_join (span : Span) : ∀ ns : List Node, (Phrase.join span ns).eval A renewed = Run.all (evalAll A renewed ns)
  | [] => rfl
  | [_] => rfl
  | _ :: _ :: _ => rfl

end Script.Node

/-! ## Phrases -/

def Run.IsTotal {V : Type} (run : Run V V) : Prop := ∀ s, ∃ v s', run s = some (v, s')

namespace Run

variable {V : Type}

lemma isTotal_bind {run : Run V V} {next : V → Run V V} (h : run.IsTotal) (hnext : ∀ v, (next v).IsTotal) :
    IsTotal (do next (← run)) := by
  intro s
  obtain ⟨v, s', hrun⟩ := h s
  obtain ⟨v', s'', hv⟩ := hnext v s'
  exact ⟨v', s'', by simp [bind, StateT.bind, hrun, hv]⟩

lemma isTotal_read (x : String) : (read x : Run V V).IsTotal := fun s => ⟨s x, s, rfl⟩

lemma isTotal_write (x : String) (v : V) : (write x v).IsTotal := fun s => ⟨v, s.write x v, rfl⟩

lemma isTotal_pure (v : V) : (pure v : Run V V).IsTotal := fun s => ⟨v, s, rfl⟩

lemma isTotal_all {runs : List (Run V V)} (hne : runs ≠ []) (h : ∀ run ∈ runs, run.IsTotal) : (all runs).IsTotal := by
  have hfold : ∀ (rest : List (Run V V)) (first : Run V V), first.IsTotal → (∀ run ∈ rest, run.IsTotal) →
      (rest.foldl (fun done next => do let _ ← done; next) first).IsTotal := by
    intro rest
    induction rest with
    | nil => exact fun first hfirst _ => hfirst
    | cons run rest ih =>
      intro first hfirst hrest
      refine ih _ (isTotal_bind hfirst (fun _ => hrest run (.head _))) ?_
      exact fun r hr => hrest r (mem_cons_of_mem run hr)
  cases runs with
  | nil => exact absurd rfl hne
  | cons run rest => exact hfold rest run (h run (.head _)) (fun r hr => h r (mem_cons_of_mem run hr))

end Run

namespace Arithmetic

variable {V : Type} (A : Arithmetic V)

lemma isTotal_update (operator x : String) (isNew : Bool) : (A.update operator x isNew).IsTotal :=
  fun _ => ⟨_, _, rfl⟩

lemma isTotal_assign (operator x : String) {value : Run V V} (h : value.IsTotal) : (A.assign operator x value).IsTotal := by
  refine Run.isTotal_bind (Run.isTotal_read x) (fun old => ?_)
  split
  · exact Run.isTotal_pure old
  · exact Run.isTotal_bind h (fun v => Run.isTotal_write x _)

end Arithmetic

namespace Script.Phrase

open Node (evalAll)

def callsNothing : Phrase → Bool
  | name _ _ | numeral _ _ _ | stepBefore _ _ _ _ | stepBehind _ _ _ _ => true
  | call _ _ _ _ _ => false
  | paren _ inner _ => inner.callsNothing
  | sign _ _ operand => operand.callsNothing
  | binary left _ _ right => left.callsNothing && right.callsNothing
  | assign _ _ _ _ value => value.callsNothing
  | comma first _ rest => first.callsNothing && rest.callsNothing

variable {V : Type} {A : Arithmetic V} {renewed : String → Bool} {number : String → Option Nat}

lemma evalAll_item {e : Phrase} (h : e.isItem = true) (b : Nat) :
    evalAll A renewed (e.trees b) = [(e.tree b).eval A renewed] := by
  rw [trees_eq h]
  rfl

lemma isTotal_all_trees {e : Phrase} {b : Nat} (h : ∀ run ∈ evalAll A renewed (e.trees b), run.IsTotal) :
    (Run.all (evalAll A renewed (e.trees b))).IsTotal := by
  refine Run.isTotal_all ?_ h
  obtain ⟨n, ns, hn⟩ := exists_cons_of_ne_nil (e.trees_ne_nil b)
  rw [hn]
  exact cons_ne_nil _ _

lemma isTotal_trees {e : Phrase} (hfits : e.fits = true) (hcalls : e.callsNothing = true) :
    ∀ b, ∀ run ∈ evalAll A renewed (e.trees b), run.IsTotal := by
  -- an item is one node, so it is enough to see what that does
  have hitem : ∀ {e : Phrase} {b : Nat}, e.isItem = true → ((e.tree b).eval A renewed).IsTotal →
      ∀ run ∈ evalAll A renewed (e.trees b), run.IsTotal := by
    intro e b hitem h run hrun
    rw [evalAll_item hitem] at hrun
    exact mem_singleton.1 hrun ▸ h
  have hof : ∀ {e : Phrase} {b : Nat}, e.isItem = true → (∀ run ∈ evalAll A renewed (e.trees b), run.IsTotal) →
      ((e.tree b).eval A renewed).IsTotal := by
    intro e b hitem h
    exact h _ (by rw [evalAll_item hitem]; exact (.head _))
  induction e with
  | name gap x => exact fun b => hitem rfl (Run.isTotal_read x)
  | numeral gap text bits => exact fun b => hitem rfl (Run.isTotal_pure _)
  | paren gap inner behind ih =>
    intro b
    refine hitem rfl ?_
    show ((join _ (inner.trees _)).eval A renewed).IsTotal
    rw [Node.eval_join]
    exact isTotal_all_trees (ih hfits hcalls _)
  | call gap callee opening arguments behind ih => cases hcalls
  | stepBefore gap operator inside x => exact fun b => hitem rfl (A.isTotal_update operator x _)
  | stepBehind gap x inside operator => exact fun b => hitem rfl (A.isTotal_update operator x _)
  | sign gap operator operand ih =>
    intro b
    simp only [fits, Bool.and_eq_true, beq_iff_eq] at hfits
    have hoperand : operand.isItem = true := isItem_of_tightness (by omega)
    refine hitem rfl ?_
    rw [tree_sign hoperand]
    exact Run.isTotal_bind (hof hoperand (ih hfits.1.2 hcalls _)) (fun v => Run.isTotal_pure _)
  | binary left gap operator right ihl ihr =>
    intro b
    simp only [fits, Bool.and_eq_true, decide_eq_true_eq, contains_iff_mem] at hfits
    simp only [callsNothing, Bool.and_eq_true] at hcalls
    obtain ⟨⟨⟨⟨⟨hop, hleft⟩, hright⟩, hpull⟩, hhold⟩, -⟩ := hfits
    have hleftItem := isItem_of_tightness (pos_of_pull_le hop hpull)
    have hrightItem := isItem_of_tightness (Nat.lt_of_le_of_lt (Nat.zero_le _) hhold)
    refine hitem rfl ?_
    rw [tree_binary hleftItem hrightItem]
    exact Run.isTotal_bind (hof hleftItem (ihl hleft hcalls.1 _)) (fun v =>
      Run.isTotal_bind (hof hrightItem (ihr hright hcalls.2 _)) (fun w => Run.isTotal_pure _))
  | assign gap x inside operator value ih =>
    intro b
    simp only [fits, Bool.and_eq_true] at hfits
    refine hitem rfl ?_
    rw [tree_assign hfits.2]
    exact A.isTotal_assign operator x (hof hfits.2 (ih hfits.1.2 hcalls _))
  | comma first gap rest ihf ihr =>
    intro b run hrun
    simp only [fits, Bool.and_eq_true] at hfits
    simp only [callsNothing, Bool.and_eq_true] at hcalls
    rw [trees, Node.evalAll_append] at hrun
    rcases mem_append.1 hrun with hrun | hrun
    · exact ihf hfits.1.1 hcalls.1 _ run hrun
    · exact ihr hfits.2 hcalls.2 _ run hrun

lemma evalAll_trees_congr (e : Phrase) : ∀ b, (∀ c ∈ e.calls number b, c.use.kind ≠ .updated false) →
    evalAll A (fun x => (number x).isSome) (e.trees b) = evalAll A (fun _ => false) (e.trees b) := by
  induction e with
  | name gap x => exact fun _ _ => rfl
  | numeral gap text bits => exact fun _ _ => rfl
  | paren gap inner behind ih =>
    intro b h
    have hjoin : ∀ span d, evalAll A (fun x => (number x).isSome) (inner.trees d) = evalAll A (fun _ => false) (inner.trees d) →
        (join span (inner.trees d)).eval A (fun x => (number x).isSome) = (join span (inner.trees d)).eval A (fun _ => false) := by
      intro span d heq
      rw [Node.eval_join, Node.eval_join, heq]
    refine congrArg (fun run => [run]) (Node.eval_congr ?_ (fun _ _ h => nomatch h))
    exact congrArg (fun run => [run]) (hjoin _ _ (ih _ h))
  | call gap callee opening arguments behind ih =>
    intro b h
    refine congrArg (fun run => [run]) (Node.eval_congr ?_ (fun _ _ h => nomatch h))
    exact congrArg (Run.read callee :: ·) (ih _ h)
  | stepBefore gap operator inside x => exact fun _ _ => rfl
  | stepBehind gap x inside operator =>
    intro b h
    refine congrArg (fun run => [run]) (Node.eval_congr rfl (fun _ y _ hy => ?_))
    cases hy
    cases hx : number x with
    | none => rfl
    | some k =>
      have hcall : callAt number (.updated false) x ((stepBehind gap x inside operator).span b) = some ⟨k, _⟩ :=
        congrArg (Option.map _) hx
      exact absurd rfl (h _ (Option.mem_toList.2 hcall))
  | sign gap operator operand ih =>
    intro b h
    exact congrArg (fun run => [run]) (Node.eval_congr (ih _ h) (fun _ _ h => nomatch h))
  | binary left gap operator right ihl ihr =>
    intro b h
    refine congrArg (fun run => [run]) (Node.eval_congr ?_ (fun _ _ h => nomatch h))
    rw [Node.evalAll_append, Node.evalAll_append, ihl _ (fun c hc => h c (mem_append_left _ hc)),
      ihr _ (fun c hc => h c (mem_append_right _ hc))]
  | assign gap x inside operator value ih =>
    intro b h
    refine congrArg (fun run => [run]) (Node.eval_congr ?_ (fun _ _ h => nomatch h))
    exact congrArg (Run.read x :: ·) (ih _ (fun c hc => h c (mem_append_right _ hc)))
  | comma first gap rest ihf ihr =>
    intro b h
    rw [trees, Node.evalAll_append, Node.evalAll_append, ihf _ (fun c hc => h c (mem_append_left _ hc)),
      ihr _ (fun c hc => h c (mem_append_right _ hc))]

lemma eval_program (e : Phrase) (behind : List Char) :
    (e.program behind).root.eval A renewed = Run.all (evalAll A renewed (e.trees 0)) :=
  Node.eval_join (e.span 0) (e.trees 0)

end Script.Phrase

section Snippet

open Invalidation (contextWrites)

variable {V : Type} {e : Phrase} {behind : List Char} {source : String}

/-- **A snippet with its calls comes to the same value and the same store**, if it is a phrase that calls nothing: to those
of the snippet in which updates behind a name of the context give its new value, and so to those of the snippet itself if
it has no such update. -/
theorem eval_instrumentSnippet (A : Arithmetic V) (context : List String) (vars : IndexedSet String) (hfits : e.fits = true)
    (hcalls : e.callsNothing = true) (hsource : source.toList = flat (e.chunks ++ [.finish behind]))
    (hread : AllRead (e.chunks ++ [.finish behind])) :
    ∃ program text vars' program', Script.parseProgram? source = some program ∧
      instrumentSnippet source context vars = .ok (text, vars') ∧ Script.parseProgram? text = some program' ∧
      (∀ store, ∃ value store', program'.root.eval A (fun _ => false) store = some (value, store') ∧
        program.root.eval A context.contains store = some (value, store')) ∧
      ((∀ u ∈ contextWrites (program.root.isolatedUses context), u.kind ≠ .updated false) →
        program'.root.eval A (fun _ => false) = program.root.eval A (fun _ => false)) := by
  obtain ⟨text, vars', program', hparse, hsnippet, hparse', htold⟩ := exists_told context vars hfits hsource hread
  have hrenewed : (fun x => (Invalidation.numbering context vars' x).isSome) = context.contains :=
    funext (Invalidation.isSome_numbering context vars')
  have heval : program'.root.eval A (fun _ => false) = (e.program behind).root.eval A context.contains := by
    rw [← Script.Node.eval_unplaced, htold, Script.Node.eval_unplaced, Script.Node.eval_told, hrenewed]
  refine ⟨e.program behind, text, vars', program', hparse, hsnippet, hparse', fun store => ?_, fun hwrites => ?_⟩
  · have htotal : ((e.program behind).root.eval A context.contains).IsTotal := by
      rw [e.eval_program]
      exact Phrase.isTotal_all_trees (Phrase.isTotal_trees hfits hcalls 0)
    obtain ⟨value, store', h⟩ := htotal store
    exact ⟨value, store', heval ▸ h, h⟩
  · rw [e.contextWrites_program (Invalidation.isSome_numbering context vars')] at hwrites
    have hkinds : ∀ c ∈ e.calls (Invalidation.numbering context vars') 0, c.use.kind ≠ .updated false :=
      fun c hc => hwrites c.use (mem_map_of_mem hc)
    rw [heval, e.eval_program, e.eval_program, ← e.evalAll_trees_congr 0 hkinds, hrenewed]

def Arithmetic.integers : Arithmetic Int where
  numeral bits := bits
  sign operator v := if operator = "-" then -v else v
  combine operator v w := if operator = "-" then v - w else v + w
  numeric v := v
  step operator v := if operator = "--" then v - 1 else v + 1
  isTruthy v := v != 0
  isNullish _ := false

def Script.Phrase.nested : Phrase :=
  .comma (.assign [] "y" [] "=" (.stepBefore [] "++" [] "x")) []
    (.assign [] "z" [] "&&=" (.assign [] "x" [] "-=" (.sign [] "-" (.name [] "y"))))

/-- With its calls the sample comes to what it came to without them. -/
theorem eval_instrumentSnippet_nested : ∃ program text vars' program',
    Script.parseProgram? "y=++x,z&&=x-=-y" = some program ∧
    instrumentSnippet "y=++x,z&&=x-=-y" ["x"] .empty = .ok (text, vars') ∧ Script.parseProgram? text = some program' ∧
    ∀ store, ∃ value store', program'.root.eval .integers (fun _ => false) store = some (value, store') ∧
      program.root.eval .integers (fun _ => false) store = some (value, store') := by
  have hsource : "y=++x,z&&=x-=-y".toList = flat (Phrase.nested.chunks ++ [.finish []]) := by decide +kernel
  have hread : AllRead (Phrase.nested.chunks ++ [.finish []]) := by decide +kernel
  obtain ⟨program, text, vars', program', hparse, hsnippet, hparse', htotal, hsame⟩ :=
    eval_instrumentSnippet .integers ["x"] .empty (by decide +kernel) (by decide +kernel) hsource hread
  have hkinds : (Script.parseProgram? "y=++x,z&&=x-=-y").all (fun p =>
      (contextWrites (p.root.isolatedUses ["x"])).all (fun u => u.kind != .updated false)) = true := by
    decide +kernel
  rw [hparse, Option.all_some, all_eq_true] at hkinds
  refine ⟨program, text, vars', program', hparse, hsnippet, hparse', fun store => ?_⟩
  obtain ⟨value, store', heval, -⟩ := htotal store
  exact ⟨value, store', heval, hsame (fun u hu => bne_iff_ne.1 (hkinds u hu)) ▸ heval⟩

/-- The call around an update behind a variable gives the new value where the update gave the old one. -/
theorem eval_instrumentSnippet_behind : ∃ program text vars' program',
    Script.parseProgram? "y = x++" = some program ∧ instrumentSnippet "y = x++" ["x"] .empty = .ok (text, vars') ∧
    Script.parseProgram? text = some program' ∧
    (program.root.eval .integers (fun _ => false) (fun _ => 0)).map (fun r => r.2 "y") = some 0 ∧
    (program'.root.eval .integers (fun _ => false) (fun _ => 0)).map (fun r => r.2 "y") = some 1 := by
  have h : (Script.parseProgram? "y = x++").map (fun p => (Invalidation.calls .empty (p.root.isolatedUses ["x"]),
      (p.root.eval .integers (fun _ => false) (fun _ => 0)).map (fun r => r.2 "y"))) =
        some ([⟨0, .updated false, "x", .context, 4, 7⟩], some 0) := by decide +kernel
  have h' : (Script.parseProgram? "y = _$i(0, x, (x++, x))").map (fun p =>
      (p.root.eval .integers (fun _ => false) (fun _ => 0)).map (fun r => r.2 "y")) = some (some 1) := by decide +kernel
  obtain ⟨program, hparse, hprogram⟩ := Option.map_eq_some_iff.1 h
  obtain ⟨program', hparse', hprogram'⟩ := Option.map_eq_some_iff.1 h'
  obtain ⟨hcalls, hvalue⟩ := Prod.mk.inj hprogram
  exact ⟨program, "y = _$i(0, x, (x++, x))", _, program', hparse,
    instrumentSnippet_of_sorted hparse hcalls rfl (by decide +kernel) (by decide +kernel), hparse', hvalue, hprogram'⟩

end Snippet
end ReactiveTemplate
