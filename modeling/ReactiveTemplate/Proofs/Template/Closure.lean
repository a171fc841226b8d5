import Mathlib.Tactic.Lemma
import ReactiveTemplate.Template.Compiler
/-!
# Closure — what compile functions hand down

A property of steps that has the few kinds of steps the compiler is put together from, and goes over to steps that run
one after the other (`Closed`), has every compile function (`Closed.node`).
-/
set_option linter.all false

namespace ReactiveTemplate.Compile

open Markup (Tree Element)

/-- A property that steps have if the steps have it that they are put together from. -/
structure Closed (P : {α : Type} → Compile α → Prop) : Prop where
  pure {α : Type} (a : α) : P (pure a : Compile α)
  throw {α : Type} (d : Diagnostic) : P (throw d : Compile α)
  bind {α β : Type} {step : Compile α} {next : α → Compile β} : P step → (∀ a, P (next a)) → P (step >>= next)
  get : P (get : Compile Compiler)
  located {α : Type} {step : Compile α} (position : Position) : P step → P (located position step)
  pushDynamic (d : Dynamic) : P (pushDynamic d)
  scanText (s : String) : P (scanText s)
  nextHash {α : Type} {next : Compiler → Compile α} : (∀ c, P (next c)) →
    P (do let c ← MonadState.get; set { c with sequence := c.sequence.nextHash.2 }; next c)
  note {α : Type} (entry : LogEntry) {next : Compile α} : P next →
    P (do modify (fun c => { c with log := c.log ++ [entry] }); next)
  register {α : Type} (e : Element) (position : Position) (children : List Tree) {next : Component.Built → Compile α} :
    (∀ built, P (next built)) →
    P (do
      let c ← MonadState.get
      let built ← liftM (Component.build c.options.file c.sequence c.assetOf e position children)
      set (c.register built.output built.assets)
      next built)
  document {compileNode : NodeCompiler} {limit : Option Nat} {nodes : List Tree} :
    P (nodes.mapM (compileNode limit false)) → P (document compileNode limit nodes)

namespace Closed

variable {P : {α : Type} → Compile α → Prop} (hP : Closed P) {α β : Type}

include hP

lemma mapM {f : α → Compile β} (h : ∀ a, P (f a)) : ∀ as : List α, P (as.mapM f)
  | [] => hP.pure []
  | a :: as => by
    rw [List.mapM_cons]
    exact hP.bind (h a) (fun b => hP.bind (mapM h as) (fun bs => hP.pure (b :: bs)))

lemma foldlM {f : β → α → Compile β} (h : ∀ b a, P (f b a)) : ∀ (as : List α) (b : β), P (as.foldlM f b)
  | [], b => hP.pure b
  | a :: as, b => by
    rw [List.foldlM_cons]
    exact hP.bind (h b a) (fun b' => foldlM h as b')

lemma orFault (result : Except Fault α) : P (orFault result) := by
  cases result with
  | ok a => exact hP.pure a
  | error fault => exact hP.throw _

lemma textPiece (piece : Piece) : P (textPiece piece) := by
  cases piece with
  | literal literal => exact hP.pure _
  | expression found => exact hP.bind (hP.orFault _) (fun _ => hP.pushDynamic _)

lemma text (position : Position) (s : String) : P (text position s) :=
  hP.bind (hP.scanText s) (fun pieces =>
    hP.bind (hP.located position (hP.mapM hP.textPiece pieces)) (fun _ => hP.pure _))

lemma valuePiece (piece : Piece) : P (valuePiece piece) := by
  cases piece with
  | literal literal => exact hP.pure _
  | expression found => exact hP.bind (hP.orFault _) (fun _ => hP.pure _)

lemma condition (source : String) : P (condition source) := hP.bind (hP.orFault _) (fun _ => hP.pure _)

variable {compileNode : NodeCompiler} (hnode : ∀ limit isVerbatim t, P (compileNode limit isVerbatim t))

include hnode

lemma children (t : Tree) : P (children compileNode t) :=
  hP.bind (hP.mapM (hnode none _) t.children) (fun _ => hP.pure _)

lemma template (limit : Option Nat) (nodes : List Tree) : P (Compile.document compileNode limit nodes) :=
  hP.document (hP.mapM (hnode limit false) nodes)

lemma nest (t : Tree) : P (nest compileNode t) :=
  hP.bind (hP.template hnode none t.children) (fun _ => hP.bind (hP.pushDynamic _) (fun _ => hP.pure _))

lemma steps : ∀ (items : List CompileStep) (t : Tree), P (steps compileNode t items)
  | [], _ => hP.pure _
  | .set _ _ :: rest, _ => steps rest _
  | .remove _ :: rest, _ => steps rest _
  | .addClass _ :: rest, _ => steps rest _
  | .appendText _ :: rest, _ => steps rest _
  | .hash _ :: rest, _ => hP.nextHash (fun _ => steps rest _)
  | .file _ :: rest, _ => hP.bind hP.get (fun _ => steps rest _)
  | .children :: rest, t => hP.bind (hP.children hnode t) (fun t => steps rest t)
  | .nest :: rest, t => hP.bind (hP.nest hnode t) (fun t => steps rest t)
  | .fail _ _ :: _, _ => hP.throw _
  | .methods _ _ :: _, _ => hP.pure _

lemma component (t : Tree) : P (component compileNode t) := by
  unfold Compile.component
  split
  · exact hP.register _ _ _ (fun _ => hP.bind (hP.nest hnode _) (fun _ => hP.pure _))
  · exact hP.pure _

lemma behave (a : Option Markup.Attribute) (t : Tree) (b : Behaviour) : P (behave compileNode a t b) := by
  cases b with
  | conditionElement => exact hP.bind (hP.condition _) (fun _ => hP.pure _)
  | conditionAttribute => exact hP.bind (hP.condition _) (fun _ => hP.pure _)
  | component => exact hP.component hnode t
  | interpolation =>
    cases a with
    | none => exact hP.pure _
    | some a =>
      exact hP.bind (hP.scanText _) (fun pieces => hP.bind (hP.mapM hP.valuePiece pieces) (fun _ => hP.pure _))
  | custom label items => exact hP.note _ (hP.steps hnode items t)

lemma takeSlot (w : Work) (entry : String × String) : P (takeSlot compileNode w entry) :=
  hP.bind (hP.template hnode none _) (fun _ => hP.pure _)

lemma transclude (d : Directive) (w : Work) : P (transclude compileNode d w) := by
  unfold Compile.transclude
  split
  · exact hP.pure _
  · exact hP.bind (hP.template hnode _ _) (fun _ => hP.pure _)
  · exact hP.bind (hP.template hnode _ _) (fun _ => hP.pure _)
  · exact hP.bind (hP.foldlM (hP.takeSlot hnode) _ w)
      (fun w => hP.bind (hP.template hnode _ _) (fun _ => hP.pure _))

lemma apply (w : Work) (k : Candidate) : P (apply compileNode w k) := by
  refine hP.bind (hP.located _ ?_) (fun outcome => hP.bind (hP.transclude hnode _ _) (fun _ => hP.pure _))
  split
  · exact hP.behave hnode _ _ _
  · exact hP.pure _

omit hnode in
lemma settle (w : Work) : P (settle w) := by
  unfold Compile.settle
  split
  · exact hP.bind (hP.pushDynamic _) (fun _ => hP.pure _)
  · split
    · exact hP.pure _
    · exact hP.bind (hP.pushDynamic _) (fun _ => hP.pure _)

lemma element (limit : Option Nat) (t : Tree) (e : Element) : P (element compileNode limit t e) := by
  refine hP.bind hP.get (fun c => hP.bind (hP.foldlM (hP.apply hnode) _ _) (fun w =>
    hP.bind (hP.settle w) (fun settled => ?_)))
  split
  · exact hP.pure _
  · exact hP.children hnode settled

omit hnode in
lemma node : ∀ (fuel : Nat) (limit : Option Nat) (isVerbatim : Bool) (t : Tree), P (node fuel limit isVerbatim t)
  | 0, _, _, t => hP.pure t
  | fuel + 1, limit, isVerbatim, t => by
    show P (nodeWith (Compile.node fuel) limit isVerbatim t)
    unfold nodeWith
    split
    · exact hP.element (node fuel) limit t _
    · split
      · exact hP.text _ _
      · exact hP.pure t
    · exact hP.children (node fuel) t
    · exact hP.pure t

end Closed
end ReactiveTemplate.Compile
