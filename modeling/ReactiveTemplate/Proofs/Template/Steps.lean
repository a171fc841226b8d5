import Mathlib.Tactic.Lemma
import ReactiveTemplate.Template.Compiler
/-!
# Steps — what a compile step that succeeds has done

`Gives step c a c'` says that a step, run on a compiler `c`, succeeds with `a` and leaves the compiler `c'`.
-/
set_option linter.all false

namespace ReactiveTemplate.Compile
open List

open Markup (Tree)

def Gives {α : Type} (step : Compile α) (c : Compiler) (a : α) (c' : Compiler) : Prop :=
  step c = (.ok a, c')

section

variable {α β : Type} {c c' : Compiler}

lemma gives_of_eq {step : Compile α} {a b : α} {c₁ : Compiler} (heq : step c = (.ok a, c₁)) (h : Gives step c b c') :
    b = a ∧ c' = c₁ := by
  cases heq.symm.trans h
  exact ⟨rfl, rfl⟩

lemma gives_pure {a b : α} (h : Gives (pure a) c b c') : b = a ∧ c' = c := gives_of_eq rfl h

lemma bind_apply (step : Compile α) (next : α → Compile β) (c : Compiler) :
    (step >>= next) c = (match step c with
      | (.ok a, c₁) => next a c₁
      | (.error d, c₁) => (.error d, c₁)) := by
  simp only [bind, ExceptT.bind, ExceptT.mk, StateT.bind]
  rcases step c with ⟨result, c₁⟩
  cases result <;> rfl

lemma gives_bind {step : Compile α} {next : α → Compile β} {b : β} (h : Gives (step >>= next) c b c') :
    ∃ a c₁, Gives step c a c₁ ∧ Gives (next a) c₁ b c' := by
  rw [Gives, bind_apply] at h
  rcases hstep : step c with ⟨result, c₁⟩
  rw [hstep] at h
  cases result with
  | ok a => exact ⟨a, c₁, hstep, h⟩
  | error d => cases h

lemma gives_get {a : Compiler} (h : Gives (get : Compile Compiler) c a c') : a = c ∧ c' = c := gives_of_eq rfl h

lemma gives_orFault {result : Except Fault α} {a : α} (h : Gives (orFault result) c a c') :
    result = .ok a ∧ c' = c := by
  cases result with
  | ok a' =>
    obtain ⟨rfl, rfl⟩ := gives_pure h
    exact ⟨rfl, rfl⟩
  | error fault => cases h

lemma gives_located {position : Position} {step : Compile α} {a : α} (h : Gives (located position step) c a c') :
    Gives step c a c' := by
  unfold Gives located at *
  rcases hstep : step c with ⟨result, c₁⟩
  rw [hstep] at h
  cases result with
  | ok a' => exact h
  | error d => cases h

/-! ## Lists of steps -/

lemma gives_mapM_nil {f : α → Compile β} {bs : List β} (h : Gives ([].mapM f) c bs c') : bs = [] ∧ c' = c :=
  gives_of_eq rfl h

lemma gives_mapM_cons {f : α → Compile β} {a : α} {as : List α} {bs : List β} (h : Gives ((a :: as).mapM f) c bs c') :
    ∃ b c₁ bs', Gives (f a) c b c₁ ∧ Gives (as.mapM f) c₁ bs' c' ∧ bs = b :: bs' := by
  rw [mapM_cons] at h
  obtain ⟨b, c₁, h1, h2⟩ := gives_bind h
  obtain ⟨bs', c₂, h3, h4⟩ := gives_bind h2
  obtain ⟨rfl, rfl⟩ := gives_pure h4
  exact ⟨b, c₁, bs', h1, h3, rfl⟩

lemma gives_foldlM_nil {f : β → α → Compile β} {b b' : β} (h : Gives (foldlM f b []) c b' c') : b' = b ∧ c' = c :=
  gives_of_eq rfl h

lemma gives_foldlM_cons {f : β → α → Compile β} {b b' : β} {a : α} {as : List α}
    (h : Gives (foldlM f b (a :: as)) c b' c') : ∃ b₁ c₁, Gives (f b a) c b₁ c₁ ∧ Gives (foldlM f b₁ as) c₁ b' c' :=
  gives_bind h

/-! ## The compiler's own steps -/

lemma gives_pushDynamic {d : Dynamic} {token : String} (h : Gives (pushDynamic d) c token c') :
    token = dynamicToken c.dynamics.length ∧ c' = { c with dynamics := c.dynamics ++ [d] } := by
  have heq : pushDynamic d c = (.ok (dynamicToken c.dynamics.length), { c with dynamics := c.dynamics ++ [d] }) := rfl
  exact gives_of_eq heq h

lemma gives_scanText {s : String} {pieces : List Piece} (h : Gives (scanText s) c pieces c') :
    pieces = (scan s c.sequence).1.parts ∧ c' = { c with sequence := (scan s c.sequence).2 } :=
  gives_of_eq rfl h

lemma gives_document {compileNode : NodeCompiler} {limit : Option Nat} {nodes : List Tree} {compiled : Compiled}
    (h : Gives (document compileNode limit nodes) c compiled c') :
    ∃ ts c₁, Gives (nodes.mapM (compileNode limit false)) { c with dynamics := [] } ts c₁ ∧
      compiled = Compiled.ofHtml (Tree.document ts).render c₁.dynamics ∧ c' = { c₁ with dynamics := c.dynamics } := by
  simp only [Gives, document] at h
  rcases hnodes : (nodes.mapM (compileNode limit false)).run { c with dynamics := [] } with ⟨result, c₁⟩
  rw [hnodes] at h
  cases result with
  | ok ts =>
    cases h
    exact ⟨ts, c₁, hnodes, rfl, rfl⟩
  | error d => cases h

end
end ReactiveTemplate.Compile
