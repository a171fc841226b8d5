import ReactiveTemplate.Proofs.Template.Artifacts
import Mathlib.Data.List.ReduceOption
/-!
# Pushes — where the parts of a template come from

`Traces step c events` is an account of the run of a step: which parts it puts aside, in order, and which inner
templates it compiles, each with its own account.
-/
set_option linter.all false

namespace ReactiveTemplate
open List

open Markup (Tree Element)

variable {α : Type}

/-! ## Cutting takes each part once -/

lemma reduceOption_set_none {a : α} : ∀ {l : List (Option α)} {i : Nat}, l[i]? = some (some a) →
    l.reduceOption.Perm (a :: (l.set i none).reduceOption)
  | x :: l, 0, h => by
    cases h
    exact .refl _
  | x :: l, i + 1, h => by
    have ih := reduceOption_set_none (i := i) h
    cases x with
    | none => exact ih
    | some b => exact (ih.cons b).trans (.swap a b _)

lemma Compiled.subperm_split : ∀ (html : List Char) (pending : List (Option Dynamic)) (skip : Nat) (text : List Char),
    (split pending skip text html).2.Subperm pending.reduceOption
  | [], pending, skip, text => by
    exact nil_subperm
  | c :: cs, pending, skip + 1, text => by
    exact subperm_split cs pending skip text
  | c :: cs, pending, 0, text => by
    rw [split]
    split
    · rename_i number size d hread
      have htaken : pending[number]? = some (some d) := by
        obtain ⟨⟨number', size'⟩, -, hmap⟩ := Option.bind_eq_some_iff.1 hread
        obtain ⟨d', hd', heq⟩ := Option.map_eq_some_iff.1 hmap
        cases heq
        exact Option.join_eq_some_iff.1 hd'
      refine List.Subperm.trans ?_ (reduceOption_set_none htaken).symm.subperm
      exact (subperm_cons d).2 (subperm_split cs _ _ _)
    · exact subperm_split cs pending 0 (c :: text)

namespace Compile

/-! ## Accounts of runs -/

/-- What happens to the parts of a template while a step runs. -/
inductive Event where
  | push (d : Dynamic)
  | within (events : List Event)

def Event.pushed : List Event → List Dynamic
  | [] => []
  | .push d :: events => d :: pushed events
  | .within _ :: events => pushed events

lemma Event.pushed_append : ∀ events events' : List Event, pushed (events ++ events') = pushed events ++ pushed events'
  | [], _ => rfl
  | .push d :: events, events' => congrArg (d :: ·) (pushed_append events events')
  | .within _ :: events, events' => pushed_append events events'

inductive Traces : {α : Type} → Compile α → Compiler → List Event → Prop
  | pure {α : Type} {a : α} {c : Compiler} : Traces (pure a : Compile α) c []
  | throw {α : Type} {d : Diagnostic} {c : Compiler} : Traces (throw d : Compile α) c []
  | get {c : Compiler} : Traces (get : Compile Compiler) c []
  | set {c new : Compiler} : new.dynamics = c.dynamics → Traces (set new : Compile PUnit) c []
  | push {d : Dynamic} {c : Compiler} : Traces (pushDynamic d) c [.push d]
  | bind {α β : Type} {step : Compile α} {next : α → Compile β} {a : α} {c c₁ : Compiler} {events events' : List Event} :
      Traces step c events → step c = (.ok a, c₁) → Traces (next a) c₁ events' → Traces (step >>= next) c (events ++ events')
  | halt {α β : Type} {step : Compile α} {next : α → Compile β} {d : Diagnostic} {c c₁ : Compiler} {events : List Event} :
      Traces step c events → step c = (.error d, c₁) → Traces (step >>= next) c events
  | located {α : Type} {step : Compile α} {position : Position} {c : Compiler} {events : List Event} :
      Traces step c events → Traces (located position step) c events
  | document {compileNode : NodeCompiler} {limit : Option Nat} {nodes : List Tree} {c : Compiler} {events : List Event} :
      Traces (nodes.mapM (compileNode limit false)) { c with dynamics := [] } events →
      Traces (document compileNode limit nodes) c [.within events]

lemma Traces.dynamics {step : Compile α} {c : Compiler} {events : List Event} (h : Traces step c events) :
    (step c).2.dynamics = c.dynamics ++ Event.pushed events := by
  induction h with
  | pure => exact (append_nil _).symm
  | throw => exact (append_nil _).symm
  | get => exact (append_nil _).symm
  | set h => exact h.trans (append_nil _).symm
  | push => rfl
  | bind _ hstep _ ih ih' =>
    rw [hstep] at ih
    rw [bind_apply, hstep, ih', ih, Event.pushed_append, append_assoc]
  | halt _ hstep ih =>
    rw [hstep] at ih
    rw [bind_apply, hstep]
    exact ih
  | located _ ih => exact ih
  | document _ ih => exact (append_nil _).symm

def Traced {α : Type} (step : Compile α) : Prop := ∀ c, ∃ events, Traces step c events

lemma Traced.bind {β : Type} {step : Compile α} {next : α → Compile β} (h : Traced step)
    (hnext : ∀ a, Traced (next a)) : Traced (step >>= next) := by
  intro c
  obtain ⟨events, hevents⟩ := h c
  rcases hstep : step c with ⟨result, c₁⟩
  cases result with
  | ok a =>
    obtain ⟨events', hevents'⟩ := hnext a c₁
    exact ⟨events ++ events', .bind hevents hstep hevents'⟩
  | error d => exact ⟨events, .halt hevents hstep⟩

lemma Traced.read {next : Compiler → Compile α} (h : ∀ c, ∃ events, Traces (next c) c events) :
    Traced (get >>= next) := by
  intro c
  obtain ⟨events, hevents⟩ := h c
  exact ⟨_, .bind .get rfl hevents⟩

lemma Traced.update (new : Compiler → Compiler) (h : ∀ c, (new c).dynamics = c.dynamics)
    {next : Compiler → Compile α} (hnext : ∀ c, Traced (next c)) : Traced (do let c ← get; set (new c); next c) := by
  refine .read (fun c => ?_)
  obtain ⟨events, hevents⟩ := hnext c (new c)
  exact ⟨_, .bind (.set (h c)) rfl hevents⟩

lemma traced : Closed Traced where
  pure _ _ := ⟨[], .pure⟩
  throw _ _ := ⟨[], .throw⟩
  bind := .bind
  get _ := ⟨[], .get⟩
  located _ h c := by
    obtain ⟨events, hevents⟩ := h c
    exact ⟨events, .located hevents⟩
  pushDynamic d _ := ⟨[.push d], .push⟩
  scanText s := .update (fun c => { c with sequence := (scan s c.sequence).2 }) (fun _ => rfl) (fun _ _ => ⟨[], .pure⟩)
  nextHash h := .update (fun c => { c with sequence := c.sequence.nextHash.2 }) (fun _ => rfl) h
  note entry _ h := .update (fun c => { c with log := c.log ++ [entry] }) (fun _ => rfl) (fun _ => h)
  register e position children _ h := by
    refine .read (fun c => ?_)
    cases Component.build c.options.file c.sequence c.assetOf e position children with
    | error d => exact ⟨_, .halt .throw rfl⟩
    | ok built =>
      obtain ⟨events, hevents⟩ := h built (c.register built.output built.assets)
      exact ⟨_, .bind .pure rfl (.bind (.set rfl) rfl hevents)⟩
  document h c := by
    obtain ⟨events, hevents⟩ := h { c with dynamics := [] }
    exact ⟨[.within events], .document hevents⟩

/-- **An inner template does not leak.**  Whatever the directives do, and whether they fail or not, the parts put aside are
afterwards what they were before; and the parts of the template are among those that the account of this very run puts
aside outside of any further template, each as often at most.  What was put aside before does not matter. -/
theorem document_pushed (n : Nat) (limit : Option Nat) (nodes : List Tree) (c : Compiler) :
    (document (node n) limit nodes c).2.dynamics = c.dynamics ∧
      (∃ events, Traces (document (node n) limit nodes) c [.within events] ∧
        ∀ compiled, (document (node n) limit nodes c).1 = .ok compiled →
          compiled.dynamics.Subperm (Event.pushed events)) ∧
      ∀ ds, (document (node n) limit nodes { c with dynamics := ds }).1 = (document (node n) limit nodes c).1 := by
  obtain ⟨events, hevents⟩ := traced.mapM (traced.node n limit false) nodes { c with dynamics := [] }
  have hdocument : Traces (document (node n) limit nodes) c [.within events] := .document hevents
  refine ⟨hdocument.dynamics.trans (append_nil _), ⟨events, hdocument, fun compiled h => ?_⟩, fun ds => rfl⟩
  obtain ⟨ts, c₁, hnodes, rfl, -⟩ := gives_document (Prod.ext h rfl : Gives _ c compiled _)
  have hparts := hevents.dynamics
  rw [hnodes, nil_append] at hparts
  have hall : (c₁.dynamics.map some).reduceOption = Event.pushed events := by
    rw [List.reduceOption, filterMap_map, Function.id_comp, filterMap_some]
    exact hparts
  rw [← hall]
  exact Compiled.subperm_split _ _ _ _

end Compile
end ReactiveTemplate
