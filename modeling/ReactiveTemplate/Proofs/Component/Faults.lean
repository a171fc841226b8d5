import Mathlib.Tactic.Lemma
import ReactiveTemplate.Component.Build
/-!
# Faults — what a template is refused for

A template is refused for something that it says itself.
-/
set_option linter.all false

namespace ReactiveTemplate

namespace Fault

def isOfTemplate : Fault → Bool
  | cycle _ _ _ _ | assetCycle _ _ _ _ | assetDependency _ _ | templateMissing _ _ | templateUnreadable _ | custom _ _ =>
    false
  | _ => true

def InTemplate {α : Type} (x : Except Fault α) : Prop := ∀ fault, x = .error fault → fault.isOfTemplate = true

namespace InTemplate

variable {α β : Type}

lemma ok (a : α) : InTemplate (.ok a) := nofun

lemma error {fault : Fault} (h : fault.isOfTemplate = true) : InTemplate (.error fault : Except Fault α) :=
  fun _ heq => Except.error.inj heq ▸ h

lemma map {x : Except Fault α} (h : InTemplate x) (f : α → β) : InTemplate (x.map f) := by
  cases x with
  | ok a => exact ok _
  | error fault => exact error (h fault rfl)

lemma bind {x : Except Fault α} {next : α → Except Fault β} (h : InTemplate x) (hnext : ∀ a, InTemplate (next a)) :
    InTemplate (x >>= next) := by
  cases x with
  | ok a => exact hnext a
  | error fault => exact error (h fault rfl)

lemma foldlM {f : β → α → Except Fault β} (h : ∀ b a, InTemplate (f b a)) : ∀ (as : List α) (b : β),
    InTemplate (as.foldlM f b)
  | [], b => ok b
  | a :: as, b => by
    exact (h b a).bind (fun b' => foldlM h as b')

lemma mapM {f : α → Except Fault β} (h : ∀ a, InTemplate (f a)) : ∀ as : List α, InTemplate (as.mapM f)
  | [] => ok []
  | a :: as => by
    rw [List.mapM_cons]
    exact (h a).bind (fun b => (mapM h as).bind (fun bs => ok (b :: bs)))

end InTemplate
end Fault

open Fault (InTemplate)

/-! ## Expressions and scripts -/

lemma inTemplate_summary (source : String) : InTemplate (Summary.ofSource source) := by
  unfold Summary.ofSource
  simp only
  split
  · exact .ok _
  · exact .error rfl

lemma inTemplate_refuseWrites (s : Summary) : InTemplate s.refuseWrites := by
  unfold Summary.refuseWrites
  split
  · exact .error rfl
  · exact .ok ()

lemma inTemplate_eval (source : String) : InTemplate (Eval.ofSource source) := by
  refine (inTemplate_summary source).bind (fun summary => (inTemplate_refuseWrites summary).bind (fun _ => ?_))
  cases summary.eval with
  | ok e => exact .ok e
  | error reason => exact .error rfl

lemma inTemplate_refuseEffects (c : Context) (s : Summary) : InTemplate (c.refuseEffects s) := by
  unfold Context.refuseEffects
  split
  · exact .error rfl
  · split
    · exact .error rfl
    · exact .ok ()

lemma inTemplate_instrumentSnippet (source : String) (context : List String) (vars : IndexedSet String) :
    InTemplate (instrumentSnippet source context vars) := by
  unfold instrumentSnippet
  split
  · exact .error rfl
  · exact .ok _

lemma inTemplate_instrumentScript (source : String) (context : List String) (vars : IndexedSet String) :
    InTemplate (instrumentScript source context vars) := by
  unfold instrumentScript
  split
  · exact .error rfl
  · exact .ok _

namespace Handler

lemma inTemplate_standardFunction (source : String) : InTemplate (standardFunction source) := by
  unfold standardFunction
  simp only
  split
  · exact .error rfl
  · exact .ok _

lemma inTemplate_ofShape (context : Context) (source : String) (shape : Shape) :
    InTemplate (ofShape context source shape) := by
  cases shape with
  | function =>
    rw [ofShape]
    exact (inTemplate_standardFunction source).map _
  | _ =>
    exact .ok _

lemma inTemplate_wrap (context : Context) (source : String) : InTemplate (wrap context source) := by
  unfold wrap
  have hsummary := inTemplate_summary source
  split
  · exact inTemplate_ofShape context source _
  · rename_i fault heq
    split
    · exact .ok _
    · exact .error (hsummary fault heq)

lemma inTemplate_ofValue (context : Context) (vars : IndexedSet String) (value : String) :
    InTemplate (ofValue context vars value) := by
  unfold ofValue
  simp only
  split
  · exact .ok _
  · exact (inTemplate_wrap context _).bind (fun _ => inTemplate_instrumentSnippet _ _ _)

end Handler

/-! ## Components -/

namespace Component

lemma inTemplate_read (name value : String) (isClient : Bool) : InTemplate (Param.read name value isClient) := by
  unfold Param.read
  simp only
  split
  · exact .ok _
  · split
    · exact .ok _
    · exact .error rfl

lemma inTemplate_add (ps : Params) (a : Markup.Attribute) : InTemplate (ps.add a) := by
  unfold Params.add
  split
  · simp only
    split
    · exact (inTemplate_read _ _ _).map _
    · exact .error rfl
  · split
    · exact (inTemplate_read _ _ _).map _
    · exact .ok _

lemma inTemplate_resolve (server : List Param) (p : Param) : InTemplate (p.resolve server) := by
  unfold Param.resolve
  split
  · exact .ok _
  · split
    · exact .ok _
    · exact .error rfl

lemma inTemplate_checkHost (e : Markup.Element) : InTemplate (checkHost e) := by
  unfold checkHost
  simp only
  split
  · exact .error rfl
  · exact .ok ()

lemma inTemplate_head (e : Markup.Element) : InTemplate (Head.ofElement e) := by
  unfold Head.ofElement
  split
  · exact .error rfl
  · have hparams : InTemplate (Params.ofElement e) :=
      (Fault.InTemplate.foldlM inTemplate_add _ _).bind (fun ps =>
        (Fault.InTemplate.mapM (inTemplate_resolve ps.server) _).bind (fun _ => .ok _))
    exact hparams.bind (fun _ => (inTemplate_checkHost e).bind (fun _ => .ok _))

lemma inTemplate_checkCollision (references : List String) (params : Params) :
    InTemplate (checkCollision references params) := by
  unfold checkCollision
  split
  · exact .error rfl
  · exact .ok ()

lemma inTemplate_hooksOf (script : String) (injected : List String) : InTemplate (hooksOf script injected) := by
  unfold hooksOf
  split
  · exact .error rfl
  · simp only
    split
    · exact .error rfl
    · exact .ok _

lemma inTemplate_analyse (source : String) (injected : List String) : InTemplate (analyse source injected) := by
  unfold analyse
  split
  · exact .error rfl
  · exact (inTemplate_instrumentScript _ _ _).bind (fun _ => .ok _)

end Component
end ReactiveTemplate
