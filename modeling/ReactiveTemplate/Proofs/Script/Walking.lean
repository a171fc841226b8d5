import Mathlib.Tactic.Lemma
import ReactiveTemplate.Script.Scope
/-!
# Walking — a walk leaves its scopes as it found them

A walk leaves every scope that it enters (`walk_eq`), so a part of a node is walked as if it stood alone in the scopes
around it (`uses_node`, `usesOf_cons`).
-/
namespace ReactiveTemplate.Script
open List

variable {context : List String} {scopes : List (List String)}

def ownUse (context : List String) (scopes : List (List String)) (use : Option (UseKind × String)) (span : Span) :
    List Use :=
  (use.map (fun (kind, name) => (⟨kind, name, reachOf context scopes name, span⟩ : Use))).toList

lemma Walk.note_eq (w : Walk) (use : Option (UseKind × String)) (span : Span) :
    w.note context use span = ⟨w.scopes, w.found ++ ownUse context w.scopes use span⟩ := by
  cases use with
  | none => exact congrArg (Walk.mk w.scopes) (append_nil _).symm
  | some use => rfl

namespace Node

/-- The uses of names in the parts of a node, the first of which is walked in a way of its own. -/
def usesOf (context : List String) (scopes : List (List String)) (first others : Visit) (parts : List Node) : List Use :=
  (walkParts context first others parts ⟨scopes, []⟩).found

mutual
theorem walk_eq (context : List String) : ∀ (n : Node) (w : Walk),
    n.walk context w = ⟨w.scopes, w.found ++ n.uses context w.scopes⟩
  | node form span parts, w => by
    unfold uses walk
    simp [Walk.note_eq, walkParts_eq context parts]

theorem walkParts_eq (context : List String) : ∀ (parts : List Node) (first others : Visit) (w : Walk),
    walkParts context first others parts w = ⟨w.scopes, w.found ++ usesOf context w.scopes first others parts⟩
  | [], _, _, w => congrArg (Walk.mk w.scopes) (append_nil _).symm
  | n :: ns, first, others, w => by
    unfold usesOf walkParts
    cases first with
    | skipped => simp only [walkParts_eq context ns, nil_append]
    | inside names =>
      simp [walk_eq context n, walkParts_eq context ns, Walk.enter, Walk.leave]
end

lemma uses_node (context : List String) (scopes : List (List String)) (form : Form) (span : Span) (parts : List Node) :
    uses context scopes (node form span parts) = ownUse context scopes (form.useOf parts) span ++
      usesOf context scopes (form.surrounds parts).1 (form.surrounds parts).2 parts := by
  unfold uses walk
  simp [Walk.note_eq, walkParts_eq, nil_append]

/-- The uses of names in a part of a node, walked alone in the scope that the node opens for it. -/
def usesIn (context : List String) (scopes : List (List String)) (visit : Visit) (part : Node) : List Use :=
  match visit with
  | .skipped => []
  | .inside names => part.uses context (names :: scopes)

lemma usesOf_cons (first others : Visit) (n : Node) (ns : List Node) :
    usesOf context scopes first others (n :: ns) =
      n.usesIn context scopes first ++ usesOf context scopes others others ns := by
  cases first with
  | skipped =>
    rfl
  | inside names =>
    rw [usesOf, walkParts, walkParts_eq, walk_eq]
    rfl

lemma walkIsolated_eq (context : List String) (n : Node) (w : Walk) :
    n.walkIsolated context w = ⟨w.scopes, w.found ++ n.uses context (scopeNames n.statements :: w.scopes)⟩ := by
  rw [walkIsolated, walk_eq]
  rfl

lemma isolatedUses_eq (context : List String) (n : Node) :
    n.isolatedUses context = n.uses context [scopeNames n.statements] := rfl

end Node
end ReactiveTemplate.Script
