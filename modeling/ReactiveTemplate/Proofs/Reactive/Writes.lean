import ReactiveTemplate.Proofs.Characters
import ReactiveTemplate.Proofs.Reactive.Calls
import ReactiveTemplate.Proofs.Script.Scoping
/-!
# Writes — which writes of a script are wrapped

A write gets a call exactly if its target is a name of the context that no scope seen around it has: where the name is
not misread, if nothing in the script binds it (`instrumentScript_wraps`).
-/
set_option linter.all false

namespace ReactiveTemplate
open List

open Script (Node Use)

namespace Script.Node

lemma isWrite_iff_written? {n : Node} {u : Use} (h : n.form.useOf n.parts = some (u.kind, u.name)) :
    u.isWrite = true ↔ n.written? = some u.name := by
  obtain ⟨form, span, parts⟩ := n
  obtain ⟨kind, x, reach, place⟩ := u
  simp only [Node.form, Node.parts] at h
  unfold Use.isWrite written?
  simp only [Node.form, Node.parts]
  unfold Form.useOf at h
  split at h
  · cases h
    simp
  · obtain ⟨x, hx, heq⟩ := Option.map_eq_some_iff.1 h
    cases heq
    simp [hx]
  · obtain ⟨x, hx, heq⟩ := Option.map_eq_some_iff.1 h
    cases heq
    simp [hx]
  · obtain ⟨x, hx, heq⟩ := Option.map_eq_some_iff.1 h
    cases heq
    simp
  · cases h

lemma useOf_of_written? {n : Node} {x : String} (h : n.written? = some x) :
    ∃ kind, n.form.useOf n.parts = some (kind, x) := by
  obtain ⟨form, span, parts⟩ := n
  unfold written? at h
  simp only [Node.form] at h ⊢
  split at h
  · cases parts with
    | nil => cases h
    | cons target others => exact ⟨.assigned, Option.map_eq_some_iff.2 ⟨x, h, rfl⟩⟩
  · cases parts with
    | nil => cases h
    | cons target others => exact ⟨_, Option.map_eq_some_iff.2 ⟨x, h, rfl⟩⟩
  · cases h

lemma writes_of_written? {n : Node} {x : String} (h : n.written? = some x) : n.writes = [x] := by
  obtain ⟨form, span, parts⟩ := n
  have hfirst : parts.head?.bind identifier? = some x → firstTargetNames parts = [x] := by
    intro hx
    cases parts with
    | nil => cases hx
    | cons target others =>
      obtain ⟨form, span, parts⟩ := target
      simp only [head?_cons, Option.bind_some, identifier?, Node.form] at hx
      split at hx
      · cases hx
        simp [firstTargetNames, targetNames]
      · cases hx
  unfold written? at h
  simp only [Node.form] at h ⊢
  split at h
  · exact hfirst h
  · exact hfirst h
  · cases h

end Script.Node

namespace Invalidation

def placedWrites (context : List String) (n : Node) : List (List Nat × Use) :=
  (n.placed context []).filter (fun p => isContextWrite p.2)

lemma map_snd_placedWrites (context : List String) (n : Node) :
    (placedWrites context n).map (·.2) = contextWrites (n.contextUses context) := by
  unfold placedWrites contextWrites Node.contextUses
  rw [← Node.map_snd_placed, filter_map]
  rfl

lemma nodup_placedWrites (context : List String) (n : Node) : ((placedWrites context n).map (·.1)).Nodup :=
  (n.nodup_placed context []).sublist (List.Sublist.map _ filter_sublist)

variable {n : Node} {path : List Nat} {u : Use}

lemma mem_placedWrites {context : List String} :
    (path, u) ∈ placedWrites context n ↔ n.UsesAt context [] path u ∧ isContextWrite u = true := by
  rw [placedWrites, mem_filter, Node.mem_placed]

lemma isContextWrite_iff : isContextWrite u = true ↔ u.isWrite = true ∧ u.reach = .context := by
  simp [isContextWrite]

lemma reachOf_eq_context {context : List String} {scopes : List (List String)} {x : String} :
    Script.reachOf context scopes x = .context ↔ scopes.any (·.contains x) = false ∧ x ∈ context := by
  unfold Script.reachOf
  cases scopes.any (·.contains x) <;> by_cases hx : x ∈ context <;> simp [hx]

lemma written_of_mem_placedWrites {context : List String} (h : (path, u) ∈ placedWrites context n) :
    ∃ m, n.at? path = some m ∧ m.written? = some u.name ∧ u.span = m.span ∧ u.name ∈ context := by
  obtain ⟨⟨m, seen, hm, -, huse, hreach, hspan⟩, hwrite⟩ := mem_placedWrites.1 h
  obtain ⟨hisWrite, hcontext⟩ := isContextWrite_iff.1 hwrite
  exact ⟨m, hm, (Node.isWrite_iff_written? huse).1 hisWrite, hspan, (reachOf_eq_context.1 (hreach ▸ hcontext)).2⟩

lemma exists_placedWrite_iff {context : List String} {m : Node} {x : String}
    (hm : n.at? path = some m) (hx : x ∈ m.writes) (hread : n.isMisread x path = false) :
    (∃ u, (path, u) ∈ placedWrites context n) ↔
      m.written? = some x ∧ x ∈ context ∧ n.isBound x path = false := by
  obtain ⟨seen, hseen, hbound⟩ := Node.any_seen_iff hm hread
  constructor
  · rintro ⟨u, hu⟩
    obtain ⟨⟨m', seen', hm', hseen', huse, hreach, -⟩, hwrite⟩ := mem_placedWrites.1 hu
    obtain rfl : m = m' := Option.some.inj (hm.symm.trans hm')
    obtain rfl : seen = seen' := Option.some.inj (hseen.symm.trans hseen')
    obtain ⟨hisWrite, hcontext⟩ := isContextWrite_iff.1 hwrite
    have hwritten := (Node.isWrite_iff_written? huse).1 hisWrite
    rw [Node.writes_of_written? hwritten, mem_singleton] at hx
    obtain ⟨hfree, hmem⟩ := reachOf_eq_context.1 (hreach ▸ hcontext)
    rw [append_nil] at hfree
    exact ⟨hx ▸ hwritten, hx ▸ hmem, by rw [← hbound, hx, hfree]⟩
  · rintro ⟨hwritten, hcontext, hfree⟩
    obtain ⟨kind, huse⟩ := Node.useOf_of_written? hwritten
    refine ⟨⟨kind, x, .context, m.span⟩, mem_placedWrites.2 ⟨⟨m, seen, hm, hseen, huse, ?_, rfl⟩, ?_⟩⟩
    · exact (reachOf_eq_context.2 ⟨by rw [append_nil, hbound, hfree], hcontext⟩).symm
    · exact isContextWrite_iff.2 ⟨(Node.isWrite_iff_written? huse).2 hwritten, rfl⟩

def placedCalls (context : List String) (vars : IndexedSet String) (n : Node) : List (List Nat × Call) :=
  ((placedWrites context n).map (·.1)).zip (calls vars (n.contextUses context))

lemma map_use_placedWrites (context : List String) (vars : IndexedSet String) (n : Node) :
    (calls vars (n.contextUses context)).map (·.use) = (placedWrites context n).map (·.2) :=
  (map_use_calls (n.contextUses context) vars).trans (map_snd_placedWrites context n).symm

lemma length_placedWrites (context : List String) (vars : IndexedSet String) (n : Node) :
    ((placedWrites context n).map (·.1)).length = (calls vars (n.contextUses context)).length := by
  have h := congrArg length (map_use_placedWrites context vars n)
  simpa using h.symm

lemma map_use_placedCalls (context : List String) (vars : IndexedSet String) (n : Node) :
    (placedCalls context vars n).map (Prod.map id (·.use)) = placedWrites context n := by
  unfold placedCalls
  rw [← zip_map_right, map_use_placedWrites]
  exact (zip_of_prod rfl rfl).symm

lemma map_fst_placedCalls (context : List String) (vars : IndexedSet String) (n : Node) :
    (placedCalls context vars n).map (·.1) = (placedWrites context n).map (·.1) :=
  map_fst_zip (Nat.le_of_eq (length_placedWrites context vars n))

lemma map_snd_placedCalls (context : List String) (vars : IndexedSet String) (n : Node) :
    (placedCalls context vars n).map (·.2) = calls vars (n.contextUses context) :=
  map_snd_zip (Nat.le_of_eq (length_placedWrites context vars n).symm)

lemma mem_placedWrites_of_mem_placedCalls {context : List String} {vars : IndexedSet String}
    {c : Call} (h : (path, c) ∈ placedCalls context vars n) : (path, c.use) ∈ placedWrites context n :=
  map_use_placedCalls context vars n ▸ mem_map_of_mem h

lemma exists_mem_placedCalls_iff {context : List String} {vars : IndexedSet String} :
    (∃ c, (path, c) ∈ placedCalls context vars n) ↔ ∃ u, (path, u) ∈ placedWrites context n := by
  have hpaths : path ∈ (placedCalls context vars n).map (·.1) ↔ path ∈ (placedWrites context n).map (·.1) := by
    rw [map_fst_placedCalls]
  simpa using hpaths

end Invalidation

namespace Invalidation.Sample

/-- A script with a write to a parameter, one to a variable of the script, and one through a pattern. -/
def source : String := "let n = 0, m; function f(n) \x7b n = 1; m += n; [m] = [n]; \x7d"

def context : List String := ["n", "m", "f"]

/-- A path that leads to a write of a name that is not misread: whether it is a write by name, and whether the name is
bound on the way. -/
structure Place where
  path : List Nat
  name : String
  isByName : Bool
  isBound : Bool

def places : List Place := [⟨[1, 2, 0, 0], "n", true, true⟩, ⟨[1, 2, 1, 0], "m", true, false⟩, ⟨[1, 2, 2, 0], "m", false, false⟩]

def Place.In (p : Place) (root : Node) : Prop :=
  ∃ m, root.at? p.path = some m ∧ p.name ∈ m.writes ∧ decide (m.written? = some p.name) = p.isByName ∧
    root.isMisread p.name p.path = false ∧ root.isBound p.name p.path = p.isBound

instance (p : Place) (root : Node) : Decidable (p.In root) :=
  match h : root.at? p.path with
  | none => .isFalse (fun ⟨_, hm, _⟩ => by rw [h] at hm; cases hm)
  | some m =>
    decidable_of_iff (p.name ∈ m.writes ∧ decide (m.written? = some p.name) = p.isByName ∧
        root.isMisread p.name p.path = false ∧ root.isBound p.name p.path = p.isBound)
      ⟨fun hp => ⟨m, h, hp⟩, fun ⟨m', hm, hp⟩ => by
        obtain rfl : m = m' := Option.some.inj (h.symm.trans hm)
        exact hp⟩

end Invalidation.Sample

def Invalidation.Sample.loop : String := "for (var i = 0; i < 3; i++) \x7b\x7d"

end ReactiveTemplate
