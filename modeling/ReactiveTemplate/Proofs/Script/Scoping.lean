import ReactiveTemplate.Proofs.Script.Walking
/-!
# Scoping — where names are used, and what binds them

`Node.placed` lists the uses of names with the paths at which they stand.
-/
set_option linter.all false

namespace ReactiveTemplate.Script
open List

/-! ## Paths -/

def Form.visit (form : Form) (parts : List Node) (i : Nat) : Visit :=
  if i = 0 then (form.surrounds parts).1 else (form.surrounds parts).2

namespace Node

def at? : Node → List Nat → Option Node
  | n, [] => some n
  | n, i :: path => n.parts[i]?.bind (·.at? path)

/-- The scopes that are seen along a path, the innermost first; `none` if the path is not walked. -/
def seen? : Node → List Nat → Option (List (List String))
  | _, [] => some []
  | n, i :: path =>
    match n.form.visit n.parts i with
    | .skipped => none
    | .inside names => (n.parts[i]?.bind (·.seen? path)).map (· ++ [names])

mutual
def placed (context : List String) (scopes : List (List String)) : Node → List (List Nat × Use)
  | node form span parts =>
    let own := (form.useOf parts).map (fun (kind, name) => ([], ⟨kind, name, reachOf context scopes name, span⟩))
    own.toList ++ placedOf context scopes (form.surrounds parts).1 (form.surrounds parts).2 0 parts

def placedOf (context : List String) (scopes : List (List String)) (first others : Visit) (i : Nat) :
    List Node → List (List Nat × Use)
  | [] => []
  | n :: ns =>
    let here :=
      match first with
      | .skipped => []
      | .inside names => (placed context (names :: scopes) n).map (fun (path, u) => (i :: path, u))
    here ++ placedOf context scopes others others (i + 1) ns
end

mutual
theorem map_snd_placed (context : List String) : ∀ (scopes : List (List String)) (n : Node),
    (placed context scopes n).map (·.2) = uses context scopes n
  | scopes, node form span parts => by
    rw [placed, uses_node, map_append, map_snd_placedOf]
    cases form.useOf parts <;> rfl

theorem map_snd_placedOf (context : List String) : ∀ (scopes : List (List String)) (first others : Visit) (i : Nat)
    (parts : List Node), (placedOf context scopes first others i parts).map (·.2) =
      usesOf context scopes first others parts
  | _, _, _, _, [] => rfl
  | scopes, first, others, i, n :: ns => by
    unfold placedOf
    rw [usesOf_cons, map_append, map_snd_placedOf]
    cases first with
    | skipped => rfl
    | inside names =>
      rw [map_map, usesIn, ← map_snd_placed]
      rfl
end

variable {context : List String} {scopes : List (List String)} {u : Use}

lemma head_of_mem_placedOf (parts : List Node) :
    ∀ {first others : Visit} {i : Nat} {path : List Nat}, path ∈ (placedOf context scopes first others i parts).map (·.1) →
      ∃ j rest, path = j :: rest ∧ i ≤ j := by
  induction parts with
  | nil => exact fun h => nomatch h
  | cons n ns ih =>
    intro first others i path h
    unfold placedOf at h
    rw [map_append, mem_append] at h
    rcases h with h | h
    · cases first with
      | skipped => cases h
      | inside names =>
        simp only [map_map, mem_map] at h
        obtain ⟨p, -, rfl⟩ := h
        exact ⟨i, p.1, rfl, Nat.le_refl i⟩
    · obtain ⟨j, rest, rfl, hj⟩ := ih h
      exact ⟨j, rest, rfl, Nat.le_of_succ_le hj⟩

mutual
theorem nodup_placed (context : List String) : ∀ (scopes : List (List String)) (n : Node),
    ((placed context scopes n).map (·.1)).Nodup
  | scopes, node form span parts => by
    unfold placed
    rw [map_append, nodup_append]
    refine ⟨by cases form.useOf parts <;> simp, nodup_placedOf context scopes _ _ 0 parts, ?_⟩
    intro path hpath path' hpath' heq
    obtain ⟨j, rest, rfl, -⟩ := head_of_mem_placedOf parts hpath'
    cases huse : form.useOf parts with
    | none => simp [huse] at hpath
    | some use => simp [huse, heq] at hpath

theorem nodup_placedOf (context : List String) : ∀ (scopes : List (List String)) (first others : Visit) (i : Nat)
    (parts : List Node), ((placedOf context scopes first others i parts).map (·.1)).Nodup
  | _, _, _, _, [] => nodup_nil
  | scopes, first, others, i, n :: ns => by
    unfold placedOf
    rw [map_append, nodup_append]
    refine ⟨?_, nodup_placedOf context scopes others others (i + 1) ns, ?_⟩
    · cases first with
      | skipped => exact nodup_nil
      | inside names =>
        have hcons : ((placed context (names :: scopes) n).map (fun (path, u) => (i :: path, u))).map (·.1) =
            ((placed context (names :: scopes) n).map (·.1)).map (i :: ·) := by
          simp only [map_map]
          rfl
        simp only [hcons]
        exact List.Pairwise.map (i :: ·) (fun _ _ h heq => h (cons.inj heq).2)
          (nodup_placed context (names :: scopes) n)
    · intro path hpath path' hpath' heq
      obtain ⟨j, rest, rfl, hj⟩ := head_of_mem_placedOf ns hpath'
      cases first with
      | skipped => cases hpath
      | inside names =>
        simp only [map_map, mem_map] at hpath
        obtain ⟨p, -, rfl⟩ := hpath
        have := (cons.inj heq).1
        omega
end

def UsesAt (context : List String) (scopes : List (List String)) (n : Node) (path : List Nat) (u : Use) : Prop :=
  ∃ m seen, n.at? path = some m ∧ n.seen? path = some seen ∧ m.form.useOf m.parts = some (u.kind, u.name) ∧
    u.reach = reachOf context (seen ++ scopes) u.name ∧ u.span = m.span

lemma usesAt_nil {n : Node} :
    n.UsesAt context scopes [] u ↔
      n.form.useOf n.parts = some (u.kind, u.name) ∧ u.reach = reachOf context scopes u.name ∧ u.span = n.span := by
  constructor
  · rintro ⟨m, seen, hm, hseen, huse⟩
    cases hm
    cases hseen
    exact huse
  · exact fun huse => ⟨n, [], rfl, rfl, huse⟩

lemma usesAt_cons {n : Node} {i : Nat} {path : List Nat} :
    n.UsesAt context scopes (i :: path) u ↔ ∃ part names, n.parts[i]? = some part ∧
      n.form.visit n.parts i = .inside names ∧ part.UsesAt context (names :: scopes) path u := by
  constructor
  · rintro ⟨m, seen, hm, hseen, huse⟩
    obtain ⟨part, hpart, hm⟩ := Option.bind_eq_some_iff.1 hm
    unfold seen? at hseen
    cases hvisit : n.form.visit n.parts i with
    | skipped => simp [hvisit] at hseen
    | inside names =>
      simp only [hvisit, hpart, Option.map_eq_some_iff] at hseen
      obtain ⟨inner, hinner, rfl⟩ := hseen
      rw [append_assoc] at huse
      exact ⟨part, names, hpart, rfl, m, inner, hm, hinner, huse⟩
  · rintro ⟨part, names, hpart, hvisit, m, inner, hm, hinner, huse⟩
    refine ⟨m, inner ++ [names], ?_, ?_, ?_⟩
    · simp [at?, hpart, hm]
    · simp [seen?, hvisit, hpart, hinner]
    · rw [append_assoc]
      exact huse

lemma mem_own {form : Form} {span : Span} {parts : List Node} {path : List Nat} :
    (path, u) ∈ ((form.useOf parts).map
        (fun (kind, name) => (([] : List Nat), (⟨kind, name, reachOf context scopes name, span⟩ : Use)))).toList ↔
      path = [] ∧ (node form span parts).UsesAt context scopes [] u := by
  rw [usesAt_nil, Option.mem_toList, Option.map_eq_some_iff]
  constructor
  · rintro ⟨⟨kind, name⟩, huse, heq⟩
    cases heq
    exact ⟨rfl, huse, rfl, rfl⟩
  · rintro ⟨rfl, huse, hreach, hspan⟩
    refine ⟨(u.kind, u.name), huse, ?_⟩
    simp only [← hreach]
    exact congrArg (Prod.mk []) (by cases u; cases hspan; rfl)

mutual
theorem mem_placed {context : List String} {path : List Nat} {u : Use} : ∀ {scopes : List (List String)} (n : Node),
    (path, u) ∈ placed context scopes n ↔ n.UsesAt context scopes path u
  | scopes, node form span parts => by
    unfold placed
    rw [mem_append, mem_own, mem_placedOf parts]
    cases path with
    | nil => simp
    | cons i path =>
      rw [usesAt_cons]
      simp only [reduceCtorEq, false_and, false_or, Nat.zero_add, cons.injEq]
      constructor
      · rintro ⟨j, rest, part, names, ⟨rfl, rfl⟩, hpart, hvisit, huse⟩
        exact ⟨part, names, hpart, hvisit, huse⟩
      · rintro ⟨part, names, hpart, hvisit, huse⟩
        exact ⟨i, path, part, names, ⟨rfl, rfl⟩, hpart, hvisit, huse⟩

theorem mem_placedOf {context : List String} {path : List Nat} {u : Use} : ∀ {scopes : List (List String)}
    {first others : Visit} {i : Nat} (parts : List Node),
    (path, u) ∈ placedOf context scopes first others i parts ↔
      ∃ j rest part names, path = (i + j) :: rest ∧ parts[j]? = some part ∧
        (if j = 0 then first else others) = .inside names ∧ part.UsesAt context (names :: scopes) rest u
  | _, _, _, _, [] => by simp [placedOf]
  | scopes, first, others, i, n :: ns => by
    unfold placedOf
    rw [mem_append, mem_placedOf ns]
    constructor
    · rintro (h | ⟨j, rest, part, names, rfl, hpart, hvisit, huse⟩)
      · cases first with
        | skipped => cases h
        | inside names =>
          obtain ⟨⟨rest, u'⟩, hmem, heq⟩ := mem_map.1 h
          cases heq
          exact ⟨0, rest, n, names, rfl, rfl, rfl, (mem_placed n).1 hmem⟩
      · refine ⟨j + 1, rest, part, names, ?_, hpart, ?_, huse⟩
        · rw [Nat.add_right_comm, Nat.add_assoc]
        · simpa using hvisit
    · rintro ⟨j, rest, part, names, rfl, hpart, hvisit, huse⟩
      cases j with
      | zero =>
        cases hpart
        obtain rfl : first = .inside names := hvisit
        exact .inl (mem_map.2 ⟨(rest, u), (mem_placed n).2 huse, rfl⟩)
      | succ j =>
        refine .inr ⟨j, rest, part, names, ?_, hpart, ?_, huse⟩
        · rw [Nat.add_right_comm, Nat.add_assoc]
        · simpa using hvisit
end

end Node

/-! ## What binds a name -/

def loopNames : List Node → List String
  | n :: _ =>
    match n.form with
    | .declaration .hoisted => []
    | .declaration _ => n.variableNames
    | _ => []
  | [] => []

/-- The names that the head of a loop declares with `var`, which belong to what the loop stands in. -/
def hoistedHeadNames : List Node → List String
  | n :: _ =>
    match n.form with
    | .declaration .hoisted => n.variableNames
    | _ => []
  | [] => []

def classNames (parts : List Node) : List String := ((parts[1]?).map Node.boundNames).getD []

namespace Form

def binds : Form → List Node → Nat → List String
  | .block, parts, _ => Node.lexicalNames parts
  | .switchOn, parts, i => if i = 0 then [] else caseNames (parts.drop 1)
  | .function isExpression _ _, [title, params, code], i =>
    "arguments" :: (if isExpression then title.boundNames else []) ++ params.boundNames ++
      (if i = 2 then Node.scopeNames code.statements else [])
  | .arrow _ _, [params, code], i => params.boundNames ++ (if i = 1 then Node.scopeNames code.statements else [])
  | .handler, param :: _, _ => param.boundNames
  | .loop, parts, _ | .loopIn, parts, _ | .loopOf _, parts, _ => loopNames parts
  | .classOf _, parts, i => if 2 ≤ i then classNames parts else []
  | .staticBlock, parts, _ => Node.scopeNames parts
  | _, _, _ => []

/-- Whether a name is not looked up by the rules of the language in the part of a node at a place: what a function
declares, in its parameters; anything, in the parameter of a handler; what the head of a loop declares with `var`; the
name of a class; and what a static block declares. -/
def misreads : Form → List Node → Nat → String → Bool
  | .function _ _ _, [_, _, code], i, x => i != 2 && (Node.scopeNames code.statements).contains x
  | .arrow _ _, [_, code], i, x => i != 1 && (Node.scopeNames code.statements).contains x
  | .handler, _ :: _, i, _ => i == 0
  | .loop, parts, _, x | .loopIn, parts, _, x | .loopOf _, parts, _, x => (hoistedHeadNames parts).contains x
  | .classOf _, parts, i, x => decide (2 ≤ i) && (classNames parts).contains x
  | .staticBlock, parts, _, x => (Node.scopeNames parts).contains x
  | _, _, _, _ => false

variable {parts : List Node} {i : Nat} {x : String}

lemma mem_headNames (h : (hoistedHeadNames parts).contains x = false) : x ∈ headNames parts ↔ x ∈ loopNames parts := by
  cases parts with
  | nil => rfl
  | cons n ns =>
    unfold headNames loopNames
    unfold hoistedHeadNames at h
    simp only at h ⊢
    split at h
    · rename_i hform
      simpa [hform] using h
    · split
      · rename_i declared hdeclared
        cases declared <;> simp_all
      · rename_i hother
        split
        · simp
        · rename_i declared _ hdeclared
          exact absurd hdeclared (hother declared)
        · rfl

lemma visit_of_not_misreads {form : Form} (h : form.misreads parts i x = false) :
    ∃ names, form.visit parts i = .inside names ∧ (x ∈ names ↔ x ∈ form.binds parts i) := by
  cases form with
  | block => exact ⟨_, ite_self _, Iff.rfl⟩
  | switchOn =>
    by_cases hi : i = 0
    · exact ⟨[], if_pos hi, by simp [binds, hi]⟩
    · exact ⟨_, if_neg hi, by simp [binds, hi]⟩
  | loop => exact ⟨_, ite_self _, mem_headNames h⟩
  | loopIn => exact ⟨_, ite_self _, mem_headNames h⟩
  | loopOf isAwait => exact ⟨_, ite_self _, mem_headNames h⟩
  | function isExpression isAsync isGenerator =>
    match parts with
    | [title, params, code] =>
      refine ⟨_, ite_self _, ?_⟩
      by_cases hi : i = 2
      · simp [binds, functionNames, hi]
      · have hcode : x ∉ Node.scopeNames code.statements := by simpa [misreads, hi] using h
        simp [binds, functionNames, hcode]
    | [] | [_] | [_, _] | _ :: _ :: _ :: _ :: _ => exact ⟨[], ite_self _, Iff.rfl⟩
  | arrow isAsync isExpression =>
    match parts with
    | [params, code] =>
      refine ⟨_, ite_self _, ?_⟩
      by_cases hi : i = 1
      · simp [binds, functionNames, hi]
      · have hcode : x ∉ Node.scopeNames code.statements := by simpa [misreads, hi] using h
        simp [binds, functionNames, hcode]
    | [] | [_] | _ :: _ :: _ :: _ => exact ⟨[], ite_self _, Iff.rfl⟩
  | handler =>
    cases parts with
    | nil => exact ⟨[], ite_self _, Iff.rfl⟩
    | cons param others =>
      have hi : i ≠ 0 := by simpa [misreads] using h
      exact ⟨_, if_neg hi, Iff.rfl⟩
  | classOf isExpression =>
    refine ⟨[], ite_self _, ?_⟩
    by_cases hi : 2 ≤ i
    · simpa [misreads, binds] using h
    · simp [binds, hi]
  | staticBlock =>
    refine ⟨[], ite_self _, ?_⟩
    simpa [misreads, binds] using h
  | _ => exact ⟨[], ite_self _, Iff.rfl⟩

end Form

namespace Node

def isBound (x : String) : Node → List Nat → Bool
  | _, [] => false
  | n, i :: path => (n.form.binds n.parts i).contains x || (n.parts[i]?.map (·.isBound x path)).getD false

def isMisread (x : String) : Node → List Nat → Bool
  | _, [] => false
  | n, i :: path => n.form.misreads n.parts i x || (n.parts[i]?.map (·.isMisread x path)).getD false

lemma any_seen_iff {x : String} : ∀ {path : List Nat} {n m : Node}, n.at? path = some m → n.isMisread x path = false →
    ∃ seen, n.seen? path = some seen ∧ seen.any (·.contains x) = n.isBound x path
  | [], _, _, _, _ => ⟨[], rfl, rfl⟩
  | i :: path, n, m, hm, hread => by
    obtain ⟨part, hpart, hm⟩ := Option.bind_eq_some_iff.1 hm
    simp only [isMisread, hpart, Bool.or_eq_false_iff] at hread
    obtain ⟨names, hvisit, hnames⟩ := Form.visit_of_not_misreads hread.1
    obtain ⟨inner, hinner, hbound⟩ := any_seen_iff hm hread.2
    refine ⟨inner ++ [names], by simp [seen?, hvisit, hpart, hinner], ?_⟩
    have hhere : names.contains x = (n.form.binds n.parts i).contains x := by
      rw [Bool.eq_iff_iff, contains_iff_mem, contains_iff_mem, hnames]
    simp only [any_append, hbound, any_cons, any_nil, Bool.or_false, hhere, isBound, hpart]
    exact Bool.or_comm _ _

/-! ## Writes -/

mutual
def targetNames : Node → List String
  | node (.identifier name) _ _ => [name]
  | node .arrayTarget _ parts => allTargetNames parts
  | node .objectTarget _ parts => allTargetNames parts
  | node .targetRest _ parts => allTargetNames parts
  | node .targetShorthand _ parts => firstTargetNames parts
  | node .targetDefault _ parts => firstTargetNames parts
  | node (.targetProperty _) _ parts => laterTargetNames parts
  | _ => []

def allTargetNames : List Node → List String
  | [] => []
  | n :: ns => targetNames n ++ allTargetNames ns

def firstTargetNames : List Node → List String
  | [] => []
  | n :: _ => targetNames n

def laterTargetNames : List Node → List String
  | [] => []
  | _ :: ns => allTargetNames ns
end

/-- The names that a node writes: an assignment, an update, or a loop that assigns to its left side. -/
def writes (n : Node) : List String :=
  match n.form with
  | .assign _ | .update _ _ | .loopIn | .loopOf _ => firstTargetNames n.parts
  | _ => []

def written? (n : Node) : Option String :=
  match n.form with
  | .assign _ | .update _ _ => n.parts.head?.bind identifier?
  | _ => none

end Node
end ReactiveTemplate.Script
