import ReactiveTemplate.Proofs.Script.Scoping
/-!
# Ancestors — a name refers to what stands above it

`Node.Opens` says which names a node declares for one of its parts.
-/
set_option linter.all false

namespace ReactiveTemplate.Script.Node
open List

inductive Opens : Node → Nat → String → Prop
  | block {span : Span} {parts : List Node} {i : Nat} {x : String} (h : x ∈ lexicalNames parts) :
    Opens (node .block span parts) i x
  | cases {span : Span} {parts : List Node} {i : Nat} {x : String} (hi : i ≠ 0) (h : x ∈ caseNames (parts.drop 1)) :
    Opens (node .switchOn span parts) i x
  | arguments {isExpression isAsync isGenerator : Bool} {span : Span} {title params code : Node} {i : Nat} :
    Opens (node (.function isExpression isAsync isGenerator) span [title, params, code]) i "arguments"
  | title {isAsync isGenerator : Bool} {span : Span} {title params code : Node} {i : Nat} {x : String}
    (h : x ∈ title.boundNames) : Opens (node (.function true isAsync isGenerator) span [title, params, code]) i x
  | function {isExpression isAsync isGenerator : Bool} {span : Span} {title params code : Node} {i : Nat} {x : String}
    (h : x ∈ params.boundNames ∨ x ∈ scopeNames code.statements) :
    Opens (node (.function isExpression isAsync isGenerator) span [title, params, code]) i x
  | arrow {isAsync isExpression : Bool} {span : Span} {params code : Node} {i : Nat} {x : String}
    (h : x ∈ params.boundNames ∨ x ∈ scopeNames code.statements) :
    Opens (node (.arrow isAsync isExpression) span [params, code]) i x
  | handler {span : Span} {param : Node} {others : List Node} {i : Nat} {x : String} (hi : i ≠ 0)
    (h : x ∈ param.boundNames) : Opens (node .handler span (param :: others)) i x
  | loop {form : Form} {span : Span} {parts : List Node} {i : Nat} {x : String}
    (hform : form = .loop ∨ form = .loopIn ∨ ∃ isAwait, form = .loopOf isAwait) (h : x ∈ headNames parts) :
    Opens (node form span parts) i x

variable {form : Form} {span : Span} {parts : List Node} {i : Nat} {names : List String} {x : String}

lemma mem_of_opens (h : form.visit parts i = .inside names) (hopens : (node form span parts).Opens i x) : x ∈ names := by
  cases hopens with
  | block hx =>
    cases (ite_self _).symm.trans h
    exact hx
  | cases hi hx =>
    cases (if_neg hi).symm.trans h
    exact hx
  | arguments =>
    cases (ite_self _).symm.trans h
    exact (.head _)
  | title hx =>
    cases (ite_self _).symm.trans h
    simp [hx]
  | function hx =>
    cases (ite_self _).symm.trans h
    simp [functionNames, hx]
  | arrow hx =>
    cases (ite_self _).symm.trans h
    simpa [functionNames] using hx
  | handler hi hx =>
    cases (if_neg hi).symm.trans h
    exact hx
  | loop hform hx =>
    rcases hform with rfl | rfl | ⟨isAwait, rfl⟩ <;>
      · cases (ite_self _).symm.trans h
        exact hx

lemma opens_of_mem (h : form.visit parts i = .inside names) (hx : x ∈ names) : (node form span parts).Opens i x := by
  unfold Form.visit at h
  revert h
  fun_cases Form.surrounds form parts with
  | case1 parts scope =>
    intro h
    cases (ite_self _).symm.trans h
    exact .block hx
  | case2 parts =>
    intro h
    by_cases hi : i = 0
    · cases (if_pos hi).symm.trans h
      cases hx
    · cases (if_neg hi).symm.trans h
      exact .cases hi hx
  | case3 isExpression _ _ title params code =>
    intro h
    cases (ite_self _).symm.trans h
    simp only [functionNames, cons_append, mem_cons, mem_append] at hx
    rcases hx with rfl | hx | hx
    · exact .arguments
    · cases isExpression with
      | true => exact .title hx
      | false => cases (show x ∈ [] from hx)
    · exact .function hx
  | case4 =>
    intro h
    cases (ite_self _).symm.trans h
    exact .arrow (mem_append.1 hx)
  | case5 =>
    intro h
    by_cases hi : i = 0
    · cases (if_pos hi).symm.trans h
    · cases (if_neg hi).symm.trans h
      exact .handler hi hx
  | case6 =>
    intro h
    cases (ite_self _).symm.trans h
    exact .loop (.inl rfl) hx
  | case7 =>
    intro h
    cases (ite_self _).symm.trans h
    exact .loop (.inr (.inl rfl)) hx
  | case8 =>
    intro h
    cases (ite_self _).symm.trans h
    exact .loop (.inr (.inr ⟨_, rfl⟩)) hx
  | case9 =>
    intro h
    cases (ite_self _).symm.trans h
    cases hx

lemma visit_eq_skipped {part : Node} (hpart : parts[i]? = some part) :
    form.visit parts i = .skipped ↔ form = .handler ∧ i = 0 := by
  unfold Form.visit
  fun_cases Form.surrounds form parts with
  | case2 parts => split <;> simp
  | case9 =>
    rename_i hhandler
    rw [ite_self]
    refine ⟨nofun, fun ⟨hform, _⟩ => ?_⟩
    cases parts with
    | nil => cases hpart
    | cons n ns => exact absurd rfl (hhandler n ns hform)
  | _ => simp

/-! ## The nodes above a use -/

/-- The node `a` stands above the end of a path, which goes on in the part `i` of it. -/
def Above (n : Node) (path : List Nat) (a : Node) (i : Nat) : Prop :=
  ∃ above below, path = above ++ i :: below ∧ n.at? above = some a

lemma not_above_nil {n a : Node} {i : Nat} : ¬n.Above [] a i := by
  rintro ⟨above, below, h, -⟩
  cases above <;> cases h

lemma above_cons {n a : Node} {j : Nat} {path : List Nat} :
    n.Above (j :: path) a i ↔ (a = n ∧ i = j) ∨ ∃ part, n.parts[j]? = some part ∧ part.Above path a i := by
  constructor
  · rintro ⟨above, below, hpath, ha⟩
    cases above with
    | nil =>
      cases hpath
      cases ha
      exact .inl ⟨rfl, rfl⟩
    | cons k above =>
      cases hpath
      obtain ⟨part, hpart, ha⟩ := Option.bind_eq_some_iff.1 ha
      exact .inr ⟨part, hpart, above, below, rfl, ha⟩
  · rintro (⟨rfl, rfl⟩ | ⟨part, hpart, above, below, rfl, ha⟩)
    · exact ⟨[], path, rfl, rfl⟩
    · exact ⟨j :: above, below, rfl, by rw [at?, hpart]; exact ha⟩

/-- A path that leads into the parameter of a handler, where nothing is walked. -/
def Skips (n : Node) (path : List Nat) : Prop := ∃ a, n.Above path a 0 ∧ a.form = .handler

/-- A name that a scope around the node has, or that a node above the end of the path declares. -/
def Local (scopes : List (List String)) (n : Node) (path : List Nat) (x : String) : Prop :=
  (∃ names ∈ scopes, x ∈ names) ∨ ∃ a i, n.Above path a i ∧ a.Opens i x

lemma exists_seen_iff : ∀ {path : List Nat} {n : Node} {seen : List (List String)}, n.seen? path = some seen →
    ((∃ names ∈ seen, x ∈ names) ↔ ∃ a i, n.Above path a i ∧ a.Opens i x)
  | [], n, seen, h => by
    cases h
    exact ⟨nofun, fun ⟨a, i, ha, _⟩ => absurd ha not_above_nil⟩
  | i :: path, node form span parts, seen, h => by
    unfold seen? at h
    split at h
    · cases h
    rename_i names hvisit
    obtain ⟨inner, hinner, rfl⟩ := Option.map_eq_some_iff.1 h
    obtain ⟨part, hpart, hinner⟩ := Option.bind_eq_some_iff.1 hinner
    have ih := exists_seen_iff hinner
    simp only [mem_append, mem_singleton, or_and_right, exists_or, ih, exists_eq_left, above_cons, hpart,
      Option.some.injEq, exists_eq_left']
    have hopens : (node form span parts).Opens i x ↔ x ∈ names := ⟨mem_of_opens hvisit, opens_of_mem hvisit⟩
    rw [or_comm, ← hopens]
    refine or_congr_left ⟨fun hx => ⟨_, _, ⟨rfl, rfl⟩, hx⟩, ?_⟩
    rintro ⟨a, j, ⟨rfl, rfl⟩, hx⟩
    exact hx

lemma isSome_seen?_iff : ∀ {path : List Nat} {n m : Node}, n.at? path = some m →
    ((n.seen? path).isSome = true ↔ ¬n.Skips path)
  | [], n, m, _ => ⟨fun _ ⟨a, ha, _⟩ => not_above_nil ha, fun _ => rfl⟩
  | i :: path, n, m, hm => by
    obtain ⟨part, hpart, hm⟩ := Option.bind_eq_some_iff.1 hm
    have ih := isSome_seen?_iff hm
    have hskips : n.Skips (i :: path) ↔ n.form.visit n.parts i = .skipped ∨ part.Skips path := by
      rw [visit_eq_skipped hpart]
      simp only [Skips, above_cons, hpart, Option.some.injEq, exists_eq_left', or_and_right, exists_or]
      refine or_congr_left ⟨?_, fun ⟨hform, hi⟩ => ⟨n, ⟨rfl, hi.symm⟩, hform⟩⟩
      rintro ⟨a, ⟨rfl, hi⟩, hform⟩
      exact ⟨hform, hi.symm⟩
    rw [hskips, not_or, ← ih, seen?]
    cases hvisit : n.form.visit n.parts i with
    | skipped => simp
    | inside names => simp [hpart]

/-! ## What a walk reports -/

variable {context : List String} {scopes : List (List String)}

lemma eq_reachOf_iff {reach : Reach} {isLocal : Prop} (h : (∃ names ∈ scopes, x ∈ names) ↔ isLocal) :
    reach = reachOf context scopes x ↔ (reach = .inner ↔ isLocal) ∧ (reach = .context ↔ ¬isLocal ∧ x ∈ context) ∧
      (reach = .free ↔ ¬isLocal ∧ x ∉ context) := by
  have hany : scopes.any (·.contains x) = true ↔ isLocal := by simpa using h
  unfold reachOf
  by_cases hlocal : isLocal
  · rw [if_pos (hany.2 hlocal)]
    cases reach <;> simp [hlocal]
  · rw [if_neg (mt hany.1 hlocal)]
    by_cases hx : x ∈ context <;> cases reach <;> simp [hlocal, hx]

/-- A use that a walk reports at a path: it stands there, outside of what is skipped, and what its name refers to is
decided by the scopes around the node, by the nodes above the use, and by the context. -/
def Reports (context : List String) (scopes : List (List String)) (n : Node) (path : List Nat) (u : Use) : Prop :=
  (∃ m, n.at? path = some m ∧ m.form.useOf m.parts = some (u.kind, u.name) ∧ u.span = m.span) ∧ ¬n.Skips path ∧
    (u.reach = .inner ↔ n.Local scopes path u.name) ∧
    (u.reach = .context ↔ ¬n.Local scopes path u.name ∧ u.name ∈ context) ∧
    (u.reach = .free ↔ ¬n.Local scopes path u.name ∧ u.name ∉ context)

lemma usesAt_iff_reports {n : Node} {path : List Nat} {u : Use} :
    n.UsesAt context scopes path u ↔ n.Reports context scopes path u := by
  have hreach : ∀ {seen}, n.seen? path = some seen → ((∃ names ∈ seen ++ scopes, u.name ∈ names) ↔
      n.Local scopes path u.name) := by
    intro seen hseen
    simp only [mem_append, or_and_right, exists_or, exists_seen_iff hseen]
    exact or_comm
  constructor
  · rintro ⟨m, seen, hm, hseen, huse, hu, hspan⟩
    refine ⟨⟨m, hm, huse, hspan⟩, (isSome_seen?_iff hm).1 (by rw [hseen]; rfl), (eq_reachOf_iff (hreach hseen)).1 hu⟩
  · rintro ⟨⟨m, hm, huse, hspan⟩, hskips, hu⟩
    obtain ⟨seen, hseen⟩ := Option.isSome_iff_exists.1 ((isSome_seen?_iff hm).2 hskips)
    exact ⟨m, seen, hm, hseen, huse, (eq_reachOf_iff (hreach hseen)).2 hu, hspan⟩

lemma usesOf_eq_flatMap (first others : Visit) (ns : List Node) : usesOf context scopes first others ns =
    ns.zipIdx.flatMap (fun p => p.1.usesIn context scopes (if p.2 = 0 then first else others)) := by
  have hothers : ∀ (ns : List Node) (k : Nat), usesOf context scopes others others ns =
      (ns.zipIdx (k + 1)).flatMap (fun p => p.1.usesIn context scopes (if p.2 = 0 then first else others)) := by
    intro ns
    induction ns with
    | nil => exact fun _ => rfl
    | cons n ns ih =>
      intro k
      rw [usesOf_cons, ih (k + 1)]
      rfl
  cases ns with
  | nil => rfl
  | cons n ns =>
    rw [usesOf_cons, hothers ns 0]
    rfl

lemma exists_reports (context : List String) (scopes : List (List String)) (n : Node) :
    ∃ reports : List (List Nat × Use), n.uses context scopes = reports.map (·.2) ∧ (reports.map (·.1)).Nodup ∧
      ∀ path u, (path, u) ∈ reports ↔ n.Reports context scopes path u :=
  ⟨n.placed context scopes, (map_snd_placed context scopes n).symm, nodup_placed context scopes n,
    fun _ _ => (mem_placed n).trans usesAt_iff_reports⟩

end ReactiveTemplate.Script.Node
