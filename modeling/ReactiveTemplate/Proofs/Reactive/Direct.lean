import ReactiveTemplate.Proofs.Reactive.Refusal
import ReactiveTemplate.Proofs.Script.Ancestors
/-!
# Direct — interpolations that change a variable themselves

An interpolation that writes a variable of the context by name, wherever in it, is refused if nothing binds the name
there and the name is not misread; one that changes and calls bound names only is accepted
(`Context.refuseEffects_direct`).
-/
set_option linter.all false

namespace ReactiveTemplate
open List

open Script (Node Use Form)

namespace Script

def Form.isClassScope : Form → Bool
  | .classOf _ | .staticBlock => true
  | _ => false

namespace Node

/-- Whether a name is bound on the way down a path, by something else than the name of a class or a static block. -/
def isHeld (x : String) : Node → List Nat → Bool
  | _, [] => false
  | n, i :: path => !n.form.isClassScope && (n.form.binds n.parts i).contains x ||
      (n.parts[i]?.map (·.isHeld x path)).getD false

variable {form : Form} {span : Span} {parts : List Node} {i : Nat} {x : String}

lemma mem_headNames_of_mem_loopNames (h : x ∈ loopNames parts) : x ∈ headNames parts := by
  unfold loopNames at h
  unfold headNames
  split at h
  · split at h
    · cases h
    · rename_i hform
      simp only [hform]
      exact h
    · cases h
  · cases h

lemma opens_of_mem_binds (hform : form.isClassScope = false) (hvisit : form.visit parts i ≠ .skipped)
    (hx : x ∈ form.binds parts i) : (node form span parts).Opens i x := by
  revert hform hvisit hx
  fun_cases Form.binds form parts i with
  | case1 => exact fun _ _ => .block
  | case3 =>
    rename_i hi
    exact fun _ _ => .cases hi
  | case4 isExpression _ _ title params code =>
    intro _ _ hx
    simp only [cons_append, mem_cons, mem_append] at hx
    rcases hx with rfl | (hx | hx) | hx
    · exact .arguments
    · cases isExpression with
      | true => exact .title hx
      | false => cases hx
    · exact .function (.inl hx)
    · split at hx
      · exact .function (.inr hx)
      · cases hx
  | case5 =>
    intro _ _ hx
    rcases mem_append.1 hx with hx | hx
    · exact .arrow (.inl hx)
    · split at hx
      · exact .arrow (.inr hx)
      · cases hx
  | case6 => exact fun _ hvisit => .handler (fun hi => hvisit (if_pos hi))
  | case7 => exact fun _ _ hx => .loop (.inl rfl) (mem_headNames_of_mem_loopNames hx)
  | case8 => exact fun _ _ hx => .loop (.inr (.inl rfl)) (mem_headNames_of_mem_loopNames hx)
  | case9 => exact fun _ _ hx => .loop (.inr (.inr ⟨_, rfl⟩)) (mem_headNames_of_mem_loopNames hx)
  | case10 | case12 => exact fun hform => nomatch hform
  | _ => exact fun _ _ hx => nomatch hx

lemma any_seen_of_isHeld : ∀ {path : List Nat} {n : Node} {seen : List (List String)}, n.seen? path = some seen →
    n.isHeld x path = true → seen.any (·.contains x) = true
  | [], _, _, _, hheld => nomatch hheld
  | i :: path, node form span parts, seen, hseen, hheld => by
    unfold seen? at hseen
    cases hvisit : form.visit parts i with
    | skipped => simp [Node.form, Node.parts, hvisit] at hseen
    | inside names =>
      simp only [Node.form, Node.parts, hvisit, Option.map_eq_some_iff] at hseen
      obtain ⟨inner, hinner, rfl⟩ := hseen
      obtain ⟨part, hpart, hinner⟩ := Option.bind_eq_some_iff.1 hinner
      simp only [isHeld, Node.parts, hpart, Bool.or_eq_true,
        Bool.and_eq_true, Bool.not_eq_true', contains_iff_mem] at hheld
      rw [any_append, Bool.or_eq_true]
      rcases hheld with ⟨hform, hx⟩ | hheld
      · have hopens : (node form span parts).Opens i x := opens_of_mem_binds hform (by simp [hvisit]) hx
        exact .inr (by simpa using mem_of_opens hvisit hopens)
      · exact .inl (any_seen_of_isHeld hinner hheld)

lemma not_isHeld_of_mem_contextUses {context : List String} {n : Node} {u : Use} (h : u ∈ n.contextUses context)
    (hreach : u.reach ≠ .inner) : ∃ path m, n.at? path = some m ∧ m.form.useOf m.parts = some (u.kind, u.name) ∧
      n.isHeld u.name path = false := by
  obtain ⟨path, m, seen, hm, hseen, huse, hfree⟩ := seen_of_mem_contextUses h hreach
  refine ⟨path, m, hm, huse, Bool.eq_false_iff.2 (fun hheld => ?_)⟩
  exact absurd (any_seen_of_isHeld hseen hheld) (by rw [hfree]; exact nofun)

mutual
def descendants : Node → List (List Nat × Node)
  | node form span parts => ([], node form span parts) :: descendantsOf 0 parts

def descendantsOf (i : Nat) : List Node → List (List Nat × Node)
  | [] => []
  | n :: ns => n.descendants.map (fun (path, m) => (i :: path, m)) ++ descendantsOf (i + 1) ns
end

lemma mem_descendantsOf {part m : Node} {path : List Nat} (h : (path, m) ∈ part.descendants) : ∀ {ns : List Node}
    {i j : Nat}, ns[j]? = some part → ((i + j) :: path, m) ∈ descendantsOf i ns
  | n :: ns, i, 0, hpart => by
    cases hpart
    exact mem_append_left _ (List.mem_map.2 ⟨_, h, rfl⟩)
  | n :: ns, i, j + 1, hpart => by
    rw [← Nat.add_assoc, Nat.add_right_comm]
    exact mem_append_right _ (mem_descendantsOf h hpart)

lemma mem_descendants : ∀ {path : List Nat} {n m : Node}, n.at? path = some m → (path, m) ∈ n.descendants
  | [], node form span parts, m, h => by
    cases h
    exact (.head _)
  | i :: path, node form span parts, m, h => by
    obtain ⟨part, hpart, hm⟩ := Option.bind_eq_some_iff.1 h
    refine mem_cons_of_mem _ ?_
    have := mem_descendantsOf (mem_descendants hm) (i := 0) hpart
    rwa [Nat.zero_add] at this

end Node
end Script

namespace Context

variable {injected : List String} {program e : Node} {source x : String}

lemma refuseEffects_of_reaches (source : String) {c : Context} (hx : x ∈ c.declared) (h : e.Reaches Node.written? x) :
    ∃ y ∈ c.declared, c.refuseEffects (Summary.ofNode source e) = .error (.sideEffect source y none) := by
  obtain ⟨u, hu, hwrite, rfl, hreach⟩ := h.exists_write []
  have hmem : u.name ∈ (Summary.ofNode source e).freeWrites := by
    refine mem_map.2 ⟨⟨u.name, u.reach⟩, mem_filter.2 ⟨mem_map.2 ⟨u, mem_filter.2 ⟨hu, hwrite⟩, rfl⟩, ?_⟩,
      rfl⟩
    rw [hreach]
    rfl
  have hfind : ((Summary.ofNode source e).freeWrites.find? c.isDeclared).isSome = true :=
    find?_isSome.2 ⟨u.name, hmem, contains_iff_mem.2 hx⟩
  obtain ⟨y, hy⟩ := Option.isSome_iff_exists.1 hfind
  refine ⟨y, contains_iff_mem.1 (find?_some hy), ?_⟩
  rw [refuseEffects, hy]
  rfl

/-- **Interpolations may not change the context.**  One that assigns to a variable of the context by name, or updates one,
anywhere in it, is refused if nothing in it binds the name there, and if the name is not misread.  One in which every
variable of the context that is changed by name, and every function of the script that is called by name, is bound by
something else than the name of a class or a static block is accepted. -/
theorem refuseEffects_direct (injected : List String) (program : Node) (source : String) (e : Node) :
    (∀ x ∈ injected ++ Node.scopeNames program.statements, e.Reaches Node.written? x →
      ∃ y ∈ injected ++ Node.scopeNames program.statements,
        (ofProgram injected program).refuseEffects (Summary.ofNode source e) = .error (.sideEffect source y none) ∧
        (Fault.sideEffect source y none).code = "js:interpolation:sideeffect") ∧
    ((∀ path m x, e.at? path = some m →
        (m.written? = some x ∧ x ∈ injected ++ Node.scopeNames program.statements) ∨
          (m.called? = some x ∧ ∃ f, program.ExposesIn x f) → e.isHeld x path = true) →
      (ofProgram injected program).refuseEffects (Summary.ofNode source e) = .ok ()) := by
  constructor
  · intro x hx hwrites
    obtain ⟨y, hy, hrefused⟩ := refuseEffects_of_reaches source (mem_declared.2 hx) hwrites
    exact ⟨y, mem_declared.1 hy, hrefused, rfl⟩
  · intro hheld
    have hwrites : (Summary.ofNode source e).freeWrites.find? (ofProgram injected program).isDeclared = none := by
      refine List.find?_eq_none.2 (fun x hx hdeclared => ?_)
      obtain ⟨u, hu, hwrite, hreach, rfl⟩ := exists_use_of_mem_freeWrites hx
      obtain ⟨path, m, hm, huse, hfree⟩ := Node.not_isHeld_of_mem_contextUses hu hreach
      rw [hheld path m u.name hm (.inl ⟨(Node.isWrite_iff_written? huse).1 hwrite,
        mem_declared.1 (List.contains_iff_mem.1 hdeclared)⟩)] at hfree
      cases hfree
    have hcalls : (Summary.ofNode source e).calls.findSome? (ofProgram injected program).writtenThrough? = none := by
      refine List.findSome?_eq_none_iff.2 (fun name hname => ?_)
      obtain ⟨u, hu, hkind, hreach, rfl⟩ := exists_use_of_mem_calls hname
      obtain ⟨path, m, hm, huse, hfree⟩ := Node.not_isHeld_of_mem_contextUses hu hreach
      have hnone : (ofProgram injected program).effectsOf? u.name = none := by
        refine Option.eq_none_iff_forall_ne_some.2 (fun effects heffects => ?_)
        obtain ⟨f, hexposes, -⟩ := exposes_of_effectsOf? heffects
        rw [hheld path m u.name hm (.inr ⟨Node.called?_iff.2 (hkind ▸ huse), f, hexposes⟩)] at hfree
        cases hfree
      rw [writtenThrough?, writtenBy?, hnone]
      rfl
    rw [refuseEffects, hwrites, hcalls]

namespace Sample

/-- A property of a component that declares `n`, and of an expression in it. -/
def Holds (source : String) (P : Context → Node → Prop) : Prop :=
  ∃ program e, Script.parseProgram? "let n" = some program ∧ Node.scopeNames program.root.statements = ["n"] ∧
    Script.parseExpression? source = some e ∧ P (ofProgram [] program.root) e

def check (source : String) (p : Context → Node → Bool) : Bool :=
  (Script.parseProgram? "let n").any (fun program => decide (Node.scopeNames program.root.statements = ["n"]) &&
    (Script.parseExpression? source).any (p (ofProgram [] program.root)))

lemma holds_of_check {source : String} {p : Context → Node → Bool} (h : check source p = true) :
    ∃ program e, Script.parseProgram? "let n" = some program ∧ Node.scopeNames program.root.statements = ["n"] ∧
      Script.parseExpression? source = some e ∧ p (ofProgram [] program.root) e = true := by
  obtain ⟨program, hprogram, h⟩ := (Option.any_eq_true _ _).1 h
  rw [Bool.and_eq_true, decide_eq_true_eq] at h
  obtain ⟨e, he, h'⟩ := (Option.any_eq_true _ _).1 h.2
  exact ⟨program, e, hprogram, h.1, he, h'⟩

/-- An assignment in a `case` in a function in an argument in a template in a conditional in an array. -/
def deep : String := "[a ? \x60$\x7bf(() => \x7b switch (a) \x7b case 1: n ||= 2 \x7d \x7d)\x7d\x60 : 0]"

/-- An update in a loop that declares its variable, and an assignment to a parameter. -/
def bound : String := "(() => \x7b for (var n = 0; n < 3; n++) \x7b\x7d \x7d)() + [1].map(n => n += 1)"

/-- Changes of `n` that nothing binds, with their paths: in the parameter of a handler, and in the parameter of a function
whose body declares `n`. -/
def overlooked : List (String × List Nat) :=
  [("(() => \x7b try \x7b\x7d catch (\x7b a = n++ \x7d) \x7b\x7d \x7d)()", [0, 0, 1, 0, 1, 0, 0, 1, 1]),
   ("((a = n++) => \x7b var n \x7d)()", [0, 0, 0, 0, 1])]

/-- Changes of `n` that the name of a class and a static block bind. -/
def mistaken : List String :=
  ["(class n \x7b static m() \x7b n = 1 \x7d \x7d)", "(class \x7b static \x7b let n; n = 1 \x7d \x7d)"]

end Sample

/-- A change deep in an expression is refused, and changes of what is bound there are accepted. -/
theorem refuseEffects_direct_deep :
    Sample.Holds Sample.deep (fun c e => e.Reaches Node.written? "n" ∧
      ∃ y, c.refuseEffects (Summary.ofNode Sample.deep e) = .error (.sideEffect Sample.deep y none)) ∧
    Sample.Holds Sample.bound (fun c e => c.refuseEffects (Summary.ofNode Sample.bound e) = .ok ()) := by
  have hdeep : Sample.check Sample.deep (fun _ e => e.reachesAt Node.written? [0, 1, 0, 1, 1, 0, 1, 1, 0] "n") = true := by
    rw [Sample.check, Script.parseExpression?_eq_ofChars Sample.deep String.toList_ofList]
    decide +kernel
  have hbound : Sample.check Sample.bound (fun _ e => e.descendants.all (fun (path, m) =>
      m.written?.all (e.isHeld · path) && m.called?.isNone)) = true := by
    rw [Sample.check, Script.parseExpression?_eq_ofChars Sample.bound String.toList_ofList]
    decide +kernel
  constructor
  · obtain ⟨program, e, hprogram, hnames, he, h⟩ := Sample.holds_of_check hdeep
    have hwrites := Node.reaches_of_reachesAt h
    obtain ⟨y, -, hrefused, -⟩ := (refuseEffects_direct [] program.root Sample.deep e).1 "n" (by simp [hnames]) hwrites
    exact ⟨program, e, hprogram, hnames, he, hwrites, y, hrefused⟩
  · obtain ⟨program, e, hprogram, hnames, he, h⟩ := Sample.holds_of_check hbound
    refine ⟨program, e, hprogram, hnames, he, (refuseEffects_direct [] program.root Sample.bound e).2 ?_⟩
    intro path m x hm hx
    have hnode := List.all_eq_true.1 h _ (Node.mem_descendants hm)
    simp only [Bool.and_eq_true, Option.isNone_iff_eq_none] at hnode
    rcases hx with ⟨hwritten, -⟩ | ⟨hcalled, -⟩
    · rw [hwritten] at hnode
      exact hnode.1
    · rw [hcalled] at hnode
      cases hnode.2

/-- Changes that are not seen, although nothing binds the name; and changes that are refused, although something does. -/
theorem refuseEffects_misread :
    Sample.overlooked.Forall (fun (source, path) => Sample.Holds source (fun c e =>
      (∃ m, e.at? path = some m ∧ m.written? = some "n" ∧ e.isBound "n" path = false) ∧
        c.refuseEffects (Summary.ofNode source e) = .ok ())) ∧
    Sample.mistaken.Forall (fun source => Sample.Holds source (fun c e =>
      (∀ path m, e.at? path = some m → m.called? = none ∧ (m.written? = some "n" → e.isBound "n" path = true)) ∧
        c.refuseEffects (Summary.ofNode source e) = .error (.sideEffect source "n" none))) := by
  have hoverlooked : Sample.overlooked.all (fun (source, path) => Sample.check source (fun c e =>
      (e.at? path).any (fun m => m.written? == some "n") && !e.isBound "n" path &&
        decide (c.refuseEffects (Summary.ofNode source e) = .ok ()))) = true := by
    decide +kernel
  have hmistaken : Sample.mistaken.all (fun source => Sample.check source (fun c e =>
      e.descendants.all (fun (path, m) => m.called?.isNone && decide (m.written? = some "n" → e.isBound "n" path = true)) &&
        decide (c.refuseEffects (Summary.ofNode source e) = .error (.sideEffect source "n" none)))) = true := by
    decide +kernel
  refine ⟨List.forall_iff_forall_mem.2 (fun entry hentry => ?_), List.forall_iff_forall_mem.2 (fun source hsource => ?_)⟩
  · obtain ⟨program, e, hprogram, hnames, he, h⟩ := Sample.holds_of_check (List.all_eq_true.1 hoverlooked entry hentry)
    simp only [Bool.and_eq_true, Bool.not_eq_true', decide_eq_true_eq, Option.any_eq_true, beq_iff_eq] at h
    obtain ⟨⟨⟨m, hm, hwritten⟩, hbound⟩, haccepted⟩ := h
    exact ⟨program, e, hprogram, hnames, he, ⟨m, hm, hwritten, hbound⟩, haccepted⟩
  · obtain ⟨program, e, hprogram, hnames, he, h⟩ := Sample.holds_of_check (List.all_eq_true.1 hmistaken source hsource)
    simp only [Bool.and_eq_true, decide_eq_true_eq, all_eq_true, Option.isNone_iff_eq_none] at h
    exact ⟨program, e, hprogram, hnames, he, fun path m hm => h.1 _ (Node.mem_descendants hm), h.2⟩

end Context
end ReactiveTemplate
