import ReactiveTemplate.Expression.Summary
import ReactiveTemplate.Proofs.Script.Walking
/-!
# Reads — what the value of a server-side expression depends on

An expression that can be evaluated opens no scope and uses names only by reading them (`shapeOf_parts`), so the names of
its `Eval` are those that the walk through it meets (`reads_ofNode`).
-/
set_option linter.all false

namespace ReactiveTemplate
open List Script

namespace Eval

mutual
/-- The names that an evaluation looks up. -/
def names : Eval → List String
  | literal _ => []
  | identifier name => [name]
  | member object key => names object ++ names key
  | unary _ operand => names operand
  | binary _ left right | logical _ left right => names left ++ names right
  | conditional test first second => names test ++ names first ++ names second
  | template _ items | array items | sequence items => namesOf items

def namesOf : List Eval → List String
  | [] => []
  | e :: es => names e ++ namesOf es
end

mutual
lemma evaluate_congr {scope scope' : Json} : ∀ (e : Eval), (∀ x ∈ e.names, scope.field? x = scope'.field? x) →
    e.evaluate scope = e.evaluate scope'
  | literal _, _ => by simp only [evaluate]
  | identifier name, h => by simp only [evaluate, h name (mem_singleton_self name)]
  | member object key, h => by
    simp only [names, forall_mem_append] at h
    simp only [evaluate, evaluate_congr object h.1, evaluate_congr key h.2]
  | unary _ operand, h => by simp only [evaluate, evaluate_congr operand h]
  | binary _ left right, h => by
    simp only [names, forall_mem_append] at h
    simp only [evaluate, evaluate_congr left h.1, evaluate_congr right h.2]
  | logical _ left right, h => by
    simp only [names, forall_mem_append] at h
    simp only [evaluate, evaluate_congr left h.1, evaluate_congr right h.2]
  | conditional test first second, h => by
    simp only [names, forall_mem_append] at h
    simp only [evaluate, evaluate_congr test h.1.1, evaluate_congr first h.1.2, evaluate_congr second h.2]
  | template _ items, h => by simp only [evaluate, evaluateAll_congr items h]
  | array items, h => by simp only [evaluate, evaluateAll_congr items h]
  | sequence items, h => by simp only [evaluate, evaluateAll_congr items h]

lemma evaluateAll_congr {scope scope' : Json} : ∀ (es : List Eval), (∀ x ∈ namesOf es, scope.field? x = scope'.field? x) →
    evaluateAll scope es = evaluateAll scope' es
  | [], _ => rfl
  | e :: es, h => by
    simp only [namesOf, forall_mem_append] at h
    simp only [evaluateAll, evaluate_congr e h.1, evaluateAll_congr es h.2]
end

/-- Names that stand for a value of their own. -/
def constants : List String := ["undefined", "NaN", "Infinity"]

lemma names_ofName (name : String) : (ofName name).names = [name].filter (· ∉ constants) := by
  unfold ofName
  split
  · rfl
  · rfl
  · rfl
  · rename_i hundefined hnan hinfinity
    have hname : name ∉ constants := by simpa [constants] using ⟨hundefined, hnan, hinfinity⟩
    simp [names, hname]

/-- What is built from parts looks up the names of the parts behind some of its own. -/
def Shape.Passes (own : List String) : Shape → Prop
  | .refused _ => True
  | .parts build => ∀ es e, build es = some e → e.names = own ++ namesOf es

lemma passes_from0 (e : Eval) : (from0 e).Passes e.names
  | [], _, rfl => (append_nil _).symm

lemma passes_from1 {f : Eval → Eval} (h : ∀ a, (f a).names = a.names) : (from1 f).Passes []
  | [a], _, rfl => by simp [namesOf, h]

lemma passes_from2 {f : Eval → Eval → Eval} (h : ∀ a b, (f a b).names = a.names ++ b.names) : (from2 f).Passes []
  | [a, b], _, rfl => by simp [namesOf, h]

lemma passes_conditional : (from3 conditional).Passes []
  | [a, b, c], _, rfl => by simp [namesOf, names]

/-- A form that can be evaluated opens no scope, and the only use of a name it makes is to read it. -/
def Reading (form : Form) (shape : Shape) : Prop :=
  ∃ read : Option String, (∀ parts, form.useOf parts = read.map (.read, ·)) ∧
    (∀ parts, form.surrounds parts = (.inside [], .inside [])) ∧ shape.Passes (read.toList.filter (· ∉ constants))

lemma Reading.plain {form : Form} {shape : Shape} (huse : ∀ parts, form.useOf parts = none)
    (hsurrounds : ∀ parts, form.surrounds parts = (.inside [], .inside [])) (h : shape.Passes []) : Reading form shape :=
  ⟨none, huse, hsurrounds, h⟩

lemma reading_shapeOf (isPrivate : Bool) (form : Form) :
    (∃ reason, shapeOf isPrivate form = .refused reason) ∨ Reading form (shapeOf isPrivate form) := by
  unfold shapeOf
  split
  -- literals, names of members and holes
  case h_1 | h_2 | h_3 | h_4 | h_7 | h_17 => exact .inr (.plain (fun _ => rfl) (fun _ => rfl) (passes_from0 (literal _)))
  -- templates, sequences and arrays
  case h_5 | h_15 | h_16 => exact .inr (.plain (fun _ => rfl) (fun _ => rfl) (fun _ _ he => by cases he; rfl))
  case h_6 name => exact .inr ⟨some name, fun _ => rfl, fun _ => rfl, names_ofName name ▸ passes_from0 _⟩
  -- members and operators
  case h_8 =>
    split
    · exact .inl ⟨_, rfl⟩
    · exact .inr (.plain (fun _ => rfl) (fun _ => rfl) (passes_from2 (fun _ _ => rfl)))
  case h_10 =>
    split
    · exact .inr (.plain (fun _ => rfl) (fun _ => rfl) (passes_from1 (fun _ => rfl)))
    · exact .inl ⟨_, rfl⟩
  case h_11 =>
    split
    · exact .inl ⟨_, rfl⟩
    · split
      · exact .inr (.plain (fun _ => rfl) (fun _ => rfl) (passes_from2 (fun _ _ => rfl)))
      · exact .inl ⟨_, rfl⟩
  case h_9 | h_12 => exact .inr (.plain (fun _ => rfl) (fun _ => rfl) (passes_from2 (fun _ _ => rfl)))
  case h_13 => exact .inr (.plain (fun _ => rfl) (fun _ => rfl) passes_conditional)
  case h_14 => exact .inr (.plain (fun _ => rfl) (fun _ => rfl) (passes_from1 (fun _ => rfl)))
  case h_18 | h_19 => exact .inl ⟨_, rfl⟩

/-! ## The walk through an expression -/

/-- Uses of names that are all reads of the outside, of these names and the constants. -/
def Reads (uses : List Use) (names : List String) : Prop :=
  (∀ u ∈ uses, u.kind = .read ∧ u.reach = .free) ∧ names = (uses.map (·.name)).filter (· ∉ constants)

lemma Reads.append {us vs : List Use} {xs ys : List String} (h : Reads us xs) (h' : Reads vs ys) :
    Reads (us ++ vs) (xs ++ ys) :=
  ⟨forall_mem_append.2 ⟨h.1, h'.1⟩, by rw [map_append, filter_append, ← h.2, ← h'.2]⟩

lemma reads_ownUse {scopes : List (List String)} (h : ∀ names ∈ scopes, names = []) (read : Option String) (span : Span) :
    Reads (ownUse [] scopes (read.map (.read, ·)) span) (read.toList.filter (· ∉ constants)) := by
  cases read with
  | none => exact ⟨fun _ hu => absurd hu not_mem_nil, rfl⟩
  | some name =>
    have hreach : reachOf [] scopes name = .free := by
      have hnone : ∀ names ∈ scopes, name ∉ names := fun names hmem => by simp [h names hmem]
      simpa [reachOf] using hnone
    exact ⟨fun u hu => by simp_all [ownUse], rfl⟩

mutual
lemma reads_ofNode : ∀ (n : Node) {e : Eval} {scopes : List (List String)}, ofNode n = .ok e →
    (∀ names ∈ scopes, names = []) → Reads (n.uses [] scopes) e.names
  | .node form span parts, e, scopes, h, hscopes => by
    unfold ofNode at h
    rcases reading_shapeOf (hasPrivateName parts) form with ⟨reason, hrefused⟩ | ⟨read, huse, hsurrounds, hpasses⟩
    · rw [hrefused] at h
      cases h
    · split at h
      · cases h
      · rename_i build hshape
        rw [hshape] at hpasses
        split at h
        · rename_i es hes
          cases hbuild : build es with
          | none =>
            rw [hbuild] at h
            cases h
          | some e' =>
            rw [hbuild] at h
            cases h
            rw [Node.uses_node, huse, hsurrounds, hpasses es e hbuild]
            exact (reads_ownUse hscopes read span).append (reads_ofNodes parts hes hscopes)
        · cases h

lemma reads_ofNodes : ∀ (ns : List Node) {es : List Eval} {scopes : List (List String)}, ofNodes ns = .ok es →
    (∀ names ∈ scopes, names = []) → Reads (Node.usesOf [] scopes (.inside []) (.inside []) ns) (namesOf es)
  | [], es, scopes, h, _ => by
    cases h
    exact ⟨fun _ hu => absurd hu not_mem_nil, rfl⟩
  | n :: ns, es, scopes, h, hscopes => by
    unfold ofNodes at h
    split at h
    · cases h
    · rename_i e he
      split at h
      · rename_i es' hes
        cases h
        rw [Node.usesOf_cons]
        exact (reads_ofNode n he (forall_mem_cons.2 ⟨rfl, hscopes⟩)).append (reads_ofNodes ns hes hscopes)
      · cases h
end

end Eval

/-- **A server-side expression depends on its free names alone.** What it looks up are the names it reads, constants
apart; it changes nothing and calls nothing. -/
theorem evaluate_of_free {source : String} {s : Summary} {e : Eval} (hs : Summary.ofSource source = .ok s)
    (he : s.eval = .ok e) :
    (∀ x, x ∈ e.names ↔ x ∈ s.free ∧ x ∉ Eval.constants) ∧ s.writes = [] ∧ s.calls = [] ∧
      Eval.ofSource source = .ok e ∧
      ∀ scope scope' : Json, (∀ x ∈ s.free, x ∉ Eval.constants → scope.field? x = scope'.field? x) →
        e.evaluate scope = e.evaluate scope' := by
  have hsummary : ∃ trimmed n, s = .ofNode trimmed n := by
    unfold Summary.ofSource at hs
    simp only at hs
    split at hs
    · exact ⟨_, _, (Except.ok.inj hs).symm⟩
    · cases hs
  obtain ⟨trimmed, n, rfl⟩ := hsummary
  obtain ⟨hread, hnames⟩ := Eval.reads_ofNode n he (forall_mem_nil _)
  have hmem (x : String) : x ∈ e.names ↔ x ∈ (Summary.ofNode trimmed n).free ∧ x ∉ Eval.constants := by
    have hfilter : (n.uses [] []).filter (fun u => u.kind == .read && u.reach != .inner) = n.uses [] [] := by
      refine filter_eq_self.2 (fun u hu => ?_)
      rw [(hread u hu).1, (hread u hu).2]
      rfl
    simp [Summary.ofNode, Summary.outerNames, Node.contextUses, hfilter, hnames]
  have hwrites : (Summary.ofNode trimmed n).writes = [] := by
    refine map_eq_nil_iff.2 (filter_eq_nil_iff.2 (fun u hu => ?_))
    simp [Use.isWrite, (hread u hu).1]
  have hcalls : (Summary.ofNode trimmed n).calls = [] := by
    have hnone : (n.uses [] []).filter (fun u => u.kind == .called && u.reach != .inner) = [] :=
      filter_eq_nil_iff.2 (fun u hu => by simp [(hread u hu).1])
    simp [Summary.ofNode, Summary.outerNames, Node.contextUses, hnone]
  refine ⟨hmem, hwrites, hcalls, ?_, fun scope scope' h => ?_⟩
  · have heval (fault : String → Fault) : (Summary.ofNode trimmed n).eval.mapError fault = .ok e := by
      rw [he]
      rfl
    simp [Eval.ofSource, hs, Summary.refuseWrites, hwrites, heval, bind, Except.bind]
  · exact e.evaluate_congr (fun x hx => h x ((hmem x).1 hx).1 ((hmem x).1 hx).2)

theorem evaluate_of_free_conditional : ∃ s e, Summary.ofSource "a ? b.c : undefined" = .ok s ∧
    s.free = ["a", "b", "undefined"] ∧ s.eval = .ok e ∧ ∀ scope scope' : Json, scope.field? "a" = scope'.field? "a" →
      scope.field? "b" = scope'.field? "b" → e.evaluate scope = e.evaluate scope' := by
  have hsample : (Summary.ofSource "a ? b.c : undefined").toOption.any (fun s =>
      s.free = ["a", "b", "undefined"] && s.eval.toOption.isSome) = true := by
    decide +kernel
  cases hs : Summary.ofSource "a ? b.c : undefined" with
  | error fault => simp [hs, Except.toOption] at hsample
  | ok s =>
    simp only [hs, Except.toOption, Option.any_some, Bool.and_eq_true, decide_eq_true_eq] at hsample
    cases he : s.eval with
    | error reason => simp [he] at hsample
    | ok e =>
      refine ⟨s, e, rfl, hsample.1, he, fun scope scope' ha hb => ?_⟩
      refine (evaluate_of_free hs he).2.2.2.2 scope scope' ?_
      simp [hsample.1, ha, hb, Eval.constants]

end ReactiveTemplate
