import ReactiveTemplate.Proofs.Reactive.Calls
/-!
# Statements — handlers of several statements

The expression that the value of an event starts with decides what becomes of the whole value.
-/
set_option linter.all false

namespace ReactiveTemplate
open List

lemma Edit.sublist_splice {source : List Char} : ∀ {es : List Edit} (cursor : Nat), (∀ m ∈ es, m.stop = m.start) →
    source.drop cursor <+ splice source cursor es
  | [], _, _ => .refl _
  | m :: es, cursor, h => by
    have hcursor : max (max cursor m.start) m.stop = cursor + (m.start - cursor) := by
      rw [h m (.head _)]
      omega
    have hrest : source.drop (cursor + (m.start - cursor)) <+ _ := sublist_splice _ (fun x hx => h x (.tail _ hx))
    rw [splice, hcursor, append_assoc]
    nth_rewrite 1 [← take_append_drop (m.start - cursor) (source.drop cursor)]
    rw [drop_drop]
    exact (Sublist.refl _).append (hrest.trans (sublist_append_right _ _))

lemma sublist_of_instrumentSnippet {source text : String} {context : List String} {vars vars' : IndexedSet String}
    (h : instrumentSnippet source context vars = .ok (text, vars')) : source.toList <+ text.toList := by
  obtain ⟨program, -, rfl, -⟩ := instrumentSnippet_eq_ok.1 h
  rw [Edit.apply, String.toList_ofList]
  refine Edit.sublist_splice 0 (fun m hm => ?_)
  obtain ⟨call, -, hm⟩ := mem_flatMap.1 (mem_mergeSort.1 hm)
  rw [Invalidation.Call.edits_eq] at hm
  rcases mem_pair.1 hm with rfl | rfl <;> rfl

namespace Handler

/-- What stands for a value that starts with an expression of a shape, whatever follows the expression. -/
def stand? (context : Context) : Shape → Option String
  | .call callee arguments =>
    if callee != "push" && context.isDeclared callee then none else some (push callee arguments)
  | .identifier name => some (if context.isDeclared name then name ++ "(e)" else push name none)
  | _ => none

def isKept (context : Context) (source : String) : Bool :=
  match Summary.ofSource source with
  | .error _ => true
  | .ok summary => summary.shape != .arrow && summary.shape != .function && (stand? context summary.shape).isNone

lemma ofValue_eq_bind (context : Context) (vars : IndexedSet String) {value : String}
    (hplain : verbatim? (Text.trim value) = none) : ofValue context vars value =
      (wrap context (Text.trim value)).bind (fun wrapped => instrumentSnippet wrapped context.declared vars) := by
  simp only [ofValue, hplain]
  rfl

lemma wrap_of_ok {context : Context} {source : String} {summary : Summary}
    (h : Summary.ofSource source = .ok summary) : wrap context source = ofShape context source summary.shape := by
  unfold wrap
  split
  · rename_i found hfound
    cases h.symm.trans hfound
    rfl
  · rename_i fault hfault
    cases h.symm.trans hfault

lemma ofShape_of_stand? {context : Context} {source text : String} {shape : Shape}
    (h : stand? context shape = some text) : ofShape context source shape = .ok (arrow text) := by
  cases shape with
  | call callee arguments =>
    rw [stand?] at h
    split at h
    · cases h
    · rename_i hcallee
      rw [ofShape, if_neg hcallee, Option.some.inj h]
  | identifier name => rw [ofShape, Option.some.inj h]
  | _ => cases h

lemma wrap_of_isKept {context : Context} {source : String} (hparse : (Script.parseProgram? source).isSome = true)
    (h : isKept context source = true) : wrap context source = .ok (arrow source) := by
  unfold isKept at h
  cases hsummary : Summary.ofSource source with
  | error fault =>
    unfold wrap
    split
    · rename_i found hfound
      cases hsummary.symm.trans hfound
    · exact if_pos hparse
  | ok summary =>
    rw [wrap_of_ok hsummary]
    simp only [hsummary, Bool.and_eq_true, bne_iff_ne] at h
    cases hshape : summary.shape with
    | call callee arguments =>
      rw [hshape, stand?] at h
      split at h
      · rename_i hcallee
        rw [ofShape, if_pos hcallee]
      · cases h.2
    | identifier name =>
      rw [hshape] at h
      cases h.2
    | arrow => exact absurd hshape h.1.1
    | function => exact absurd hshape h.1.2
    | other => rw [ofShape]

/-- **What becomes of a list of statements.**  If it is kept, the handler is the function of the event around the whole
value, with calls for the page put in between and no character lost.  A name at its start, or a call of a function that
the component does not have, stands for all of it: the handler is the same whatever follows.  What starts with an arrow
function is the handler itself, and what starts with a function is that function, if it can be read as one. -/
theorem ofValue_statements (context : Context) (vars : IndexedSet String) {value : String} {program : Script.Program}
    (hplain : verbatim? (Text.trim value) = none) (hparse : Script.parseProgram? (Text.trim value) = some program) :
    (isKept context (Text.trim value) = true →
      ofValue context vars value = instrumentSnippet (arrow (Text.trim value)) context.declared vars ∧
        ∀ handler vars', ofValue context vars value = .ok (handler, vars') →
          (Text.trim value).toList <+ handler.toList) ∧
    ∀ summary, Summary.ofSource (Text.trim value) = .ok summary →
      (∀ text, stand? context summary.shape = some text →
        ∀ value' summary', verbatim? (Text.trim value') = none → Summary.ofSource (Text.trim value') = .ok summary' →
          summary'.shape = summary.shape →
            ofValue context vars value' = instrumentSnippet (arrow text) context.declared vars) ∧
      (summary.shape = .arrow → ofValue context vars value = instrumentSnippet (Text.trim value) context.declared vars) ∧
      (summary.shape = .function → ofValue context vars value = (standardFunction (Text.trim value)).bind
        (fun f => instrumentSnippet (arrow (f ++ "()")) context.declared vars)) := by
  refine ⟨fun hkept => ?_, fun summary hsummary => ⟨fun text htext value' summary' hplain' hsummary' hshape => ?_,
    fun hshape => ?_, fun hshape => ?_⟩⟩
  · have hvalue : ofValue context vars value = instrumentSnippet (arrow (Text.trim value)) context.declared vars := by
      rw [ofValue_eq_bind context vars hplain, wrap_of_isKept (hparse ▸ rfl) hkept, Except.bind]
    refine ⟨hvalue, fun handler vars' h => ?_⟩
    have hall := sublist_of_instrumentSnippet (hvalue.symm.trans h)
    rw [arrow, String.toList_append, String.toList_append] at hall
    exact ((sublist_append_right _ _).trans (sublist_append_left _ _)).trans hall
  · rw [ofValue_eq_bind context vars hplain', wrap_of_ok hsummary', hshape, ofShape_of_stand? htext, Except.bind]
  · rw [ofValue_eq_bind context vars hplain, wrap_of_ok hsummary, hshape, ofShape, Except.bind]
  · rw [ofValue_eq_bind context vars hplain, wrap_of_ok hsummary, hshape, ofShape]
    cases standardFunction (Text.trim value) with
    | error fault => rw [Except.map, Except.bind, Except.bind]
    | ok f => rw [Except.map, Except.bind, Except.bind]

theorem ofValue_statements_kept : ∃ program handler vars', Script.parseProgram? "n = 1; f()" = some program ∧
    program.root.statements.length = 2 ∧ isKept ⟨["n", "f"], []⟩ "n = 1; f()" = true ∧
    ofValue ⟨["n", "f"], []⟩ .empty " n = 1; f()" = .ok (handler, vars') ∧ "n = 1; f()".toList <+ handler.toList := by
  have htrim : Text.trim " n = 1; f()" = "n = 1; f()" := by decide +kernel
  have hparse : (Script.parseProgram? "n = 1; f()").any (fun program => program.root.statements.length == 2) = true := by
    decide +kernel
  have hkept : isKept ⟨["n", "f"], []⟩ "n = 1; f()" = true := by decide +kernel
  have hok : (ofValue ⟨["n", "f"], []⟩ .empty " n = 1; f()").toOption.isSome = true := by decide +kernel
  obtain ⟨program, hprogram, hlength⟩ := (Option.any_eq_true _ _).1 hparse
  cases hvalue : ofValue ⟨["n", "f"], []⟩ .empty " n = 1; f()" with
  | error fault =>
    rw [hvalue] at hok
    cases hok
  | ok result =>
    have hplain : verbatim? (Text.trim " n = 1; f()") = none := by
      rw [htrim]
      decide +kernel
    have hall := (ofValue_statements ⟨["n", "f"], []⟩ .empty hplain (htrim.symm ▸ hprogram)).1 (htrim.symm ▸ hkept)
    rw [htrim] at hall
    exact ⟨program, result.1, result.2, hprogram, beq_iff_eq.1 hlength, hkept, rfl, hall.2 _ _ hvalue⟩

/-- The second of two calls is lost if the component does not have the first function. -/
theorem ofValue_statements_lost :
    (Script.parseProgram? "a(); b()").map (·.root.statements.length) = some 2 ∧
      (ofValue {} .empty "a(); b()").toOption.map (·.1) = some "(e) => \x7b STX.push('a', $, e) \x7d" ∧
      (instrumentSnippet (arrow "a(); b()") [] .empty).toOption.map (·.1) = some "(e) => \x7b a(); b() \x7d" := by
  decide +kernel

end Handler
end ReactiveTemplate
