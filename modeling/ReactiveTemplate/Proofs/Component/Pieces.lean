import ReactiveTemplate.Proofs.Characters
import ReactiveTemplate.Proofs.Template.Artifacts
/-!
# Pieces — what has been read of a payload

A payload is put together from the script, the interpolations and the handlers.
-/
set_option linter.all false

namespace ReactiveTemplate
namespace Payload

def IsReadExpression (text : String) : Prop :=
  ∃ isEscaped source, (Script.parseExpression? source).isSome = true ∧ text = expressionText isEscaped source

/-- A handler that a value became; unless the value asks to be taken as it is, the handler has been read. -/
def IsReadHandler (context : Context) (handler : String) : Prop :=
  ∃ value vars vars', Handler.ofValue context vars value = .ok (handler, vars') ∧
    (Handler.verbatim? (Text.trim value) = none → ∃ source program edits, Script.parseProgram? source = some program ∧
      handler = Edit.apply source edits)

structure IsRead (context : Context) (p : Payload) : Prop where
  expressions : ∀ text ∈ p.expressions.items, IsReadExpression text
  handlers : ∀ handler ∈ p.handlers.items, IsReadHandler context handler

variable {context : Context} {p q : Payload}

lemma isReadHandler_of_ofValue {vars vars' : IndexedSet String} {value handler : String}
    (h : Handler.ofValue context vars value = .ok (handler, vars')) : IsReadHandler context handler := by
  refine ⟨value, vars, vars', h, fun hverbatim => ?_⟩
  rcases Handler.ofValue_cases h with ⟨hsome, -⟩ | ⟨source, hsnippet⟩
  · cases hverbatim.symm.trans hsome
  · obtain ⟨program, hparse, htext, -⟩ := instrumentSnippet_eq_ok.1 hsnippet
    exact ⟨source, program, _, hparse, htext⟩

lemma IsRead.change (hp : p.IsRead context) (h : Change context p q) : q.IsRead context := by
  cases h with
  | element handle => exact ⟨hp.expressions, hp.handlers⟩
  | attr name => exact ⟨hp.expressions, hp.handlers⟩
  | expression isEscaped hsource =>
    refine ⟨fun text htext => ?_, hp.handlers⟩
    rcases IndexedSet.mem_insert.1 htext with htext | rfl
    · exact hp.expressions text htext
    · exact ⟨isEscaped, _, hsource, rfl⟩
  | watch hfits hnames =>
    rw [watched, foldl_link]
    exact ⟨hp.expressions, hp.handlers⟩
  | event name helement hhandler =>
    refine ⟨hp.expressions, fun handler hmem => ?_⟩
    rcases IndexedSet.mem_insert.1 hmem with hmem | rfl
    · exact hp.handlers handler hmem
    · exact isReadHandler_of_ofValue hhandler

lemma IsRead.changes (hp : p.IsRead context) (h : Changes context p q) : q.IsRead context := by
  induction h with
  | refl => exact hp
  | tail _ hstep ih => exact ih.change hstep

end Payload

namespace Component

open Markup (Tree Element)

variable {file : String} {sequence : Sequence} {assetOf : String → Option String} {e : Element} {position : Position}
  {children : List Tree} {built : Built}

def trailing : String :=
  "<component name=\"c\"><p>$\x7ba; b\x7d</p><script>let a = 1, b;</script></component>"

/-- What the page registers. -/
def unreadable : String :=
  "STX.r('c', function (STX) \x7b
  const _$line = 1; const _$file = \"\";
  const [_$bind, _$bind_prop, _$bind_prop_tpl] = [STX.bind, STX.bind_prop, STX.bind_prop_tpl];
  return \x7b
    f: _$file, l: _$line,
    e: ['_i_qFAX5bxJlqk'],
    w: [_$bind(0, 0)],
    v: [[0]],
    i: function ($) \x7b
      const [_$escape, _$i] = [STX.escape, $.invalidate];
let a = 1, b;
      return \x7b e: [() => _$escape(a; b)] \x7d;
    \x7d
  \x7d;
\x7d);
"

set_option maxRecDepth 100000 in
lemma parseProgram?_unreadable : Script.parseProgram? unreadable = none := by
  rw [Script.parseProgram?_eq_ofChars unreadable String.toList_ofList]
  decide +kernel

end Component
end ReactiveTemplate
