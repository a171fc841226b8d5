import ReactiveTemplate.Proofs.Component.Tables
/-!
# Built — what holds of every component

A built component went through four stages: its references, its script, the start of its payload, and the binding of its
template (`build_of_ok`).
-/
set_option linter.all false

namespace ReactiveTemplate
open List

/-- The body of a payload: a script with calls around its writes to the context, which name their variables by the
numbers of a table. -/
def InstrumentedScript.Numbered (context : Context) (vars : IndexedSet String) (source : String)
    (program : Script.Program) (body : String) : Prop :=
  ∃ calls : List Invalidation.Call,
    calls.map (·.use) = Invalidation.contextWrites (program.root.contextUses context.declared) ∧
    (∀ c ∈ calls, vars.get? c.number = some c.use.name) ∧
    body = Text.trim (Edit.apply source (moves source program ++ calls.flatMap Invalidation.Call.edits))

namespace Component

open Markup (Tree Element)
open Binding (Gives gives_bind gives_pure gives_reference gives_bindTemplate)

/-! ## References -/

/-- A payload in which references have been entered, with classes made from their names. -/
structure Refers (s : Sequence) (p q : Payload) (names : List String) : Prop where
  payload : q = { p with
    elements := p.elements.insertAll (names.map s.referenceHandle), references := q.references }
  names : q.references.map (·.1) = p.references.map (·.1) ++ names
  numbers : ∀ r ∈ q.references, r ∈ p.references ∨ q.elements.get? r.2 = some (s.referenceHandle r.1)

variable {b b' : Binder} {file : String}

lemma gives_references {nodes : List Tree} {start names : List String}
    (h : Gives (nodes.foldlM (Binding.reference file) start) b names b') (hstart : start.Nodup) :
    b'.sequence = b.sequence ∧ b'.dependencies = b.dependencies ∧ names.Nodup ∧
      ∃ added, added = (nodes.filterMap Tree.element?).filterMap referenceName? ∧ names = start ++ added ∧
        Refers b.sequence b.payload b'.payload added := by
  induction nodes generalizing b start with
  | nil =>
    obtain ⟨rfl, rfl⟩ := gives_pure.1 h
    exact ⟨rfl, rfl, hstart, [], rfl, (append_nil _).symm, rfl, (append_nil _).symm, fun r hr => .inl hr⟩
  | cons t nodes ih =>
    obtain ⟨names₁, b₁, h1, h2⟩ := gives_bind.1 h
    have hhead : ((t :: nodes).filterMap Tree.element?).filterMap referenceName? =
        (t.element?.bind referenceName?).toList ++ (nodes.filterMap Tree.element?).filterMap referenceName? := by
      rw [filterMap_filterMap, filterMap_filterMap, filterMap_cons]
      cases t.element?.bind referenceName? <;> rfl
    rw [hhead]
    obtain ⟨hnone, rfl, rfl⟩ | ⟨name, handle, hname, rfl, hnew, rfl, rfl⟩ := gives_reference h1
    · rw [hnone]
      exact ih h2 hstart
    · obtain ⟨hsequence, hdependencies, hnodup, added, rfl, rfl, hpayload, hnames, hnumbers⟩ :=
        ih h2 (concat_eq_append ▸ hstart.concat hnew)
      refine ⟨hsequence, hdependencies, hnodup, _, rfl, by simp [hname], ?_, ?_, fun r hr => ?_⟩
      · rw [hpayload, hname]
        rfl
      · simp [hnames, hname]
      · rcases hnumbers r hr with hr | hget
        · refine (mem_append.1 hr).imp_right (fun hr => ?_)
          rw [mem_singleton.1 hr, hpayload]
          exact (IndexedSet.extends_insertAll _ _).get? (b.payload.elements.get?_insert _)
        · exact .inr hget

/-! ## From the element to the payload -/

namespace Built

def references (built : Built) : List String := built.payload.references.map (·.1)

def injected (built : Built) : List String := built.references ++ built.head.params.client.map (·.name)

def source (built : Built) (parts : Parts) : String :=
  contextSource built.references built.head.params.client parts.scriptText

def context (built : Built) (program : Script.Program) : Context := Context.ofProgram built.injected program.root

end Built

lemma analyse_of_ok {source : String} {injected : List String} {analysed : Analysed}
    (h : analyse source injected = .ok analysed) :
    ∃ program, Script.parseProgram? source = some program ∧
      analysed.context = Context.ofProgram injected program.root ∧
      analysed.vars.items.Nodup ∧
      InstrumentedScript.Numbered analysed.context analysed.vars source program analysed.script.body := by
  unfold analyse at h
  cases hparse : Script.parseProgram? source with
  | none =>
    rw [hparse] at h
    cases h
  | some program =>
    rw [hparse] at h
    simp only at h
    cases hscript : instrumentScript source (Context.ofProgram injected program.root).declared IndexedSet.empty with
    | error fault =>
      rw [hscript] at h
      cases h
    | ok result =>
      obtain ⟨script, vars⟩ := result
      rw [hscript] at h
      cases h
      obtain ⟨program', hparse', hbody, rfl⟩ := instrumentScript_of_ok hscript
      obtain rfl : program = program' := Option.some.inj (hparse.symm.trans hparse')
      exact ⟨program, rfl, rfl, IndexedSet.nodup_insertAll _ nodup_nil, _, Invalidation.map_use_calls _ _,
        fun c hc => Invalidation.get?_of_mem_calls _ hc, hbody⟩

lemma bindTemplate_of_gives {assetOf : String → Option String} {parts : Parts} {head : Head} {ts : List Tree}
    (h : Gives (bindTemplate file assetOf parts head) b ts b') (hb : b.payload.references = []) :
    ∃ analysed start, (∀ r ∈ start.references, r.2 < start.elements.size) ∧
      analyse (contextSource (start.references.map (·.1)) head.params.client parts.scriptText)
        (start.references.map (·.1) ++ head.params.client.map (·.name)) = .ok analysed ∧
      start = { b.payload with
        elements := start.elements, references := start.references, vars := analysed.vars, body := analysed.script.body
        imports := analysed.script.imports, exports := analysed.script.exports, hooks := start.hooks } ∧
      Payload.Changes analysed.context start b'.payload := by
  obtain ⟨names, b₁, analysed, hooks, hreferences, hanalysed, hpasses⟩ := gives_bindTemplate h
  obtain ⟨-, -, -, added, -, rfl, hrefers⟩ := gives_references hreferences nodup_nil
  obtain ⟨hpayload, hnames, hnumbers⟩ := hrefers
  rw [hb] at hnames hnumbers
  refine ⟨analysed, _, fun r hr => ?_, ?_, ?_, hpasses.changes⟩
  · exact IndexedSet.lt_size_of_get? ((hnumbers r hr).resolve_left not_mem_nil)
  · rw [hnames]
    exact hanalysed
  · rw [hpayload]

lemma content_foldl_dependsOn (names : List String) : ∀ a : Asset, (names.foldl Asset.dependsOn a).content = a.content := by
  induction names with
  | nil => exact fun a => rfl
  | cons name names ih =>
    intro a
    rw [foldl_cons, ih, Asset.dependsOn]
    split <;> rfl

lemma consistent_start {context : Context} {p : Payload} (hreferences : ∀ r ∈ p.references, r.2 < p.elements.size)
    (hwatchers : p.watchers = ⟨[]⟩) (hevents : p.events = ⟨[]⟩) (hhandlers : p.handlers = ⟨[]⟩)
    (hdependents : p.dependents = []) : p.Consistent context where
  watchers := by simp [hwatchers]
  events := by simp [hevents]
  references := hreferences
  keys := by simp [hdependents]
  dependents := by simp [hdependents]
  handlers := by simp [hhandlers]

lemma exact_start {context : Context} {p : Payload} (hvars : p.vars.items.Nodup) (hwatchers : p.watchers = ⟨[]⟩) :
    p.Exact context where
  vars := hvars
  watchers := by simp [hwatchers]
  listed _ hnumber := by simp [hwatchers, IndexedSet.get?] at hnumber
  numbered hw := by simp [hwatchers] at hw

variable {sequence : Sequence} {assetOf : String → Option String} {e : Element} {position : Position}
  {children : List Tree} {built : Built}

lemma build_cases (h : build file sequence assetOf e position children = .ok built) :
    ∃ parts binder, Parts.ofChildren file children = .ok parts ∧ Head.ofElement e = .ok built.head ∧
      (bindTemplate file assetOf parts built.head).run
          { sequence := sequence.salted built.head.name
            payload := { tag := built.head.tag, file := file, line := position.line } } = .ok (built.template, binder) ∧
      built.payload = binder.payload ∧
      built.script = binder.dependencies.foldl Asset.dependsOn (Asset.new .javascript binder.payload.render) ∧
      built.style = if parts.styleText.isEmpty then none else some (Asset.new .stylesheet parts.styleText) := by
  unfold build at h
  obtain ⟨parts, hparts, h⟩ := exists_ok_of_bind h
  obtain ⟨head, hhead, h⟩ := exists_ok_of_bind h
  obtain ⟨⟨template, binder⟩, hrun, h⟩ := exists_ok_of_bind h
  cases h
  refine ⟨parts, binder, hparts, ?_, hrun, rfl, by dsimp only, by dsimp only⟩
  cases hread : Head.ofElement e with
  | error fault => rw [hread] at hhead; cases hhead
  | ok => rw [hread] at hhead; cases hhead; rfl

lemma build_of_ok (h : build file sequence assetOf e position children = .ok built) :
    ∃ parts program start, Parts.ofChildren file children = .ok parts ∧
      Script.parseProgram? (built.source parts) = some program ∧
      Payload.Consistent (built.context program) start ∧ Payload.Exact (built.context program) start ∧
      InstrumentedScript.Numbered (built.context program) start.vars (built.source parts) program start.body ∧
      (start.expressions = ⟨[]⟩ ∧ start.handlers = ⟨[]⟩) ∧ Payload.Changes (built.context program) start built.payload ∧
      built.output.payload = built.payload.render := by
  obtain ⟨parts, binder, hparts, -, hrun, hpayload, hscript, -⟩ := build_cases h
  obtain ⟨head, payload, script, style, template⟩ := built
  subst hpayload hscript
  obtain ⟨analysed, start, hreferences, hanalysed, hstart, hchanges⟩ := bindTemplate_of_gives hrun rfl
  obtain ⟨program, hparse, hcontext, hvars, hnumbered⟩ := analyse_of_ok hanalysed
  rw [← hchanges.extends.references] at hparse hcontext hnumbered
  refine ⟨parts, program, start, hparts, hparse, ?_, ?_, ?_, ⟨hstart ▸ rfl, hstart ▸ rfl⟩, ?_, content_foldl_dependsOn _ _⟩
  · exact consistent_start hreferences (hstart ▸ rfl) (hstart ▸ rfl) (hstart ▸ rfl) (hstart ▸ rfl)
  · have hsame : start.vars = analysed.vars := by rw [hstart]
    exact exact_start (hsame ▸ hvars) (hstart ▸ rfl)
  · rw [hcontext] at hnumbered
    rw [hstart]
    exact hnumbered
  · rw [hcontext] at hchanges
    exact hchanges

/-! ## The payload of a component -/

/-- The rows of the section of variables: for each variable, in order, the watchers that depend on it. -/
def varRows (p : Payload) : List String := (range p.vars.size).map (fun i => Payload.numbersText (p.dependentsOf i))

lemma commas_varRows_isEmpty (p : Payload) : (commas (varRows p)).isEmpty = (varRows p).isEmpty := by
  unfold varRows
  cases range p.vars.size with
  | nil => rfl
  | cons i numbers =>
    cases numbers <;> simp [commas, Payload.numbersText]

def Shows (text part : String) : Prop := ∃ before behind, text = before ++ part ++ behind

lemma Shows.refl (part : String) : Shows part part := ⟨"", "", by simp⟩

lemma Shows.behind {text part : String} (h : Shows text part) (other : String) : Shows (other ++ text) part := by
  obtain ⟨before, behind, rfl⟩ := h
  exact ⟨other ++ before, behind, by simp [String.append_assoc]⟩

lemma Shows.before {text part : String} (h : Shows text part) (other : String) : Shows (text ++ other) part := by
  obtain ⟨before, behind, rfl⟩ := h
  exact ⟨before, behind ++ other, by simp [String.append_assoc]⟩

lemma render_shows_varRows (p : Payload) :
    Shows p.render (if (varRows p).isEmpty then "" else "    v: [" ++ commas (varRows p) ++ "],\n") := by
  have hsection : Payload.tableText "v" (varRows p) =
      if (varRows p).isEmpty then "" else "    v: [" ++ commas (varRows p) ++ "],\n" := by
    simp [Payload.tableText, commas_varRows_isEmpty]
  have htables : Shows p.tables (Payload.tableText "v" (varRows p)) := ((Shows.refl _).behind _).before _
  rw [← hsection]
  exact ((htables.behind _).before _).before _

/-! ### A component that counts -/

namespace Counter

def text (s : String) : Tree := .node (.text s) {} []

def tagged (tag : String) (attributes : List (String × String)) (children : List Tree) : Tree :=
  .node (.element ⟨tag, attributes.map (fun a => ⟨a.1, a.1, a.2, none⟩)⟩) {} children

def host : Element := ⟨"component", [⟨"name", "name", "count-up", none⟩]⟩

/-- A component with a reference, a text, an attribute of two expressions, a handler, and a write in its script. -/
def content : List Tree :=
  [tagged "p" [("title", "${n} of ${m}"), ("ref", "box")] [text "${n}"], tagged "button" [("onclick", "n += m")] [],
   tagged "script" [] [text "let m = 9, n = 0; n = 1;"]]

def result : Except Diagnostic Built := build "" (.new "") (fun _ => none) host {} content

lemma result_eq_ok : ∃ built, result = .ok built ∧ built.payload.vars.items = ["n", "m"] ∧
    built.payload.dependents = [(0, [0, 1]), (1, [0])] ∧ built.payload.references = [("box", 0)] ∧
    built.payload.handlers.size = 1 := by
  have h : result.toOption.any (fun b => decide (b.payload.vars.items = ["n", "m"] ∧
      b.payload.dependents = [(0, [0, 1]), (1, [0])] ∧ b.payload.references = [("box", 0)] ∧
      b.payload.handlers.size = 1)) = true := by
    decide +kernel
  obtain ⟨built, hresult, h⟩ := exists_ok_of_any h
  exact ⟨built, hresult, of_decide_eq_true h⟩

end Counter

/-- **The reactive graph of a component is exact.**  A watcher is listed under a variable exactly if the variable is one
of the context and an expression of the watcher reads it; and every variable of the context that a watcher reads has a
number. -/
theorem build_exact (h : build file sequence assetOf e position children = .ok built) :
    ∃ parts program, Parts.ofChildren file children = .ok parts ∧
      Script.parseProgram? (built.source parts) = some program ∧
      (∀ i name number w, built.payload.vars.get? i = some name → built.payload.watchers.get? number = some w →
        (number ∈ built.payload.dependentsOf i ↔ name ∈ (built.context program).declared ∧
          ∃ expression ∈ w.expressions, built.payload.Reads expression name)) ∧
      ∀ w ∈ built.payload.watchers.items, ∀ expression ∈ w.expressions, ∀ name ∈ (built.context program).declared,
        built.payload.Reads expression name → name ∈ built.payload.vars.items := by
  obtain ⟨parts, program, start, hparts, hparse, hconsistent, hexact, -, -, hchanges, -⟩ := build_of_ok h
  have hfinal := hexact.changes hconsistent hchanges
  refine ⟨parts, program, hparts, hparse, fun i name number w hi hnumber => hfinal.listed hi hnumber, ?_⟩
  intro w hw expression hexpression name hname hreads
  exact hfinal.numbered hw ⟨hname, expression, hexpression, hreads⟩

/-- The reactive graph of the counter is exact: both watchers read the first variable. -/
theorem build_exact_counter : ∃ built, Counter.result = .ok built ∧
    built.payload.dependents = [(0, [0, 1]), (1, [0])] ∧ built.payload.vars.items = ["n", "m"] ∧
    ∃ parts program, Parts.ofChildren "" Counter.content = .ok parts ∧
      Script.parseProgram? (built.source parts) = some program ∧
      ∀ number w, built.payload.watchers.get? number = some w →
        (number ∈ built.payload.dependentsOf 0 ↔ "n" ∈ (built.context program).declared ∧
          ∃ expression ∈ w.expressions, built.payload.Reads expression "n") := by
  obtain ⟨built, hbuilt, hvars, hdependents, -⟩ := Counter.result_eq_ok
  obtain ⟨parts, program, hparts, hparse, hlisted, -⟩ := build_exact hbuilt
  have hfirst : built.payload.vars.get? 0 = some "n" := by simp [IndexedSet.get?, hvars]
  exact ⟨built, hbuilt, hdependents, hvars, parts, program, hparts, hparse, fun number w => hlisted 0 "n" number w hfirst⟩

end Component
end ReactiveTemplate
