import ReactiveTemplate.Proofs.Template.Marks
import ReactiveTemplate.Proofs.Template.Page
import ReactiveTemplate.Proofs.Template.Steps
/-!
# Filling — what a compile step leaves, and what it becomes

Compiling a node leaves a tree with marks, and parts that the marks stand for.  `Becomes` says what HTML with marks
becomes, whatever the scope.
-/
set_option linter.all false

namespace ReactiveTemplate.Compile
open List

open Markup (Tree Element Attribute)
open Page (View)

variable {position : Position}

/-- HTML with marks for the parts that were put aside between two states of a compiler; under each scope it becomes
something of a kind. -/
structure Becomes (c c' : Compiler) (html : List Char) (P : Json → List Char → Prop) : Prop where
  registry : c'.registry = c.registry
  filled : ∃ ds, c'.dynamics = c.dynamics ++ ds ∧
    ∀ scope, ∃ out, P scope out ∧ Filled scope c.dynamics.length ds html out

namespace Becomes

variable {c c₁ c₂ : Compiler} {html html' : List Char} {P P' Q : Json → List Char → Prop}

lemma text (hregistry : c₁.registry = c.registry) (hdynamics : c₁.dynamics = c.dynamics) {cs : List Char}
    (hcs : '␣' ∉ cs) (hP : ∀ scope, P scope cs) : Becomes c c₁ cs P :=
  ⟨hregistry, [], by rw [hdynamics, append_nil], fun scope => ⟨cs, hP scope, Filled.text _ cs hcs⟩⟩

lemma append (h : Becomes c c₁ html P) (h' : Becomes c₁ c₂ html' P')
    (hQ : ∀ scope out out', P scope out → P' scope out' → Q scope (out ++ out')) : Becomes c c₂ (html ++ html') Q := by
  obtain ⟨ds, hds, hfilled⟩ := h.filled
  obtain ⟨es, hes, hfilled'⟩ := h'.filled
  refine ⟨h'.registry.trans h.registry, ds ++ es, by rw [hes, hds, append_assoc], fun scope => ?_⟩
  obtain ⟨out, hout, hof⟩ := hfilled scope
  obtain ⟨out', hout', hof'⟩ := hfilled' scope
  rw [hds, length_append] at hof'
  exact ⟨out ++ out', hQ scope out out' hout hout', hof.append hof'⟩

lemma between (h : Becomes c c₁ html P) {before after : List Char} (hbefore : '␣' ∉ before) (hafter : '␣' ∉ after)
    (hQ : ∀ scope out, P scope out → Q scope (before ++ (out ++ after))) :
    Becomes c c₁ (before ++ (html ++ after)) Q := by
  have hbehind := h.append (text rfl rfl hafter (fun _ => rfl))
    (Q := fun scope out => ∃ content, P scope content ∧ out = content ++ after)
    (fun scope out _ hout heq => ⟨out, hout, by rw [heq]⟩)
  refine (text rfl rfl hbefore (fun _ => rfl)).append hbehind ?_
  rintro scope _ _ rfl ⟨content, hcontent, rfl⟩
  exact hQ scope content hcontent

lemma mono (h : Becomes c c₁ html P) (hQ : ∀ scope out, P scope out → Q scope out) : Becomes c c₁ html Q := by
  obtain ⟨ds, hds, hfilled⟩ := h.filled
  refine ⟨h.registry, ds, hds, fun scope => ?_⟩
  obtain ⟨out, hout, hof⟩ := hfilled scope
  exact ⟨out, hQ scope out hout, hof⟩

lemma start (h : Becomes c₁ c₂ html P) (hregistry : c₁.registry = c.registry) (hdynamics : c₁.dynamics = c.dynamics) :
    Becomes c c₂ html P := by
  obtain ⟨ds, hds, hfilled⟩ := h.filled
  rw [hdynamics] at hds hfilled
  exact ⟨h.registry.trans hregistry, ds, hds, hfilled⟩

lemma dropped (h : Becomes c c₁ html P) : Becomes c c₁ [] (fun scope out => out = [] ∧ ∃ out', P scope out') := by
  obtain ⟨ds, hds, hfilled⟩ := h.filled
  refine ⟨h.registry, ds, hds, fun scope => ?_⟩
  obtain ⟨out, hout, -⟩ := hfilled scope
  exact ⟨[], ⟨rfl, out, hout⟩, Filled.silent _ ds⟩

lemma pushed {d : Dynamic} {token : String} (h : Gives (pushDynamic d) c token c₁)
    (hP : ∀ scope, ∃ part : RenderedPart, d.exec scope = .ok part ∧ P scope part.html.toList) :
    Becomes c c₁ token.toList P := by
  obtain ⟨rfl, rfl⟩ := gives_pushDynamic h
  refine ⟨rfl, [d], rfl, fun scope => ?_⟩
  obtain ⟨part, hpart, hout⟩ := hP scope
  exact ⟨_, hout, Filled.single hpart⟩

lemma tagged {e : Element} {ts : List Tree} (htag : '␣' ∉ e.tag.toList)
    (hopening : Becomes c c₁ e.opening.toList P)
    (hcontent : Becomes c₁ c₂ (Tree.renderAllIn (Markup.verbatimTags.contains e.tag) ts).toList P') (isVerbatim : Bool)
    (hQ : ∀ scope opening content, P scope opening → P' scope content →
      Q scope (if e.isVoid then opening else opening ++ (content ++ e.closing.toList))) :
    Becomes c c₂ (Tree.renderIn isVerbatim (.node (.element e) position ts)).toList Q := by
  rw [Tree.renderIn]
  by_cases hvoid : e.isVoid = true
  · simp only [hvoid, if_true] at hQ ⊢
    rw [← append_nil e.opening.toList]
    refine hopening.append hcontent.dropped ?_
    rintro scope opening _ hP ⟨rfl, content, hcontent⟩
    rw [append_nil]
    exact hQ scope opening content hP hcontent
  · simp only [hvoid, Bool.false_eq_true, if_false] at hQ ⊢
    have hclosing : '␣' ∉ e.closing.toList := by
      rw [Markup.Element.toList_closing]
      simp [htag]
    have hrest := hcontent.between (Q := fun scope out => ∃ content, P' scope content ∧ out = content ++ e.closing.toList)
      not_mem_nil hclosing (fun scope content hP => ⟨content, hP, nil_append _⟩)
    rw [String.toList_append, String.toList_append, append_assoc]
    refine hopening.append hrest ?_
    rintro scope opening _ hP ⟨content, hcontent, rfl⟩
    exact hQ scope opening content hP hcontent

end Becomes

variable {compileNode : NodeCompiler} {c c' : Compiler}

/-! ## Texts -/

lemma exec_textPart {source : String} {e : Eval} (h : Eval.ofSource source = .ok e) (trimmed : String)
    (isSafe : Bool) (scope : Json) :
    ∃ part : RenderedPart,
      (if isSafe then Dynamic.expression trimmed e else Dynamic.verbatim trimmed e).exec scope = .ok part ∧
      part.html.toList = Page.inserted scope isSafe source := by
  have hvalue : Page.valueText scope source = ((e.evaluate scope).rendered?).getD "" := by
    rw [Page.valueText, Page.valueOf_of_ok h]
  have hhtml : ∀ change : String → String, change "" = "" →
      (renderedValue change (e.evaluate scope)).html = change (Page.valueText scope source) := by
    intro change hempty
    rw [hvalue, renderedValue]
    cases (e.evaluate scope).rendered? with
    | none => simp [RenderedPart.html, hempty]
    | some s => simp [RenderedPart.html]
  cases isSafe with
  | true =>
    refine ⟨renderedValue Markup.escapeHtml (e.evaluate scope), by rw [if_pos rfl, Dynamic.exec], ?_⟩
    rw [hhtml Markup.escapeHtml (by simp [Markup.escapeHtml, Text.flatMap]), Page.inserted, if_pos rfl]
  | false =>
    refine ⟨renderedValue id (e.evaluate scope), by rw [if_neg (by simp), Dynamic.exec], ?_⟩
    rw [hhtml id (id_eq _), Page.inserted, if_neg (by simp), id_eq]

lemma becomes_textPiece {piece : Piece} {html : String}
    (hliteral : ∀ literal, piece = .literal literal → '␣' ∉ literal.toList) (h : Gives (textPiece piece) c html c') :
    c'.sequence = c.sequence ∧ Becomes c c' html.toList (fun scope out => out = Page.textHtml scope [piece]) := by
  cases piece with
  | literal literal =>
    obtain ⟨rfl, rfl⟩ := gives_pure h
    refine ⟨rfl, .text rfl rfl ?_ (fun scope => (Page.textHtml_literal scope literal).symm)⟩
    rw [Markup.toList_escapeText]
    exact Markup.not_mem_flatMap Markup.not_mem_escapeTextChar (hliteral literal rfl)
  | expression found =>
    obtain ⟨e, c₁, he, hpush⟩ := gives_bind h
    obtain ⟨hread, rfl⟩ := gives_orFault he
    simp only [Page.textHtml_expression]
    refine ⟨?_, .pushed hpush (exec_textPart hread _ found.isSafe)⟩
    obtain ⟨-, rfl⟩ := gives_pushDynamic hpush
    rfl

lemma becomes_textPieces {pieces : List Piece} {texts : List String}
    (hliteral : ∀ literal, Piece.literal literal ∈ pieces → '␣' ∉ literal.toList)
    (h : Gives (pieces.mapM textPiece) c texts c') :
    c'.sequence = c.sequence ∧
      Becomes c c' (String.join texts).toList (fun scope out => out = Page.textHtml scope pieces) := by
  induction pieces generalizing c texts with
  | nil =>
    obtain ⟨rfl, rfl⟩ := gives_mapM_nil h
    exact ⟨rfl, .text rfl rfl not_mem_nil (fun _ => rfl)⟩
  | cons piece pieces ih =>
    obtain ⟨html, c₁, texts', h1, h2, rfl⟩ := gives_mapM_cons h
    obtain ⟨hc₁, hfirst⟩ := becomes_textPiece (fun l hl => hliteral l (by simp [hl])) h1
    obtain ⟨hc', hrest⟩ := ih (fun l hl => hliteral l (.tail _ hl)) h2
    refine ⟨hc'.trans hc₁, ?_⟩
    rw [String.join_cons, String.toList_append]
    refine hfirst.append hrest ?_
    rintro scope _ _ rfl rfl
    exact (Page.textHtml_cons scope piece pieces).symm

lemma becomes_text {text : String} (htext : '␣' ∉ text.toList) {t : Tree}
    (h : Gives (Compile.text position text) c t c') (isVerbatim : Bool) :
    c'.sequence = (scan text c.sequence).2 ∧ Becomes c c' (t.renderIn isVerbatim).toList (fun scope out =>
      out = ((Tree.leaf (.raw (String.ofList (Page.textHtml scope (scan text c.sequence).1.parts))) position).renderIn
        isVerbatim).toList) := by
  obtain ⟨pieces, c₁, h1, h2⟩ := gives_bind h
  obtain ⟨rfl, rfl⟩ := gives_scanText h1
  obtain ⟨texts, c₂, h3, h4⟩ := gives_bind h2
  obtain ⟨rfl, rfl⟩ := gives_pure h4
  obtain ⟨hc', hpieces⟩ := becomes_textPieces (fun l hl => not_mem_of_mem_parts htext hl) (gives_located h3)
  have hstart : Becomes c c' _ _ := hpieces.start rfl rfl
  exact ⟨hc', by simpa [Tree.leaf, Tree.renderIn] using hstart⟩

/-! ## Interpolated attributes -/

def onEntry (a : Action) : Methods := { process := some a }

lemma actions_map_onEntry (acts : List Action) : Frame.actions (acts.map onEntry) = acts := by
  have hleave : ∀ l : List Action, (l.map onEntry).filterMap (·.leave) = [] := by
    intro l
    induction l with
    | nil => rfl
    | cons a l ih => rw [map_cons, filterMap_cons_none rfl, ih]
  have hprocess : ∀ l : List Action, (l.map onEntry).filterMap (·.process) = l := by
    intro l
    induction l with
    | nil => rfl
    | cons a l ih => simp [onEntry, ih]
  rw [Frame.actions, ← map_reverse, hleave, hprocess, append_nil]

lemma gives_valuePieces {pieces : List Piece} {values : List ValuePiece}
    (h : Gives (pieces.mapM valuePiece) c values c') :
    c' = c ∧ ∀ scope, String.join (values.map (Frame.pieceText scope)) =
      String.ofList (Page.attributeText scope pieces) := by
  induction pieces generalizing c values with
  | nil =>
    obtain ⟨rfl, rfl⟩ := gives_mapM_nil h
    exact ⟨rfl, fun scope => rfl⟩
  | cons piece pieces ih =>
    obtain ⟨value, c₁, values', h1, h2, rfl⟩ := gives_mapM_cons h
    obtain ⟨rfl, hrest⟩ := ih h2
    have hfirst : c' = c ∧ ∀ scope, Frame.pieceText scope value = String.ofList (Page.attributeText scope [piece]) := by
      cases piece with
      | literal literal =>
        obtain ⟨rfl, rfl⟩ := gives_pure h1
        refine ⟨rfl, fun scope => ?_⟩
        rw [Page.attributeText_literal, String.ofList_toList]
        rfl
      | expression found =>
        obtain ⟨e, c₂, he, h3⟩ := gives_bind h1
        obtain ⟨hread, rfl⟩ := gives_orFault he
        obtain ⟨rfl, rfl⟩ := gives_pure h3
        refine ⟨rfl, fun scope => ?_⟩
        rw [Page.attributeText_expression, String.ofList_toList, Page.valueText, Page.valueOf_of_ok hread]
        rfl
    obtain ⟨rfl, hfirst⟩ := hfirst
    refine ⟨rfl, fun scope => ?_⟩
    rw [map_cons, String.join_cons, hfirst, hrest, Page.attributeText_cons scope piece pieces, String.ofList_append]

lemma gives_apply_interpolate {w w' : Work} {a : Attribute}
    (h : Gives (apply compileNode w ⟨Directive.interpolate, some a⟩) c w' c') :
    ∃ act, w' = { w with methods := w.methods ++ [onEntry act] } ∧
      c' = { c with sequence := (scan a.value c.sequence).2 } ∧
      ∀ scope slots f, Frame.run scope slots f act =
        .ok (f.set a.rawName (String.ofList (Page.attributeText scope (scan a.value c.sequence).1.parts))) := by
  obtain ⟨outcome, c₁, h1, h2⟩ := gives_bind h
  obtain ⟨pieces, c₂, h3, h4⟩ := gives_bind (gives_located h1)
  obtain ⟨rfl, rfl⟩ := gives_scanText h3
  obtain ⟨values, c₃, h5, h6⟩ := gives_bind h4
  obtain ⟨rfl, hvalues⟩ := gives_valuePieces h5
  obtain ⟨rfl, rfl⟩ := gives_pure h6
  obtain ⟨w₁, c₄, h7, h8⟩ := gives_bind h2
  obtain ⟨rfl, rfl⟩ := gives_pure h7
  obtain ⟨rfl, rfl⟩ := gives_pure h8
  refine ⟨.interpolate a.rawName values, ?_, rfl, fun scope slots f => ?_⟩
  · simp [onEntry, Methods.isEmpty, Directive.interpolate]
  · rw [Frame.run, hvalues]

lemma gives_interpolations {as : List Attribute} {w w' : Work}
    (h : Gives ((as.map (fun a => ⟨Directive.interpolate, some a⟩)).foldlM (apply compileNode) w) c w' c') :
    ∃ acts : List Action, w' = { w with methods := w.methods ++ acts.map onEntry } ∧ acts.length = as.length ∧
      ∀ e : Json → Element, c' = { c with sequence := (Page.fill as e c.sequence).2 } ∧
        ∀ scope slots f, f.attributes = (e scope).attributes →
          acts.foldlM (Frame.run scope slots) f =
            .ok { f with attributes := ((Page.fill as e c.sequence).1 scope).attributes } := by
  induction as generalizing w c with
  | nil =>
    obtain ⟨rfl, rfl⟩ := gives_foldlM_nil h
    refine ⟨[], by simp, rfl, fun e => ⟨rfl, fun scope slots f hf => ?_⟩⟩
    rw [Page.fill, ← hf]
    rfl
  | cons a as ih =>
    obtain ⟨w₁, c₁, h1, h2⟩ := gives_foldlM_cons h
    obtain ⟨act, rfl, rfl, hact⟩ := gives_apply_interpolate h1
    obtain ⟨acts, rfl, hlength, hrest⟩ := ih h2
    refine ⟨act :: acts, by simp, by simp [hlength], fun e => ?_⟩
    obtain ⟨hc, hrun⟩ := hrest (fun scope =>
      (e scope).set a.rawName (String.ofList (Page.attributeText scope (scan a.value c.sequence).1.parts)))
    refine ⟨hc, fun scope slots f hf => ?_⟩
    rw [foldlM_cons, hact]
    refine (hrun scope slots _ ?_).trans ?_
    · rw [Frame.set, hf]
      rfl
    · rfl

/-! ## Elements -/

section

variable {e : Element} {s : Sequence} {scope : Json} {acts : List Action}

lemma rawName_of_mem_filled {b : Attribute}
    (hb : b ∈ ((Page.filled e s).1 scope).attributes) : ∃ a ∈ e.attributes, b.rawName = a.rawName := by
  obtain ⟨a, ha, heq⟩ := Page.rawName_of_mem_fill hb
  rcases mem_append.1 ha with ha | ha
  · exact ⟨a, ha, heq⟩
  · exact ⟨a, (mem_filter.1 ha).1, heq⟩

lemma plain_filled (hplain : ∀ a ∈ e.attributes, a.isPlain = true) (s : Sequence) (scope : Json) :
    ∀ b ∈ ((Page.filled e s).1 scope).attributes,
      b.rawName.toList ≠ [] ∧ ∀ x ∈ b.rawName.toList, Markup.isNameChar x = true := by
  intro b hb
  obtain ⟨a, ha, heq⟩ := rawName_of_mem_filled hb
  obtain ⟨hne, hchars, -⟩ := Markup.Attribute.isPlain_iff.1 (hplain a ha)
  rw [heq]
  exact ⟨hne, hchars⟩

lemma isLed_filled (hclean : ∀ a ∈ e.attributes, a.isClean = true) (s : Sequence) (scope : Json) :
    ∀ b ∈ ((Page.filled e s).1 scope).attributes, b.IsLed := by
  intro b hb
  obtain ⟨a, ha, heq⟩ := rawName_of_mem_filled hb
  obtain ⟨hled, -⟩ := Markup.Attribute.isClean_iff.1 (hclean a ha)
  rw [Attribute.IsLed, heq]
  exact hled

lemma toList_opening_filled (hclean : ∀ a ∈ e.attributes, a.isClean = true) (hne : e.attributes ≠ []) (s : Sequence)
    (scope : Json) :
    ((Page.filled e s).1 scope).opening.toList = '<' :: (e.tag.toList ++ [' ']) ++
      ((Text.trimStart (Markup.renderAttributes ((Page.filled e s).1 scope).attributes)).toList ++ ['>']) := by
  have hne' : ((Page.filled e s).1 scope).attributes ≠ [] := Page.fill_ne_nil hne
  have htag : ((Page.filled e s).1 scope).tag = e.tag := Page.tag_fill _ _ s scope
  rw [Markup.Element.toList_opening, htag,
    ← Markup.cons_trimStart_renderAttributes hne' (isLed_filled hclean s scope)]
  simp

lemma exec_attributes {attributes attributes' : List Attribute}
    (h : ∀ slots f, f.attributes = attributes → acts.foldlM (Frame.run scope slots) f =
      .ok { f with attributes := attributes' }) :
    (Dynamic.directives .attributes attributes (acts.map onEntry) []).exec scope =
      .ok (.text (Text.trimStart (Markup.renderAttributes attributes'))) := by
  rw [Dynamic.exec, Frame.render, actions_map_onEntry, h _ _ rfl]
  rfl

lemma becomes_opening {below : List Tree} {t : Tree} (htag : '␣' ∉ e.tag.toList)
    (hclean : ∀ a ∈ e.attributes, a.isClean = true)
    (hlength : acts.length = (e.attributes.filter (fun a => Interpolation.hasMarkers a.value)).length)
    (hacts : ∀ scope slots f, f.attributes = e.attributes → acts.foldlM (Frame.run scope slots) f =
      .ok { f with attributes := ((Page.filled e s).1 scope).attributes })
    (h : Gives (settle { tree := .node (.element e) position below, methods := acts.map onEntry }) c t c') :
    ∃ e', t = .node (.element e') position below ∧ e'.tag = e.tag ∧ c'.sequence = c.sequence ∧
      Becomes c c' e'.opening.toList (fun scope out => out = ((Page.filled e s).1 scope).opening.toList) := by
  rw [settle] at h
  simp only [Bool.false_eq_true, if_false, isEmpty_map] at h
  split at h
  · rename_i hempty
    obtain ⟨rfl, rfl⟩ := gives_pure h
    have hfilter : e.attributes.filter (fun a => Interpolation.hasMarkers a.value) = [] := by
      rw [isEmpty_iff.1 hempty] at hlength
      exact length_eq_zero_iff.1 hlength.symm
    refine ⟨e, rfl, rfl, rfl, .text rfl rfl ?_ (fun scope => by rw [Page.filled, hfilter, Page.fill])⟩
    rw [Markup.Element.toList_opening]
    simp only [mem_cons, mem_append, not_or]
    exact ⟨by decide, htag, Markup.not_mem_renderAttributes hclean, by decide⟩
  · rename_i hempty
    obtain ⟨token, c₁, h1, h2⟩ := gives_bind h
    obtain ⟨rfl, rfl⟩ := gives_pure h2
    have hne : e.attributes ≠ [] := by
      intro hnil
      rw [hnil] at hlength
      exact hempty (by simpa using length_eq_zero_iff.1 hlength)
    have hopening : (Element.opening ⟨e.tag, [Attribute.new token ""]⟩).toList =
        '<' :: (e.tag.toList ++ [' ']) ++ (token.toList ++ ['>']) := by
      simp [Markup.Element.toList_opening, Markup.toList_renderAttributes, Markup.Attribute.toList_render]
    refine ⟨⟨e.tag, [Attribute.new token ""]⟩, rfl, rfl, ?_, ?_⟩
    · obtain ⟨-, rfl⟩ := gives_pushDynamic h1
      rfl
    · rw [hopening]
      refine (Becomes.pushed h1 (fun scope => ⟨_, exec_attributes (hacts scope), rfl⟩)).between (by simp [htag])
        (by decide) ?_
      rintro scope _ rfl
      rw [toList_opening_filled hclean hne]
      rfl

end

end ReactiveTemplate.Compile
