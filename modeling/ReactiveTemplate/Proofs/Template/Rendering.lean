import ReactiveTemplate.Proofs.Markup.Layers
import ReactiveTemplate.Proofs.Markup.Scanning
import ReactiveTemplate.Proofs.Template.Filling
import ReactiveTemplate.Proofs.Template.Totality
import ReactiveTemplate.Proofs.Text.Words
/-!
# Rendering — a compiled template renders to its page

`Viewed` relates a tree to what is rendered of it under a scope, node by node, and says which placeholders are drawn;
what a component renders to is left open.
-/
set_option linter.all false

namespace ReactiveTemplate
open List

open Markup (Tree Element Attribute)

variable {scope : Json} {isVerbatim : Bool} {s : String} {t : Tree} {test : Eval}

/-- What is rendered of an element whatever conditions it is under, given what is rendered of the trees below it, and the
sequences before and after. -/
def ViewedElement (scope : Json) (position : Position) (below : Sequence → List Tree → Sequence → Prop) (e : Element)
    (q : Sequence) (u : Tree) (q' : Sequence) : Prop :=
  ∃ us, below (Page.filled e q).2 us q' ∧ u = .node (.element ((Page.filled e q).1 scope)) position us

def ViewedGuarded (scope : Json) (position : Position) (below : Sequence → List Tree → Sequence → Prop) :
    List Attribute → Element → Sequence → Tree → Sequence → Prop
  | [], e, q, u, q' => ViewedElement scope position below e q u q'
  | [a], e, q, u, q' => ∃ v, ViewedElement scope position below (e.remove "if") q v q' ∧
    u = .node .document position (if Page.holds scope a.value then [v] else [])
  | _ :: b :: more, e, q, u, q' => ∃ v q₁, ViewedElement scope position below (e.remove "if") q v q₁ ∧
    ViewedGuarded scope position below (b :: more) (e.remove "if") q₁ u q'

def Embedded (e : Element) (position : Position) (q : Sequence) (u : Tree) (q' : Sequence) : Prop :=
  q'.salt = q.salt ∧ q.counter ≤ q'.counter ∧ ∃ (host : Element) (html : String),
    host.attributes = e.attributes.filter (fun a => !Component.isConsumed a.name) ∧
    (∀ a ∈ host.attributes, Interpolation.hasMarkers a.value = false) ∧
    u = .node (.element host) position [.leaf (.raw html) position]

mutual
/-- What is rendered of a tree under a scope; the flag says whether it stands in an element that keeps its text as it
is. -/
def Viewed (scope : Json) (isVerbatim : Bool) : Tree → Sequence → Tree → Sequence → Prop
  | .node (.element e) position below =>
    if e.tag = "if" then fun q u q' => ∃ us, ViewedAll scope false below q us q' ∧
      u = .node .document position (if Page.holds scope (Page.conditionOf e) then us else [])
    else if e.tag = "component" then Embedded e position
    else ViewedGuarded scope position (ViewedAll scope (Markup.verbatimTags.contains e.tag) below) (Page.guards e) e
  | .node .document position below => fun q u q' =>
    ∃ us, ViewedAll scope false below q us q' ∧ u = .node .document position us
  | .node kind position below => fun q u q' =>
    u = (Page.node isVerbatim (.node kind position below) q).1 scope ∧
      q' = (Page.node isVerbatim (.node kind position below) q).2

def ViewedAll (scope : Json) (isVerbatim : Bool) : List Tree → Sequence → List Tree → Sequence → Prop
  | [] => fun q us q' => us = [] ∧ q' = q
  | t :: ts => fun q us q' => ∃ u q₁ us', Viewed scope isVerbatim t q u q₁ ∧
    ViewedAll scope isVerbatim ts q₁ us' q' ∧ us = u :: us'
end

/-! ## Pages -/

lemma ViewedGuarded.eq_page {position : Position} {below : Sequence → List Tree → Sequence → Prop}
    {view : Page.View (List Tree)} (hbelow : ∀ q us q', below q us q' → us = (view q).1 scope ∧ q' = (view q).2) :
    ∀ {as : List Attribute} {e : Element} {q q' : Sequence} {u : Tree},
      ViewedGuarded scope position below as e q u q' →
        u = (Page.guarded view position as e q).1 scope ∧ q' = (Page.guarded view position as e q).2
  | [], e, q, q', u, h => by
    obtain ⟨us, hus, rfl⟩ := h
    obtain ⟨rfl, rfl⟩ := hbelow _ us _ hus
    exact ⟨rfl, rfl⟩
  | [a], e, q, q', u, h => by
    obtain ⟨_, ⟨us, hus, rfl⟩, rfl⟩ := h
    obtain ⟨rfl, rfl⟩ := hbelow _ us _ hus
    exact ⟨rfl, rfl⟩
  | a :: b :: more, e, q, q', u, h => by
    obtain ⟨_, q₁, ⟨us, hus, -⟩, hrest⟩ := h
    obtain ⟨-, rfl⟩ := hbelow _ us _ hus
    rw [Page.guarded]
    exact eq_page hbelow hrest

mutual
theorem Viewed.eq_page {scope : Json} {isVerbatim : Bool} : ∀ {t : Tree} {q q' : Sequence} {u : Tree},
    t.isPlain = true → Viewed scope isVerbatim t q u q' →
      u = (Page.node isVerbatim t q).1 scope ∧ q' = (Page.node isVerbatim t q).2
  | .node (.element e) position below, q, q', u, hplain, h => by
    obtain ⟨hkind, hbelow⟩ := Tree.isPlain_node.1 hplain
    rw [Viewed] at h
    rw [Page.node]
    split at h
    · rename_i hif
      obtain ⟨us, hus, rfl⟩ := h
      obtain ⟨rfl, rfl⟩ := ViewedAll.eq_page hbelow hus
      rw [if_pos hif]
      exact ⟨rfl, rfl⟩
    · rename_i hif
      rw [if_neg (Markup.Kind.isPlain_element.1 hkind).1] at h
      rw [if_neg hif]
      exact ViewedGuarded.eq_page (fun _ _ _ hus => ViewedAll.eq_page hbelow hus) h
  | .node .document position below, q, q', u, hplain, h => by
    rw [Viewed] at h
    obtain ⟨us, hus, rfl⟩ := h
    obtain ⟨rfl, rfl⟩ := ViewedAll.eq_page (Tree.isPlain_node.1 hplain).2 hus
    rw [Page.node]
    exact ⟨rfl, rfl⟩
  | .node (.text _) _ _, _, _, _, _, h => h
  | .node (.comment _) _ _, _, _, _, _, h => h
  | .node (.doctype _) _ _, _, _, _, _, h => h
  | .node (.raw _) _ _, _, _, _, _, h => h

theorem ViewedAll.eq_page {scope : Json} {isVerbatim : Bool} : ∀ {ts : List Tree} {q : Sequence} {us : List Tree}
    {q' : Sequence}, (∀ t ∈ ts, t.isPlain = true) → ViewedAll scope isVerbatim ts q us q' →
      us = (Page.nodes isVerbatim ts q).1 scope ∧ q' = (Page.nodes isVerbatim ts q).2
  | [], _, _, _, _, h => h
  | t :: ts, q, us, q', hplain, h => by
    rw [ViewedAll] at h
    obtain ⟨u, q₁, us', hu, hus', rfl⟩ := h
    obtain ⟨rfl, rfl⟩ := Viewed.eq_page (hplain t (.head _)) hu
    obtain ⟨rfl, rfl⟩ := ViewedAll.eq_page (fun t ht => hplain t (.tail _ ht)) hus'
    rw [Page.nodes]
    exact ⟨rfl, rfl⟩
end

/-! ## Hosts -/

lemma Text.not_mem_lower (h : '␣' ∉ s.toList) : '␣' ∉ (Text.lower s).toList := by
  rw [Text.lower, String.toList_ofList, mem_map]
  rintro ⟨c, hc, heq⟩
  cases hupper : c.isUpper with
  | false =>
    rw [Markup.Lexer.toLower_of_not_isUpper hupper] at heq
    exact h (heq ▸ hc)
  | true =>
    have := Markup.Lexer.toNat_toLower hupper
    rw [heq] at this
    have hbig : '␣'.toNat = 9251 := rfl
    omega

lemma Text.not_mem_trim (h : '␣' ∉ s.toList) : '␣' ∉ (Text.trim s).toList := by
  obtain ⟨before, behind, heq, -⟩ := Text.exists_trimChars s.toList
  rw [Text.trim, String.toList_ofList]
  intro hmem
  rw [heq] at h
  exact h (mem_append_left _ (mem_append_right _ hmem))

namespace Component

lemma mem_of_filledValue? {e : Element} {name : String} (h : filledValue? e name = some s) :
    ∃ a ∈ e.attributes, s = Text.trim a.value := by
  obtain ⟨hmap, -⟩ := Option.filter_eq_some_iff.1 h
  rw [Element.value?, Option.map_map, Option.map_eq_some_iff] at hmap
  obtain ⟨a, ha, rfl⟩ := hmap
  exact ⟨a, mem_of_find?_eq_some ha, rfl⟩

lemma head_of_ok {e : Element} {head : Head} (h : Head.ofElement e = .ok head) :
    (∃ a ∈ e.attributes, head.tag = Text.lower (Text.trim a.value)) ∧
      ∀ a ∈ e.attributes, isConsumed a.name = false → Interpolation.hasMarkers a.value = false := by
  rw [Head.ofElement] at h
  cases hname : filledValue? e "name" with
  | none =>
    rw [hname] at h
    cases h
  | some name =>
    rw [hname] at h
    obtain ⟨params, -, h⟩ := exists_ok_of_bind h
    obtain ⟨u, hcheck, h⟩ := exists_ok_of_bind h
    cases h
    refine ⟨?_, fun a ha hconsumed => ?_⟩
    · cases helement : filledValue? e "element" with
      | none =>
        obtain ⟨a, ha, rfl⟩ := mem_of_filledValue? hname
        exact ⟨a, ha, rfl⟩
      | some tag =>
        obtain ⟨a, ha, rfl⟩ := mem_of_filledValue? helement
        exact ⟨a, ha, rfl⟩
    · rw [checkHost] at hcheck
      split at hcheck
      · cases hcheck
      · rename_i hfind
        have := find?_eq_none.1 hfind a ha
        simp only [hconsumed, Bool.not_false, Bool.true_and, Bool.or_eq_true, not_or, Bool.not_eq_true] at this
        exact this.2

end Component

namespace Compile

/-! ## Steps -/

/-- A step that compiles a node: what it leaves becomes what is viewed. -/
def Displays (step : Compile Tree) (isVerbatim : Bool) (V : Json → Sequence → Tree → Sequence → Prop) : Prop :=
  ∀ c t c', c.registry = Registry.standard → Gives step c t c' →
    Becomes c c' (t.renderIn isVerbatim).toList
      (fun scope out => ∃ u, V scope c.sequence u c'.sequence ∧ out = (u.renderIn isVerbatim).toList)

lemma Displays.mono {step : Compile Tree} {V V' : Json → Sequence → Tree → Sequence → Prop}
    (h : Displays step isVerbatim V) (hV : ∀ scope q u q', V scope q u q' → V' scope q u q') :
    Displays step isVerbatim V' :=
  fun c t c' hr hg => (h c t c' hr hg).mono (fun scope _ ⟨u, hu, hout⟩ => ⟨u, hV scope _ u _ hu, hout⟩)

abbrev Shows (step : Compile Tree) (isVerbatim : Bool) (t : Tree) : Prop :=
  Displays step isVerbatim (fun scope => Viewed scope isVerbatim t)

section

variable {compileNode : NodeCompiler} {e : Element} {position : Position} {below : List Tree} {c c' : Compiler}
  {limit : Option Nat} {ts : List Tree} {compiled : Compiled} {source : String} {w : Work} {scope : Json}
  {acts : List Action}

lemma becomes_nodes : ∀ {ts ts' : List Tree} {c : Compiler},
    (∀ t ∈ ts, Shows (compileNode limit isVerbatim t) isVerbatim t) → c.registry = Registry.standard →
    Gives (ts.mapM (compileNode limit isVerbatim)) c ts' c' →
    Becomes c c' (Tree.renderAllIn isVerbatim ts').toList (fun scope out =>
      ∃ us, ViewedAll scope isVerbatim ts c.sequence us c'.sequence ∧ out = (Tree.renderAllIn isVerbatim us).toList)
  | [], _, _, _, _, h => by
    obtain ⟨rfl, rfl⟩ := gives_mapM_nil h
    exact .text rfl rfl not_mem_nil (fun scope => ⟨[], by simp [ViewedAll], rfl⟩)
  | t :: ts, ts', c, hall, hr, h => by
    obtain ⟨t', c₁, ts'', h1, h2, rfl⟩ := gives_mapM_cons h
    have hfirst := hall t (.head _) c t' c₁ hr h1
    have hrest := becomes_nodes (fun u hu => hall u (.tail _ hu)) (hfirst.registry.trans hr) h2
    rw [Tree.renderAllIn, String.toList_append]
    refine hfirst.append hrest ?_
    rintro scope _ _ ⟨u, hu, rfl⟩ ⟨us, hus, rfl⟩
    refine ⟨u :: us, ?_, by rw [Tree.renderAllIn, String.toList_append]⟩
    rw [ViewedAll]
    exact ⟨u, _, us, hu, hus, rfl⟩

lemma render_document {V : Json → Sequence → List Tree → Prop}
    (h : Gives (document compileNode limit ts) c compiled c')
    (hnodes : ∀ c₀ ts' c₁, c₀.registry = c.registry → c₀.sequence = c.sequence →
      Gives (ts.mapM (compileNode limit false)) c₀ ts' c₁ → Becomes c₀ c₁ (Tree.renderAllIn false ts').toList
        (fun scope out => ∃ us, V scope c₁.sequence us ∧ out = (Tree.renderAllIn false us).toList)) :
    c'.registry = c.registry ∧ c'.dynamics = c.dynamics ∧
      ∀ scope, ∃ us, V scope c'.sequence us ∧ compiled.render scope = .ok (Tree.renderAllIn false us) := by
  obtain ⟨ts', c₁, hts', rfl, rfl⟩ := gives_document h
  obtain ⟨hregistry, ds, hds, hfilled⟩ := hnodes { c with dynamics := [] } ts' c₁ rfl rfl hts'
  refine ⟨hregistry, rfl, fun scope => ?_⟩
  obtain ⟨out, ⟨us, hus, rfl⟩, hout⟩ := hfilled scope
  refine ⟨us, hus, ?_⟩
  rw [hds]
  refine (Compiled.render_ofHtml hout).trans ?_
  rw [String.ofList_toList]

/-! ## Elements -/

lemma gives_element {u : Tree} (hr : c.registry = Registry.standard)
    (h : Gives (element compileNode limit t e) c u c') : ∃ w c₁ settled c₂,
      Gives ((Candidate.select Registry.standard limit e).foldlM (apply compileNode) { tree := t }) c w c₁ ∧
      Gives (settle w) c₁ settled c₂ ∧
      Gives (if w.isTranscluded || w.isTerminal then pure settled else children compileNode settled) c₂ u c' := by
  rw [element] at h
  obtain ⟨c₀, c₁, h1, h2⟩ := gives_bind h
  obtain ⟨rfl, rfl⟩ := gives_get h1
  obtain ⟨w, c₂, h3, h4⟩ := gives_bind h2
  obtain ⟨settled, c₃, h5, h6⟩ := gives_bind h4
  rw [hr] at h3
  exact ⟨w, c₂, settled, c₃, h3, h5, h6⟩

lemma displays_element
    (hselect : Candidate.select Registry.standard limit e = Candidate.interpolations e) (htag : '␣' ∉ e.tag.toList)
    (hclean : ∀ a ∈ e.attributes, a.isClean = true) (isVerbatim : Bool)
    (hbelow : ∀ t ∈ below, Shows (compileNode none (Markup.verbatimTags.contains e.tag) t)
      (Markup.verbatimTags.contains e.tag) t) :
    Displays (element compileNode limit (.node (.element e) position below) e) isVerbatim
      (fun scope => ViewedElement scope position (ViewedAll scope (Markup.verbatimTags.contains e.tag) below) e) := by
  intro c t c' hr h
  obtain ⟨w, c₁, settled, c₂, h1, h2, h3⟩ := gives_element hr h
  rw [hselect] at h1
  obtain ⟨acts, rfl, hlength, hacts⟩ := gives_interpolations h1
  obtain ⟨rfl, hrun⟩ := hacts (fun _ => e)
  obtain ⟨e', rfl, he, hsequence, hopening⟩ := becomes_opening htag hclean hlength hrun h2
  simp only [Bool.or_self, Bool.false_eq_true, if_false] at h3
  obtain ⟨ts, c₄, h4, h5⟩ := gives_bind h3
  obtain ⟨rfl, rfl⟩ := gives_pure h5
  have hkind : (Markup.Tree.node (.element e') position below).kind.isVerbatim = Markup.verbatimTags.contains e.tag := by
    rw [← he]
    rfl
  rw [hkind] at h4
  have hcontent := becomes_nodes hbelow (hopening.registry.trans hr) h4
  rw [← he] at hcontent
  have hstart : Becomes c c₂ _ _ := hopening.start rfl rfl
  refine Becomes.tagged (he ▸ htag) hstart hcontent isVerbatim ?_
  rintro scope _ _ rfl ⟨us, hus, rfl⟩
  rw [he, hsequence] at hus
  have hshown : ((Page.filled e c.sequence).1 scope).tag = e'.tag := (Page.tag_fill _ _ c.sequence scope).trans he.symm
  refine ⟨_, ⟨us, hus, rfl⟩, ?_⟩
  simp only [Tree.renderIn, Element.isVoid, Element.closing, hshown]
  by_cases hvoid : Markup.voidTags.contains e'.tag = true
  · simp only [hvoid, if_true]
  · simp only [hvoid, Bool.false_eq_true, if_false, String.toList_append, append_assoc]

/-! ## Conditions -/

lemma exec_of_render {html : String}
    (h : compiled.render scope = .ok html) : ∃ r, compiled.exec scope = .ok r ∧ r.html = html := by
  rw [Compiled.render] at h
  exact exists_ok_of_map h

lemma run_condition (htest : Eval.ofSource source = .ok test)
    {r : Rendered} (hr : compiled.exec scope = .ok r) (f : Frame) :
    Frame.run scope (Dynamic.execSlots scope [(defaultSlot, compiled)]) f (.condition test) =
      .ok { f with output := if Page.holds scope source then some (.nested r) else none } := by
  have hslot : Frame.showSlot (Dynamic.execSlots scope [(defaultSlot, compiled)]) f defaultSlot =
      .ok { f with output := some (.nested r) } := by
    simp only [Frame.showSlot, Dynamic.execSlots, lookup_cons, beq_self_eq_true, hr, Except.map]
  rw [Frame.run, Page.holds, Page.valueOf_of_ok htest, hslot]
  split
  · rfl
  · rfl

lemma exec_replace {attributes : List Attribute} {slots : List (String × Compiled)} {f : Frame}
    (h : acts.foldlM (Frame.run scope (Dynamic.execSlots scope slots)) { attributes := attributes } = .ok f) :
    (Dynamic.directives .replace attributes (acts.map onEntry) slots).exec scope = .ok (f.output.getD .nothing) := by
  rw [Dynamic.exec, Frame.render, actions_map_onEntry, h]
  rfl

lemma gives_condition {m : Methods} (h : Gives (condition source) c m c') :
    ∃ test, Eval.ofSource source = .ok test ∧ m = onEntry (.condition test) ∧ c' = c := by
  rw [condition] at h
  obtain ⟨test, c₁, h1, h2⟩ := gives_bind h
  obtain ⟨hread, rfl⟩ := gives_orFault h1
  obtain ⟨rfl, rfl⟩ := gives_pure h2
  exact ⟨test, hread, rfl, rfl⟩

def Decides (source : String) (compiled : Compiled) (acts : List Action) : Prop :=
  ∀ scope r, compiled.exec scope = .ok r → ∀ f : Frame,
    acts.foldlM (Frame.run scope (Dynamic.execSlots scope [(defaultSlot, compiled)])) f =
      .ok { f with output := if Page.holds scope source then some (.nested r) else none }

lemma decides_condition (htest : Eval.ofSource source = .ok test) (compiled : Compiled) :
    Decides source compiled [.condition test] := by
  intro scope r hexec f
  rw [foldlM_cons, run_condition htest hexec]
  rfl

lemma Decides.cons {source' : String} {acts : List Action}
    (h : Decides source compiled acts) (htest : Eval.ofSource source' = .ok test) :
    Decides source compiled (.condition test :: acts) := by
  intro scope r hexec f
  rw [foldlM_cons, run_condition htest hexec]
  exact h scope r hexec _

/-- Work in whose place one condition decides, the last one added to `methods`: what is viewed is `V`. -/
def Work.Decided (w : Work) (methods : List Methods) (position : Position) (V : Json → Tree → Prop) : Prop :=
  w.isTranscluded = true ∧ ∃ (acts : List Action) (compiled : Compiled) (source : String),
    w.methods = methods ++ acts.map onEntry ∧ w.slots = [(defaultSlot, compiled)] ∧ Decides source compiled acts ∧
    ∀ scope, ∃ us, V scope (.node .document position (if Page.holds scope source then us else [])) ∧
      compiled.render scope = .ok (Tree.renderAllIn false us)

lemma displays_decided {V : Json → Sequence → Tree → Sequence → Prop} (position : Position) (isVerbatim : Bool)
    (h : ∀ c w c', c.registry = Registry.standard →
      Gives ((Candidate.select Registry.standard none e).foldlM (apply compileNode) { tree := t }) c w c' →
      c'.registry = c.registry ∧ c'.dynamics = c.dynamics ∧
        w.Decided [] position (fun scope u => V scope c.sequence u c'.sequence)) :
    Displays (element compileNode none t e) isVerbatim V := by
  intro c t c' hr hgives
  obtain ⟨w, c₁, settled, c₂, h1, h2, h3⟩ := gives_element hr hgives
  obtain ⟨hregistry, hdynamics, htranscluded, acts, compiled, source, hmethods, hslots, hdecides, hrender⟩ :=
    h c w c₁ hr h1
  rw [settle] at h2
  simp only [htranscluded, Bool.true_or, if_true, hmethods, nil_append, hslots] at h2 h3
  obtain ⟨token, c₃, h4, h5⟩ := gives_bind h2
  obtain ⟨rfl, rfl⟩ := gives_pure h5
  obtain ⟨rfl, rfl⟩ := gives_pure h3
  have hsequence : c'.sequence = c₁.sequence := by
    obtain ⟨-, rfl⟩ := gives_pushDynamic h4
    rfl
  refine Becomes.start (.pushed h4 (fun scope => ?_)) hregistry hdynamics
  obtain ⟨us, hus, hok⟩ := hrender scope
  obtain ⟨r, hexec, hhtml⟩ := exec_of_render hok
  refine ⟨_, exec_replace (hdecides scope r hexec _), _, hsequence ▸ hus, ?_⟩
  rw [Tree.renderIn]
  split
  · simp only [Option.getD_some, RenderedPart.html, hhtml]
  · simp only [Option.getD_none, RenderedPart.html, Tree.renderAllIn]

lemma placeSlot_default {slots : List (String × Compiled)} (h : slots = [] ∨ ∃ k, slots = [(defaultSlot, k)])
    (compiled : Compiled) : placeSlot defaultSlot compiled slots = [(defaultSlot, compiled)] := by
  rcases h with rfl | ⟨k, rfl⟩
  · rfl
  · simp [placeSlot]

lemma gives_apply_ifAttribute {w' : Work} {a : Attribute} (htree : w.tree = .node (.element e) position below)
    (hslots : w.slots = [] ∨ ∃ k, w.slots = [(defaultSlot, k)])
    (h : Gives (apply compileNode w ⟨Directive.ifAttribute, some a⟩) c w' c') :
    ∃ test compiled, Eval.ofSource a.value = .ok test ∧
      Gives (document compileNode (some 599) [.node (.element (e.remove "if")) position below]) c compiled c' ∧
      w' = ⟨.node (.element (e.remove "if")) position below, w.methods ++ [onEntry (.condition test)],
        [(defaultSlot, compiled)], true, true⟩ := by
  rw [apply] at h
  obtain ⟨outcome, c₁, h1, h2⟩ := gives_bind h
  obtain ⟨m, c₂, h3, h4⟩ := gives_bind (gives_located h1)
  obtain ⟨test, htest, rfl, rfl⟩ := gives_condition h3
  obtain ⟨rfl, rfl⟩ := gives_pure h4
  obtain ⟨w₁, c₃, h5, h6⟩ := gives_bind h2
  obtain ⟨compiled, c₄, h7, h8⟩ := gives_bind h5
  obtain ⟨rfl, rfl⟩ := gives_pure h8
  obtain ⟨rfl, rfl⟩ := gives_pure h6
  rw [htree] at h7
  refine ⟨test, compiled, htest, h7, ?_⟩
  simp [htree, Tree.mapElement, placeSlot_default hslots, onEntry, Methods.isEmpty, Directive.ifAttribute]

lemma gives_guards {B : Json → Sequence → List Tree → Sequence → Prop} {as : List Attribute} {w' : Work} (hne : as ≠ [])
    (htree : w.tree = .node (.element e) position below) (hslots : w.slots = [] ∨ ∃ k, w.slots = [(defaultSlot, k)])
    (hr : c.registry = Registry.standard)
    (hshown : ∀ e' : Element, e'.tag = e.tag → (∀ a ∈ e'.attributes, a ∈ e.attributes) →
      Displays (compileNode (some 599) false (.node (.element e') position below)) false
        (fun scope => ViewedElement scope position (B scope) e'))
    (h : Gives ((as.map (fun a => ⟨Directive.ifAttribute, some a⟩)).foldlM (apply compileNode) w) c w' c') :
    c'.registry = c.registry ∧ c'.dynamics = c.dynamics ∧ w'.Decided w.methods position
      (fun scope u => ViewedGuarded scope position (B scope) as e c.sequence u c'.sequence) := by
  induction as generalizing e w c with
  | nil => exact absurd rfl hne
  | cons a more ih =>
    obtain ⟨w₁, c₁, h1, h2⟩ := gives_foldlM_cons h
    obtain ⟨test, first, htest, hdocument, rfl⟩ := gives_apply_ifAttribute htree hslots h1
    have hsingle : ∀ c₀ ts' c₂, c₀.registry = c.registry → c₀.sequence = c.sequence →
        Gives ([.node (.element (e.remove "if")) position below].mapM (compileNode (some 599) false)) c₀ ts' c₂ →
        Becomes c₀ c₂ (Tree.renderAllIn false ts').toList (fun scope out => ∃ us,
          (∃ u, ViewedElement scope position (B scope) (e.remove "if") c.sequence u c₂.sequence ∧ us = [u]) ∧
            out = (Tree.renderAllIn false us).toList) := by
      intro c₀ ts' c₂ hregistry hsequence hts
      obtain ⟨t', c₃, _, h3, h4, rfl⟩ := gives_mapM_cons hts
      obtain ⟨rfl, rfl⟩ := gives_mapM_nil h4
      have hone := hshown (e.remove "if") rfl (fun b hb => mem_of_mem_eraseP hb) c₀ t' c₂ (hregistry.trans hr) h3
      rw [hsequence] at hone
      simpa [Tree.renderAllIn] using hone
    obtain ⟨hregistry, hdynamics, hrender⟩ := render_document (V := fun scope q us =>
      ∃ u, ViewedElement scope position (B scope) (e.remove "if") c.sequence u q ∧ us = [u]) hdocument hsingle
    cases more with
    | nil =>
      obtain ⟨rfl, rfl⟩ := gives_foldlM_nil h2
      refine ⟨hregistry, hdynamics, rfl, [.condition test], first, a.value, rfl, rfl, decides_condition htest first,
        fun scope => ?_⟩
      obtain ⟨_, ⟨u, hu, rfl⟩, hok⟩ := hrender scope
      exact ⟨_, ⟨u, hu, rfl⟩, hok⟩
    | cons b more =>
      obtain ⟨hregistry', hdynamics', htrans, acts, compiled, source, hmethods, hslots', hdecides, hviewed⟩ :=
        ih (e := e.remove "if") (cons_ne_nil b more) rfl (Or.inr ⟨first, rfl⟩) (hregistry.trans hr)
          (fun e' he' hsub => hshown e' he' (fun x hx => mem_of_mem_eraseP (hsub x hx))) h2
      refine ⟨hregistry'.trans hregistry, hdynamics'.trans hdynamics, htrans, .condition test :: acts, compiled, source,
        ?_, hslots', hdecides.cons htest, fun scope => ?_⟩
      · rw [hmethods]
        simp
      · obtain ⟨_, ⟨u, hu, -⟩, -⟩ := hrender scope
        obtain ⟨us, hus, hok⟩ := hviewed scope
        exact ⟨us, ⟨u, _, hu, hus⟩, hok⟩

lemma displays_guarded (hif : e.tag ≠ "if") (hcomponent : e.tag ≠ "component") (hne : Page.guards e ≠ [])
    (isVerbatim : Bool)
    (hshown : ∀ e' : Element, e'.tag = e.tag → (∀ a ∈ e'.attributes, a ∈ e.attributes) →
      Displays (compileNode (some 599) false (.node (.element e') position below)) false (fun scope =>
        ViewedElement scope position (ViewedAll scope (Markup.verbatimTags.contains e.tag) below) e')) :
    Shows (element compileNode none (.node (.element e) position below) e) isVerbatim
      (.node (.element e) position below) := by
  refine displays_decided position isVerbatim (fun c w c' hr h => ?_)
  rw [Candidate.select_conditions hif hcomponent (fun hnil => hne (map_eq_nil_iff.1 hnil))] at h
  simp only [Viewed, if_neg hif, if_neg hcomponent]
  exact gives_guards hne rfl (Or.inl rfl) hr hshown h

lemma gives_apply_ifElement
    (h : Gives (apply compileNode { tree := .node (.element e) position below } ⟨Directive.ifElement, none⟩) c w c') :
    ∃ test compiled, Eval.ofSource (Page.conditionOf e) = .ok test ∧
      Gives (document compileNode none below) c compiled c' ∧
      w = ⟨.node (.element e) position [], [onEntry (.condition test)], [(defaultSlot, compiled)], true, true⟩ := by
  rw [apply] at h
  obtain ⟨outcome, c₁, h1, h2⟩ := gives_bind h
  obtain ⟨m, c₂, h3, h4⟩ := gives_bind (gives_located h1)
  obtain ⟨test, htest, rfl, rfl⟩ := gives_condition h3
  obtain ⟨rfl, rfl⟩ := gives_pure h4
  obtain ⟨w₁, c₃, h5, h6⟩ := gives_bind h2
  obtain ⟨compiled, c₄, h7, h8⟩ := gives_bind h5
  obtain ⟨rfl, rfl⟩ := gives_pure h8
  obtain ⟨rfl, rfl⟩ := gives_pure h6
  exact ⟨test, compiled, htest, h7, rfl⟩

lemma displays_if (hif : e.tag = "if") (isVerbatim : Bool)
    (hbelow : ∀ t ∈ below, Shows (compileNode none false t) false t) :
    Shows (element compileNode none (.node (.element e) position below) e) isVerbatim
      (.node (.element e) position below) := by
  refine displays_decided position isVerbatim (fun c w c' hr h => ?_)
  rw [Candidate.select_if hif] at h
  obtain ⟨w', c₃, h4, h5⟩ := gives_foldlM_cons h
  obtain ⟨rfl, rfl⟩ := gives_foldlM_nil h5
  obtain ⟨test, compiled, htest, hdocument, rfl⟩ := gives_apply_ifElement h4
  obtain ⟨hregistry, hdynamics, hrender⟩ := render_document
    (V := fun scope q us => ViewedAll scope false below c.sequence us q) hdocument
    (fun c₀ ts' c₄ hregistry hsequence hts => hsequence ▸ becomes_nodes hbelow (hregistry.trans hr) hts)
  refine ⟨hregistry, hdynamics, rfl, [.condition test], compiled, _, rfl, rfl, decides_condition htest compiled,
    fun scope => ?_⟩
  obtain ⟨us, hus, hok⟩ := hrender scope
  refine ⟨us, ?_, hok⟩
  simp only [Viewed, if_pos hif]
  exact ⟨us, hus, rfl⟩

/-! ## Components -/

lemma gives_apply_component
    (h : Gives (apply compileNode { tree := .node (.element e) position below } ⟨Directive.component, none⟩) c w c') :
    ∃ (built : Component.Built) (compiled : Compiled) (token : String) (c₁ : Compiler),
      Component.build c.options.file c.sequence c.assetOf e position below = .ok built ∧
      Gives (document compileNode none built.template) (c.register built.output built.assets) compiled c₁ ∧
      Gives (pushDynamic (.nested compiled)) c₁ token c' ∧
      w = ⟨.node (.element (built.host e)) position [.leaf (.raw token) position], [], [], false, true⟩ := by
  rw [apply] at h
  obtain ⟨outcome, c₁, h1, h2⟩ := gives_bind h
  have hcomponent := gives_located h1
  obtain ⟨w₁, c₂, h3, h4⟩ := gives_bind h2
  obtain ⟨rfl, rfl⟩ := gives_pure h3
  obtain ⟨rfl, rfl⟩ := gives_pure h4
  change Gives (component compileNode (.node (.element e) position below)) c outcome c' at hcomponent
  rw [Gives, component_apply rfl] at hcomponent
  split at hcomponent
  · cases hcomponent
  · rename_i built hbuilt
    obtain ⟨nested, c₃, h5, h6⟩ := gives_bind (show Gives _ _ _ _ from hcomponent)
    obtain ⟨rfl, rfl⟩ := gives_pure h6
    obtain ⟨compiled, c₄, h7, h8⟩ := gives_bind h5
    obtain ⟨token, c₅, h9, h10⟩ := gives_bind h8
    obtain ⟨rfl, rfl⟩ := gives_pure h10
    exact ⟨built, compiled, token, c₄, hbuilt, h7, h9, rfl⟩

lemma Advances.of_gives {α : Type} {step : Compile α} {a : α} (h : Steady step) (hg : Gives step c a c') :
    Advances c c' := by
  have := h c
  rwa [hg] at this

lemma displays_component (hsteady : ∀ limit isVerbatim t, Steady (compileNode limit isVerbatim t))
    (htotal : ∀ limit isVerbatim t, Total (fun _ => True) (compileNode limit isVerbatim t))
    (hcomponent : e.tag = "component") (hclean : ∀ a ∈ e.attributes, a.isClean = true) (isVerbatim : Bool) :
    Shows (element compileNode none (.node (.element e) position below) e) isVerbatim
      (.node (.element e) position below) := by
  intro c t c' hr h
  have hadvances : Advances c c' := .of_gives (steady.element hsteady none _ e) h
  obtain ⟨w, c₁, settled, c₂, h1, h2, h3⟩ := gives_element hr h
  rw [Candidate.select_component hcomponent] at h1
  obtain ⟨w', c₃, h4, h5⟩ := gives_foldlM_cons h1
  obtain ⟨rfl, rfl⟩ := gives_foldlM_nil h5
  obtain ⟨built, compiled, token, c₄, hbuilt, hdocument, hpush, rfl⟩ := gives_apply_component h4
  obtain ⟨rfl, rfl⟩ := gives_pure h2
  obtain ⟨rfl, rfl⟩ := gives_pure h3
  have hregistry : (c.register built.output built.assets).registry = Registry.standard := hr
  obtain ⟨hregistry', hparts, hrenders⟩ := Total.isTotal_of_document htotal hregistry hdocument
  obtain ⟨-, -, -, hhead, -⟩ := Component.build_cases hbuilt
  obtain ⟨⟨a, ha, htag⟩, hmarkers⟩ := Component.head_of_ok hhead
  have hunmarked : '␣' ∉ (built.host e).tag.toList := by
    rw [Component.Built.host, htag]
    exact Text.not_mem_lower (Text.not_mem_trim (Attribute.isClean_iff.1 (hclean a ha)).2.2)
  have hopening : '␣' ∉ (built.host e).opening.toList := by
    rw [Markup.Element.toList_opening]
    simp only [mem_cons, mem_append, not_mem_nil, or_false, not_or]
    refine ⟨by decide, hunmarked, Markup.not_mem_renderAttributes (fun a ha => ?_), by decide⟩
    exact hclean a (mem_filter.1 ha).1
  have hcontent : Becomes c₄ c' (Tree.renderAllIn (Markup.verbatimTags.contains (built.host e).tag)
      [.leaf (.raw token) position]).toList (fun _ out => ∃ html : String, out = html.toList) := by
    have hpart := Becomes.pushed (P := fun _ out => ∃ html : String, out = html.toList) hpush (fun scope => by
      obtain ⟨r, hr⟩ := hrenders scope
      exact ⟨.nested r, by rw [Dynamic.exec, hr], _, rfl⟩)
    simpa only [Tree.renderAllIn, Tree.leaf, Tree.renderIn, String.append_empty] using hpart
  have hstart : Becomes c c₄ (built.host e).opening.toList (fun _ out => out = (built.host e).opening.toList) :=
    .text (hregistry'.trans hr.symm) hparts hopening (fun _ => rfl)
  refine Becomes.tagged hunmarked hstart hcontent isVerbatim ?_
  rintro scope _ _ rfl ⟨html, rfl⟩
  refine ⟨.node (.element (built.host e)) position [.leaf (.raw html) position], ?_, ?_⟩
  · show Viewed scope isVerbatim (.node (.element e) position below) _ _ _
    rw [Viewed, if_neg (by rw [hcomponent]; decide), if_pos hcomponent]
    refine ⟨hadvances.salt, hadvances.counter, _, html, rfl, fun a ha => ?_, rfl⟩
    obtain ⟨hmem, hconsumed⟩ := mem_filter.1 ha
    exact hmarkers a hmem (by simpa using hconsumed)
  · rw [Tree.renderIn]
    split
    · rfl
    · simp [Tree.renderAllIn, Tree.leaf, Tree.renderIn]

end

/-! ## Nodes -/

lemma displays_leaf {kind : Markup.Kind} (hkind : kind.isClean = true) (hdocument : kind ≠ .document)
    (helement : kind.element? = none) (position : Position) (below : List Tree) (isVerbatim : Bool) :
    Displays (pure (.node kind position below)) isVerbatim
      (fun _ q u q' => u = .node kind position below ∧ q' = q) := by
  intro c t c' _ h
  obtain ⟨rfl, rfl⟩ := gives_pure h
  refine .text rfl rfl ?_ (fun scope => ⟨_, ⟨rfl, rfl⟩, rfl⟩)
  cases kind with
  | document => exact absurd rfl hdocument
  | element e => cases helement
  | text s =>
    have hs := Markup.not_mem_of_isUnmarked hkind
    rw [Tree.renderIn]
    split
    · exact hs
    · rw [Markup.toList_escapeText]
      exact Markup.not_mem_flatMap Markup.not_mem_escapeTextChar hs
  | raw s => exact Markup.not_mem_of_isUnmarked hkind
  | _ => simp [Tree.renderIn, Markup.not_mem_of_isUnmarked hkind]

lemma displays_node : ∀ fuel : Nat,
    (∀ (t : Tree) (isVerbatim : Bool), t.Every (fun kind => kind.isClean = true) → 2 * t.height ≤ fuel →
      Shows (node fuel none isVerbatim t) isVerbatim t) ∧
    ∀ (e : Element) (position : Position) (below : List Tree) (isVerbatim : Bool),
      (Markup.Tree.node (.element e) position below).Every (fun kind => kind.isClean = true) →
      2 * (Markup.Tree.node (.element e) position below).height ≤ fuel + 1 →
      Displays (node fuel (some 599) isVerbatim (.node (.element e) position below)) isVerbatim (fun scope =>
        ViewedElement scope position (ViewedAll scope (Markup.verbatimTags.contains e.tag) below) e)
  | 0 => by
    refine ⟨fun t _ _ h => ?_, fun e position below _ _ h => ?_⟩
    · have := t.height_pos
      omega
    · rw [Tree.height_element] at h
      omega
  | fuel + 1 => by
    obtain ⟨ihNode, ihShown⟩ := displays_node fuel
    refine ⟨fun t isVerbatim hclean hfuel => ?_, fun e position below isVerbatim hclean hfuel => ?_⟩
    · obtain ⟨kind, position, below⟩ := t
      obtain ⟨hkind, hbelow⟩ := Tree.every_node.1 hclean
      have hnode : ∀ v, ∀ t ∈ below, Shows (node fuel none v t) v t := by
        intro v t ht
        refine ihNode t v (hbelow t ht) ?_
        have := Tree.height_lt_of_mem ht kind position
        omega
      cases kind with
      | document =>
        intro c t c' hr h
        obtain ⟨ts, c₁, h1, h2⟩ := gives_bind (show Gives (children (node fuel) (.node .document position below)) c t c'
          from h)
        obtain ⟨rfl, rfl⟩ := gives_pure h2
        have hcontent := becomes_nodes (hnode false) hr h1
        simp only [Tree.withChildren, Tree.kind, Tree.position, Tree.renderIn]
        refine hcontent.mono ?_
        rintro scope _ ⟨us, hus, rfl⟩
        exact ⟨.node .document position us, by rw [Viewed]; exact ⟨us, hus, rfl⟩, by rw [Tree.renderIn]⟩
      | element e =>
        obtain ⟨htag, hattributes⟩ := Markup.Kind.isClean_element.1 hkind
        by_cases hif : e.tag = "if"
        · exact displays_if hif isVerbatim (hnode false)
        · by_cases hcomponent : e.tag = "component"
          · exact displays_component (steady_node fuel) (total_node fuel) hcomponent hattributes isVerbatim
          · by_cases hguards : Page.guards e = []
            · have hconditions : Candidate.conditions e = [] := map_eq_nil_iff.2 hguards
              refine (displays_element (Candidate.select_plain hif hcomponent hconditions) htag hattributes isVerbatim
                (hnode _)).mono (fun scope q u q' hu => ?_)
              rw [Viewed, if_neg hif, if_neg hcomponent, hguards]
              exact hu
            · refine displays_guarded hif hcomponent hguards isVerbatim (fun e' he' hsub => ?_)
              rw [← he']
              refine ihShown e' position below false (Tree.every_node.2 ⟨?_, hbelow⟩) ?_
              · exact Markup.Kind.isClean_element.2 ⟨he' ▸ htag, fun a ha => hattributes a (hsub a ha)⟩
              · rw [Tree.height_element] at hfuel ⊢
                omega
      | text s =>
        have hstep : node (fuel + 1) none isVerbatim (.node (.text s) position below) =
            if !isVerbatim && Interpolation.hasMarkers s then Compile.text position s
            else pure (.node (.text s) position below) := rfl
        rw [hstep]
        by_cases hmarkers : (!isVerbatim && Interpolation.hasMarkers s) = true
        · rw [if_pos hmarkers]
          intro c t c' _ h
          obtain ⟨hsequence, hbecomes⟩ := becomes_text (Markup.not_mem_of_isUnmarked hkind) h isVerbatim
          refine hbecomes.mono (fun scope out hout => ⟨_, ?_, hout⟩)
          simpa only [Viewed, Page.node, if_pos hmarkers, true_and] using hsequence
        · rw [if_neg hmarkers]
          refine (displays_leaf hkind (by simp) rfl position below isVerbatim).mono (fun scope q u q' hu => ?_)
          simp only [Viewed, Page.node, if_neg hmarkers]
          exact hu
      | _ => exact displays_leaf hkind (by simp) rfl position below isVerbatim
    · obtain ⟨hkind, hbelow⟩ := Tree.every_node.1 hclean
      obtain ⟨htag, hattributes⟩ := Markup.Kind.isClean_element.1 hkind
      refine displays_element (Candidate.select_below e) htag hattributes isVerbatim (fun t ht => ?_)
      refine ihNode t _ (hbelow t ht) ?_
      have := Tree.height_le_heightAll ht
      rw [Tree.height_element] at hfuel
      omega

lemma two_mul_height_le_depthOf {ts : List Tree} (h : t ∈ ts) :
    2 * t.height ≤ depthOf Registry.standard ts := by
  have := Tree.height_le_heightAll h
  have hlength : Registry.standard.directives.length = 3 := rfl
  rw [depthOf, hlength]
  omega

end Compile

namespace Compiler

open Compile

variable {c : Compiler} {source : String} {d : Markup.Document} {out : CompileOutput}

lemma render_viewed (hr : c.registry = Registry.standard)
    (hparse : Markup.Document.parse source c.options.file = .ok d)
    (hclean : ∀ t ∈ nodesOf d, t.Every (fun kind => kind.isClean = true)) (hout : (c.compile source).1 = .ok out)
    (scope : Json) : ∃ us, ViewedAll scope false (nodesOf d) c.sequence us (c.compile source).2.sequence ∧
      out.compiled.render scope = .ok (Tree.renderAllIn false us) := by
  obtain ⟨k, htemplate, hsequence⟩ := template_of_compile hparse hout
  rw [template] at htemplate
  obtain ⟨c₀, c₁, h1, h2⟩ := gives_bind htemplate
  obtain ⟨rfl, rfl⟩ := gives_get h1
  rw [hr] at h2
  rw [hsequence]
  have hnodes := fun t ht => (displays_node _).1 t false (hclean t ht) (two_mul_height_le_depthOf ht)
  exact (render_document (V := fun scope q us => ViewedAll scope false (nodesOf d) c₁.sequence us q) h2
    (fun c₀ ts' c₂ hregistry hsequence hts => hsequence ▸ becomes_nodes hnodes (hregistry.trans hr) hts)).2.2 scope

lemma render_compile (hr : c.registry = Registry.standard)
    (hparse : Markup.Document.parse source c.options.file = .ok d)
    (hplain : (d.toTree Markup.Document.root).isPlain = true) (hout : (c.compile source).1 = .ok out) (scope : Json) :
    out.compiled.render scope = .ok (Tree.renderAllIn false ((Page.nodes false (nodesOf d) c.sequence).1 scope)) := by
  have hbelow : ∀ t ∈ nodesOf d, t.isPlain = true := by
    revert hplain
    rw [nodesOf]
    cases d.toTree Markup.Document.root with
    | node kind position below => exact fun hplain => (Tree.isPlain_node.1 hplain).2
  have hclean : ∀ t ∈ nodesOf d, t.Every (fun kind => kind.isClean = true) :=
    fun t ht u hu => Markup.Kind.isClean_of_isPlain (all_eq_true.1 (hbelow t ht) u hu)
  obtain ⟨us, hus, hrender⟩ := render_viewed hr hparse hclean hout scope
  rw [hrender, (ViewedAll.eq_page hbelow hus).1]

end Compiler
end ReactiveTemplate
