import ReactiveTemplate.Proofs.Characters
import ReactiveTemplate.Proofs.Component.Taken
import ReactiveTemplate.Proofs.Template.Artifacts
import ReactiveTemplate.Proofs.Template.Candidates
/-!
# Descent — compiling a page comes to an end

A node is compiled by compiling nodes below it, the bound template of a component, or the node once more where a
directive takes it over: each call goes down in an order without infinite descents (`Below`).
-/
set_option linter.all false

namespace ReactiveTemplate
open List
open Markup (Tree Element)

variable {ts nodes : List Tree} {n : Nat} {isVerbatim : Bool} {w : Tree}

/-! ## Levels of a tree -/

namespace Markup.Tree

lemma heightAll_le (h : ∀ t ∈ ts, t.height ≤ n) : heightAll ts ≤ n := by
  induction ts with
  | nil => exact Nat.zero_le n
  | cons t ts ih =>
    rw [heightAll, Nat.max_le]
    exact ⟨h t mem_cons_self, ih (fun u hu => h u (.tail _ hu))⟩

def hosts (t : Tree) : Bool := t.preorder.any (fun u => u.tag? == some "component")

lemma mem_preorderAll {u : Tree} {ts : List Tree} : u ∈ preorderAll ts ↔ ∃ t ∈ ts, u ∈ t.preorder := by
  induction ts with
  | nil => simp [preorderAll]
  | cons t ts ih =>
    rw [preorderAll, mem_append, ih]
    simp

lemma hosts_iff {t : Tree} : t.hosts = true ↔ t.tag? = some "component" ∨ ∃ u ∈ t.children, u.hosts = true := by
  obtain ⟨kind, position, children⟩ := t
  simp only [hosts, preorder, any_cons, Bool.or_eq_true, beq_iff_eq, any_eq_true, mem_preorderAll, Tree.children]
  refine or_congr Iff.rfl ?_
  constructor
  · rintro ⟨v, ⟨u, hu, hv⟩, htag⟩
    exact ⟨u, hu, v, hv, htag⟩
  · rintro ⟨u, hu, v, hv, htag⟩
    exact ⟨v, ⟨u, hu, hv⟩, htag⟩

/-- How many levels a tree has below its top; one more where a component stands, whose texts become elements. -/
def levels (t : Tree) : Nat := t.height - 1 + if t.hosts then 1 else 0

/-- A tree that is no deeper than another one, and holds components only if that one does. -/
structure Within (t outer : Tree) : Prop where
  height : t.height ≤ outer.height
  hosts : t.hosts = true → outer.hosts = true

structure Inside (t outer : Tree) : Prop where
  height : t.height < outer.height
  hosts : t.hosts = true → outer.hosts = true

variable {t u outer : Tree}

lemma Within.refl (t : Tree) : t.Within t := ⟨Nat.le_refl _, id⟩

lemma Within.inside (h : t.Within u) (h' : u.Inside outer) : t.Inside outer :=
  ⟨Nat.lt_of_le_of_lt h.height h'.height, h'.hosts ∘ h.hosts⟩

lemma Inside.within (h : t.Inside u) (h' : u.Within outer) : t.Inside outer :=
  ⟨Nat.lt_of_lt_of_le h.height h'.height, h'.hosts ∘ h.hosts⟩

lemma inside_of_mem_children (h : u ∈ t.children) : u.Inside t := by
  refine ⟨?_, fun hu => hosts_iff.2 (.inr ⟨u, h, hu⟩)⟩
  obtain ⟨kind, position, children⟩ := t
  exact height_lt_of_mem h kind position

lemma two_le_height {e : Element} (h : t.element? = some e) : 2 ≤ t.height := by
  obtain ⟨kind, position, children⟩ := t
  cases kind with
  | element _ =>
    rw [height_element]
    omega
  | _ => cases h

lemma Within.withChildren (h : t.Within outer) (hts : ∀ u ∈ ts, u.Inside outer) :
    (t.withChildren ts).Within outer := by
  have hpos := outer.height_pos
  have hall : heightAll ts ≤ outer.height - 1 := heightAll_le (fun u hu => by have := (hts u hu).height; omega)
  refine ⟨?_, fun hhosts => ?_⟩
  · have hheight := h.height
    obtain ⟨kind, position, children⟩ := t
    cases kind <;> simp only [Tree.withChildren, Tree.kind, Tree.position, Tree.height] at hheight ⊢ <;> omega
  · rcases hosts_iff.1 hhosts with htag | ⟨u, hu, hhosts⟩
    · exact h.hosts (hosts_iff.2 (.inl htag))
    · exact (hts u hu).hosts hhosts

lemma Within.mapElement {f : Element → Element} (h : t.Within outer) (hf : ∀ e, (f e).tag = e.tag) :
    (t.mapElement f).Within outer := by
  obtain ⟨kind, position, children⟩ := t
  cases kind with
  | element e =>
    refine ⟨h.height, fun hhosts => h.hosts ?_⟩
    rw [hosts_iff] at hhosts ⊢
    exact hhosts.imp_left (fun htag => by simpa [Tree.mapElement, Tree.tag?, Kind.tag?, Kind.element?, Tree.kind, hf] using htag)
  | _ => exact h

lemma inside_leaf {kind : Kind} (hkind : kind.element? = none) (position : Position) (h : 2 ≤ outer.height) :
    (leaf kind position).Inside outer := by
  refine ⟨?_, fun hhosts => ?_⟩
  · cases kind with
    | element _ => cases hkind
    | _ => exact h
  · rcases hosts_iff.1 hhosts with htag | ⟨u, hu, -⟩
    · simp [Tree.tag?, Kind.tag?, leaf, Tree.kind, hkind] at htag
    · cases hu

lemma within_raw (html : String) (position : Position) (t : Tree) : (leaf (.raw html) position).Within t := by
  refine ⟨t.height_pos, fun hhosts => ?_⟩
  rcases hosts_iff.1 hhosts with htag | ⟨u, hu, -⟩
  · cases htag
  · cases hu

lemma inside_of_mem_appendText {s : String} {position : Position} (h : 2 ≤ outer.height) : ∀ {ts : List Tree},
    (∀ t ∈ ts, t.Inside outer) → ∀ u ∈ appendText s position ts, u.Inside outer := by
  intro ts
  fun_induction appendText s position ts with
  | case1 =>
    intro _ u hu
    rw [mem_singleton.1 hu]
    exact inside_leaf rfl position h
  | case2 existing at_ below =>
    intro hts u hu
    obtain ⟨hheight, hhosts⟩ := hts _ (.head _)
    rw [mem_singleton.1 hu]
    exact ⟨hheight, fun hu => hhosts (hosts_iff.2 (hosts_iff.1 hu))⟩
  | case3 t ts _ ih =>
    intro hts u hu
    rcases mem_cons.1 hu with rfl | hu
    · exact hts _ (.head _)
    · exact ih (fun v hv => hts v (.tail _ hv)) u hu

lemma Inside.levels_lt (h : t.Inside outer) : t.levels < outer.levels := by
  have hheight := h.height
  have hpos := t.height_pos
  unfold levels
  cases ht : t.hosts with
  | false => simp only [Bool.false_eq_true, if_false]; omega
  | true => simp only [h.hosts ht, if_true]; omega

lemma Within.levels_le (h : t.Within outer) : t.levels ≤ outer.levels := by
  have hheight := h.height
  unfold levels
  cases ht : t.hosts with
  | false => simp only [Bool.false_eq_true, if_false]; omega
  | true => simp only [h.hosts ht, if_true]; omega

end Markup.Tree

/-! ## The template of a component -/

namespace Component

lemma Binds.height_le {R : Element → Element → Prop} {us : List Tree}
    (h : Binds R isVerbatim ts us) : Tree.heightAll us ≤ Tree.heightAll ts + 1 := by
  induction h with
  | nil _ => exact Nat.zero_le _
  | element _ _ _ ihbelow ihrest =>
    simp only [Tree.heightAll, Tree.height_element]
    omega
  | @text s position children ts us sequence _ _ ihrest =>
    have hpieces : Tree.heightAll ((scan s sequence).1.parts.map (pieceNode position)) ≤ 2 := by
      refine Tree.heightAll_le (fun t ht => ?_)
      obtain ⟨piece, -, rfl⟩ := mem_map.1 ht
      cases piece with
      | literal s => exact Nat.le_succ 1
      | expression found => exact Nat.le_refl 2
    have happend : ∀ vs ws : List Tree, Tree.heightAll (vs ++ ws) = max (Tree.heightAll vs) (Tree.heightAll ws) := by
      intro vs ws
      induction vs with
      | nil => exact (Nat.zero_max _).symm
      | cons v vs ih => rw [cons_append, Tree.heightAll, Tree.heightAll, ih, Nat.max_assoc]
    rw [happend]
    simp only [Tree.heightAll, Markup.Tree.height]
    omega
  | other _ _ _ ihrest =>
    simp only [Tree.heightAll]
    omega

lemma Binds.hosts {R : Element → Element → Prop} (hR : ∀ e bound, R e bound → bound.tag = e.tag)
    {us : List Tree} (h : Binds R isVerbatim ts us) (hts : ∀ t ∈ ts, t.hosts = false) : ∀ u ∈ us, u.hosts = false := by
  induction h with
  | nil _ => exact hts
  | @element _ e bound position children below ts us helement _ _ ihbelow ihrest =>
    obtain ⟨hfirst, hrest⟩ := forall_mem_cons.1 hts
    rw [Bool.eq_false_iff, Ne, Tree.hosts_iff, not_or] at hfirst
    refine forall_mem_cons.2 ⟨?_, ihrest hrest⟩
    rw [Bool.eq_false_iff, Ne, Tree.hosts_iff, not_or]
    refine ⟨fun htag => hfirst.1 ?_, ?_⟩
    · rw [← htag]
      exact congrArg some (hR e bound helement).symm
    · rintro ⟨u, hu, hhosts⟩
      have hbelow := ihbelow (fun t ht => Bool.eq_false_iff.2 (fun hhosts => hfirst.2 ⟨t, ht, hhosts⟩)) u hu
      rw [hhosts] at hbelow
      cases hbelow
  | @text s position children ts us sequence _ _ ihrest =>
    intro u hu
    rcases mem_append.1 hu with hu | hu
    · obtain ⟨piece, -, rfl⟩ := mem_map.1 hu
      cases piece with
      | literal s => rfl
      | expression found => rfl
    · exact ihrest (forall_mem_cons.1 hts).2 u hu
  | other _ _ _ ihrest =>
    obtain ⟨hfirst, hrest⟩ := forall_mem_cons.1 hts
    exact forall_mem_cons.2 ⟨hfirst, ihrest hrest⟩

variable {file : String} {sequence : Sequence} {assetOf : String → Option String} {e : Element} {position : Position}
  {children : List Tree} {built : Built}

lemma within_of_build (h : build file sequence assetOf e position children = .ok built) :
    Tree.heightAll built.template ≤ Tree.heightAll children + 1 ∧ ∀ u ∈ built.template, u.hosts = false := by
  obtain ⟨parts, hparts, hbinds⟩ := binds_of_build h
  have htemplate : parts.template = children.map Parts.emptied ∧ ∀ t ∈ children, t.hosts = false := by
    unfold Parts.ofChildren at hparts
    split at hparts
    · cases hparts
    · rename_i hnone
      refine ⟨?_, fun t ht => ?_⟩
      · revert hparts
        cases single file "style" .manyStyles .styleLocation children with
        | error d => exact nofun
        | ok style =>
          cases single file "script" .manyScripts .scriptLocation children with
          | error d => exact nofun
          | ok script => exact fun hparts => (Except.ok.inj hparts) ▸ rfl
      · rw [Tree.hosts, any_eq_false]
        exact fun u hu => find?_eq_none.1 hnone u (Tree.mem_preorderAll.2 ⟨t, ht, hu⟩)
  obtain ⟨htemplate, hhosts⟩ := htemplate
  have hemptied : ∀ t : Tree, (Parts.emptied t).Within t := by
    intro t
    unfold Parts.emptied
    split
    · exact Tree.within_raw _ _ t
    · exact .refl t
  constructor
  · refine Nat.le_trans hbinds.height_le (Nat.succ_le_succ (Tree.heightAll_le (fun t ht => ?_)))
    rw [htemplate] at ht
    obtain ⟨u, hu, rfl⟩ := mem_map.1 ht
    exact Nat.le_trans (hemptied u).height (Tree.height_le_heightAll hu)
  · refine hbinds.hosts (fun e bound hbound => tag_of_bindsTo hbound) (fun t ht => ?_)
    rw [htemplate] at ht
    obtain ⟨u, hu, rfl⟩ := mem_map.1 ht
    refine Bool.eq_false_iff.2 (fun hemptiedHosts => ?_)
    have hnone := hhosts u hu
    rw [(hemptied u).hosts hemptiedHosts] at hnone
    cases hnone

end Component

/-! ## Directives -/

/-- A registry whose directives build components from `component` elements only, as the built-in one does. -/
def Registry.BuildsComponents (r : Registry) : Prop :=
  ∀ d ∈ r.directives, d.behaviour = some .component → d.onAttribute = false ∧ d.name = "component"

lemma Registry.buildsComponents_standard : Registry.standard.BuildsComponents := by
  intro d hd hcomponent
  rcases mem_cons.1 hd with rfl | hd
  · cases hcomponent
  rcases mem_cons.1 hd with rfl | hd
  · cases hcomponent
  obtain rfl := mem_singleton.1 hd
  exact ⟨rfl, rfl⟩

lemma Registry.BuildsComponents.child {r : Registry} (hr : r.BuildsComponents) {directives : List Directive}
    (h : ∀ d ∈ directives, d.behaviour ≠ some .component) : (r.child directives).BuildsComponents := by
  intro d hd hcomponent
  rw [Registry.directives, Registry.child, flatten_append, flatten_singleton] at hd
  rcases mem_append.1 hd with hd | hd
  · exact hr d hd hcomponent
  · exact absurd hcomponent (h d hd)

def Registry.rank (r : Registry) (limit : Option Nat) : Nat :=
  r.directives.countP (fun d => Candidate.isBelow limit d.priority)

lemma Registry.rank_le (r : Registry) (limit : Option Nat) : r.rank limit ≤ r.directives.length := countP_le_length

namespace Candidate

variable {r : Registry} {limit : Option Nat} {e : Element} {k : Candidate}

lemma isBelow_of_lt {p q : Nat} (hp : isBelow limit p = true) (h : q < p) : isBelow limit q = true := by
  cases limit with
  | none => rfl
  | some l =>
    have hl : p < l := of_decide_eq_true hp
    exact decide_eq_true (Nat.lt_trans h hl)

lemma isBelow_of_mem_select (h : k ∈ select r limit e) : isBelow limit k.directive.priority = true := by
  rw [select] at h
  exact (mem_filter.1 (mem_mergeSort.1 (mem_filter.1 h).1)).2

lemma rank_lt_of_mem_select (h : k ∈ select r limit e) (helement : k.directive.transclude = .element) :
    r.rank (some k.directive.priority) < r.rank limit := by
  have hmem : k.directive ∈ r.directives := by
    rcases directive_of_mem_select h with hmem | heq
    · exact hmem
    · rw [heq] at helement
      cases helement
  have hbelow := isBelow_of_mem_select h
  have hmono : ∀ d : Directive, isBelow (some k.directive.priority) d.priority = true → isBelow limit d.priority = true :=
    fun d hd => isBelow_of_lt hbelow (of_decide_eq_true hd)
  have hself : isBelow (some k.directive.priority) k.directive.priority = false := decide_eq_false (Nat.lt_irrefl _)
  obtain ⟨before, behind, heq⟩ := append_of_mem hmem
  have hbefore := countP_mono_left (l := before) (fun d _ => hmono d)
  have hbehind := countP_mono_left (l := behind) (fun d _ => hmono d)
  unfold Registry.rank
  rw [heq, countP_append, countP_append, countP_cons, countP_cons, hself, hbelow]
  simp only [Bool.false_eq_true, if_false, if_true]
  omega

lemma tag_of_mem_select (hr : r.BuildsComponents) (h : k ∈ select r limit e)
    (hcomponent : k.directive.behaviour = some .component) : e.tag = "component" := by
  have hall : k ∈ all r e := by
    rw [select] at h
    exact (mem_filter.1 (mem_mergeSort.1 (mem_filter.1 h).1)).1
  rcases mem_append.1 hall with hall | hall
  · obtain ⟨d, hd, rfl⟩ := mem_map.1 hall
    obtain ⟨hmem, hd⟩ := mem_filter.1 hd
    rw [Bool.and_eq_true, beq_iff_eq] at hd
    rw [← hd.2]
    exact (hr d hmem hcomponent).2
  · obtain ⟨a, -, hall⟩ := mem_flatMap.1 hall
    rcases mem_append.1 hall with hall | hall
    · obtain ⟨d, hd, rfl⟩ := mem_map.1 hall
      obtain ⟨hmem, hd⟩ := mem_filter.1 hd
      rw [(hr d hmem hcomponent).1, Bool.false_and] at hd
      cases hd
    · split at hall
      · rw [mem_singleton.1 hall] at hcomponent
        cases hcomponent
      · cases hall

end Candidate

namespace Compile

/-! ## Calls go down -/

def Below (r : Registry) (x y : Option Nat × Tree) : Prop :=
  Prod.Lex (· < ·) (· < ·) (x.2.levels, r.rank x.1) (y.2.levels, r.rank y.1)

lemma wellFounded_below (r : Registry) : WellFounded (Below r) :=
  InvImage.wf (fun x : Option Nat × Tree => (x.2.levels, r.rank x.1)) (Nat.lt_wfRel.wf.prod_lex Nat.lt_wfRel.wf)

section

variable {r : Registry} {limit limit' : Option Nat} {t u : Tree}

lemma below_of_levels (h : u.levels < t.levels) : Below r (limit', u) (limit, t) := .left _ _ h

lemma below_of_rank (h : u.Within t) (hrank : r.rank limit' < r.rank limit) : Below r (limit', u) (limit, t) := by
  rcases Nat.lt_or_eq_of_le h.levels_le with hlevels | hlevels
  · exact below_of_levels hlevels
  · unfold Below
    rw [hlevels]
    exact .right _ hrank

end

def Coincide {α : Type} (r : Registry) (P : α → Prop) (step step' : Compile α) : Prop :=
  ∀ c, c.registry = r → step c = step' c ∧ (step c).2.registry = r ∧ ∀ a, (step c).1 = .ok a → P a

namespace Coincide

variable {α β : Type} {r : Registry} {P : α → Prop} {Q : β → Prop}

lemma pure {a : α} (h : P a) : Coincide r P (Pure.pure a) (Pure.pure a) :=
  fun _ hc => ⟨rfl, hc, fun _ ha => Except.ok.inj ha ▸ h⟩

lemma throw (d : Diagnostic) : Coincide r P (MonadExcept.throw d) (MonadExcept.throw d) := fun _ hc => ⟨rfl, hc, nofun⟩

lemma bind {step step' : Compile α} {next next' : α → Compile β} (h : Coincide r P step step')
    (hnext : ∀ a, P a → Coincide r Q (next a) (next' a)) : Coincide r Q (step >>= next) (step' >>= next') := by
  intro c hc
  obtain ⟨heq, hregistry, hP⟩ := h c hc
  rw [bind_apply, bind_apply, ← heq]
  rcases hstep : step c with ⟨result, k⟩
  rw [hstep] at hregistry hP
  cases result with
  | ok a => exact hnext a (hP a rfl) k hregistry
  | error d => exact ⟨rfl, hregistry, nofun⟩

lemma mono {S : α → Prop} {step step' : Compile α} (h : Coincide r P step step') (hP : ∀ a, P a → S a) :
    Coincide r S step step' := fun c hc =>
  ⟨(h c hc).1, (h c hc).2.1, fun a ha => hP a ((h c hc).2.2 a ha)⟩

lemma of_steady {step : Compile α} (h : Steady step) : Coincide r (fun _ => True) step step :=
  fun c hc => ⟨rfl, (h c).registry.trans hc, fun _ _ => trivial⟩

lemma get : Coincide r (fun c => c.registry = r) MonadState.get MonadState.get :=
  fun _ hc => ⟨rfl, hc, fun _ ha => Except.ok.inj ha ▸ hc⟩

lemma set {c : Compiler} (h : c.registry = r) : Coincide r (fun _ => True) (MonadState.set c) (MonadState.set c) :=
  fun _ _ => ⟨rfl, h, fun _ _ => trivial⟩

lemma located {step step' : Compile α} (h : Coincide r P step step') (position : Position) :
    Coincide r P (located position step) (located position step') := by
  intro c hc
  obtain ⟨heq, hregistry, hP⟩ := h c hc
  unfold Compile.located
  rw [← heq]
  refine ⟨rfl, hregistry, fun a ha => hP a ?_⟩
  rcases hstep : step c with ⟨result, k⟩
  rw [hstep] at ha
  cases result with
  | ok a' => exact ha
  | error d => cases ha

lemma mapM {f f' : α → Compile β} : ∀ {as : List α}, (∀ a ∈ as, Coincide r Q (f a) (f' a)) →
    Coincide r (fun bs => ∀ b ∈ bs, Q b) (as.mapM f) (as.mapM f')
  | [], _ => pure nofun
  | a :: as, h => by
    rw [mapM_cons, mapM_cons]
    refine (h a (.head _)).bind (fun b hb => ?_)
    refine (mapM (fun x hx => h x (.tail _ hx))).bind (fun bs hbs => pure ?_)
    exact forall_mem_cons.2 ⟨hb, hbs⟩

lemma foldlM {f f' : β → α → Compile β} : ∀ {as : List α} {b : β}, (∀ b, ∀ a ∈ as, Q b → Coincide r Q (f b a) (f' b a)) →
    Q b → Coincide r Q (as.foldlM f b) (as.foldlM f' b)
  | [], _, _, hb => pure hb
  | a :: as, b, h, hb => by
    rw [foldlM_cons, foldlM_cons]
    exact (h b a (.head _) hb).bind (fun b' hb' => foldlM (fun b x hx => h b x (.tail _ hx)) hb')

/-! ### One node, given that the calls below it coincide -/

variable {limit : Option Nat} {t : Tree} {g g' : NodeCompiler}

lemma document {limit : Option Nat}
    (h : ∀ u ∈ nodes, Coincide r (·.Within u) (g limit false u) (g' limit false u)) :
    Coincide r (fun _ => True) (Compile.document g limit nodes) (Compile.document g' limit nodes) := by
  intro c hc
  obtain ⟨heq, hregistry, -⟩ :=
    mapM (fun u hu => (h u hu).mono (S := fun _ => True) (fun _ _ => trivial)) { c with dynamics := [] } hc
  refine ⟨?_, hregistry, fun _ _ => trivial⟩
  have hrun : (nodes.mapM (g limit false)).run { c with dynamics := [] } =
      (nodes.mapM (g' limit false)).run { c with dynamics := [] } := heq
  simp only [Compile.document, hrun]

variable (hnode : ∀ limit' isVerbatim u, Below r (limit', u) (limit, t) →
  Coincide r (·.Within u) (g limit' isVerbatim u) (g' limit' isVerbatim u))

include hnode

lemma children (hw : w.Within t) : Coincide r (·.Within t) (Compile.children g w) (Compile.children g' w) := by
  have hbelow : ∀ u ∈ w.children, u.Inside t := fun u hu => (Tree.inside_of_mem_children hu).within hw
  refine (mapM (Q := (·.Inside t)) (fun u hu => ?_)).bind (fun us hus => pure (hw.withChildren hus))
  exact (hnode none _ u (below_of_levels (hbelow u hu).levels_lt)).mono (fun v hv => hv.inside (hbelow u hu))

lemma slot (h : ∀ u ∈ nodes, u.Inside t) :
    Coincide r (fun _ => True) (Compile.document g none nodes) (Compile.document g' none nodes) :=
  document (fun u hu => hnode none false u (below_of_levels (h u hu).levels_lt))

lemma nest (hw : (w.withChildren []).Within t) (h : 2 ≤ t.height)
    (hbelow : ∀ u ∈ w.children, u.levels < t.levels) : Coincide r (·.Within t) (Compile.nest g w) (Compile.nest g' w) := by
  refine (document (fun u hu => hnode none false u (below_of_levels (hbelow u hu)))).bind (fun compiled _ => ?_)
  refine (of_steady (steady.pushDynamic _)).bind (fun token _ => pure (hw.withChildren (fun u hu => ?_)))
  rw [mem_singleton.1 hu]
  exact Tree.inside_leaf rfl _ h

lemma steps (h : 2 ≤ t.height) : ∀ (items : List CompileStep) {w : Tree}, w.Within t →
    Coincide r (fun outcome => outcome.tree.Within t) (Compile.steps g w items) (Compile.steps g' w items)
  | [], _, hw => pure hw
  | .set _ _ :: rest, _, hw => steps h rest (hw.mapElement (fun _ => rfl))
  | .remove _ :: rest, _, hw => steps h rest (hw.mapElement (fun _ => rfl))
  | .addClass _ :: rest, _, hw => steps h rest (hw.mapElement (fun e => Component.tag_addClass e _))
  | .appendText _ :: rest, _, hw => steps h rest (hw.withChildren (Tree.inside_of_mem_appendText h
      (fun _ hu => (Tree.inside_of_mem_children hu).within hw)))
  | .hash _ :: rest, _, hw =>
    get.bind (fun _ hc => .bind (set hc) (fun _ _ => steps h rest (hw.mapElement (fun _ => rfl))))
  | .file _ :: rest, _, hw => get.bind (fun _ _ => steps h rest (hw.mapElement (fun _ => rfl)))
  | .children :: rest, _, hw => (children hnode hw).bind (fun _ hw' => steps h rest hw')
  | .nest :: rest, _, hw =>
    (nest hnode (hw.withChildren nofun) h (fun _ hu => ((Tree.inside_of_mem_children hu).within hw).levels_lt)).bind
      (fun _ hw' => steps h rest hw')
  | .fail _ _ :: _, _, _ => throw _
  | .methods _ _ :: _, _, hw => pure hw

lemma component (hw : w.Within t) (h : 2 ≤ t.height) (hhosts : t.hosts = true) :
    Coincide r (fun outcome => outcome.tree.Within t) (Compile.component g w) (Compile.component g' w) := by
  cases helement : w.element? with
  | none =>
    rw [component_of_none helement, component_of_none helement]
    exact pure hw
  | some e =>
    intro c hc
    rw [component_apply helement, component_apply helement]
    cases hbuilt : Component.build c.options.file c.sequence c.assetOf e w.position w.children with
    | error d => exact ⟨rfl, hc, nofun⟩
    | ok built =>
      obtain ⟨hheight, hnone⟩ := Component.within_of_build hbuilt
      have hbelow : ∀ u ∈ built.template, u.levels < t.levels := by
        intro u hu
        have hu' := Tree.height_le_heightAll hu
        have hpos := u.height_pos
        have hchildren : Tree.heightAll w.children < t.height := by
          refine Nat.lt_of_lt_of_le ?_ hw.height
          obtain ⟨kind, position, children⟩ := w
          cases kind <;> simp only [Markup.Tree.height, Tree.children] <;> omega
        unfold Tree.levels
        rw [hnone u hu, hhosts]
        simp only [Bool.false_eq_true, if_false, if_true]
        omega
      have hnest := nest (w := .node (.element (built.host e)) w.position built.template) hnode ⟨h, fun _ => hhosts⟩ h hbelow
      exact hnest.bind (fun v hv => pure hv) (c.register built.output built.assets) hc

lemma behave (hw : w.Within t) (h : 2 ≤ t.height) (a : Option Markup.Attribute) {b : Behaviour}
    (hcomponent : b = .component → t.hosts = true) :
    Coincide r (fun outcome => outcome.tree.Within t) (Compile.behave g a w b) (Compile.behave g' a w b) := by
  cases b with
  | conditionElement => exact (of_steady (steady.condition _)).bind (fun _ _ => pure hw)
  | conditionAttribute => exact (of_steady (steady.condition _)).bind (fun _ _ => pure (hw.mapElement (fun _ => rfl)))
  | component => exact component hnode hw h (hcomponent rfl)
  | interpolation =>
    cases a with
    | none => exact pure hw
    | some a =>
      exact (of_steady (steady.scanText _)).bind (fun pieces _ =>
        .bind (of_steady (steady.mapM steady.valuePiece pieces)) (fun _ _ => pure hw))
  | custom label items =>
    exact .bind (of_steady (fun c => .of_eq rfl rfl rfl (Nat.le_refl _) rfl rfl)) (fun _ _ => steps hnode h items hw)

lemma takeSlot {w : Work} (hw : w.tree.Within t) (entry : String × String) :
    Coincide r (fun w' => w'.tree.Within t) (Compile.takeSlot g w entry) (Compile.takeSlot g' w entry) := by
  have hbelow : ∀ u ∈ w.tree.children, u.Inside t := fun u hu => (Tree.inside_of_mem_children hu).within hw
  unfold Compile.takeSlot
  rw [partition_eq_filter_filter]
  refine (slot hnode (fun u hu => hbelow u (mem_filter.1 hu).1)).bind (fun compiled _ => pure ?_)
  exact hw.withChildren (fun u hu => hbelow u (mem_filter.1 hu).1)

lemma transclude {d : Directive} {w : Work} (hw : w.tree.Within t)
    (hrank : d.transclude = .element → r.rank (some d.priority) < r.rank limit) :
    Coincide r (fun w' => w'.tree.Within t) (Compile.transclude g d w) (Compile.transclude g' d w) := by
  have hbelow : ∀ w : Work, w.tree.Within t → ∀ u ∈ w.tree.children, u.Inside t :=
    fun w hw u hu => (Tree.inside_of_mem_children hu).within hw
  unfold Compile.transclude
  split
  · exact pure hw
  · exact (slot hnode (hbelow w hw)).bind (fun _ _ => pure (hw.withChildren nofun))
  · rename_i helement
    refine (document (fun u hu => ?_)).bind (fun _ _ => pure hw)
    rw [mem_singleton.1 hu]
    exact hnode (some d.priority) false w.tree (below_of_rank hw (hrank helement))
  · refine (foldlM (fun w entry _ hw => takeSlot hnode hw entry) hw).bind (fun w' hw' => ?_)
    exact (slot hnode (hbelow w' hw')).bind (fun _ _ => pure (hw'.withChildren nofun))

lemma apply (hr : r.BuildsComponents) {e : Element} (he : t.element? = some e) {w : Work} (hw : w.tree.Within t)
    {k : Candidate} (hk : k ∈ Candidate.select r limit e) :
    Coincide r (fun w' => w'.tree.Within t) (Compile.apply g w k) (Compile.apply g' w k) := by
  unfold Compile.apply
  refine (Coincide.located ?_ w.tree.position).bind (fun outcome (houtcome : outcome.tree.Within t) => ?_)
  · cases hbehaviour : k.directive.behaviour with
    | none => exact pure hw
    | some b =>
      refine behave hnode hw (Tree.two_le_height he) k.attr (fun hcomponent => ?_)
      have htag := Candidate.tag_of_mem_select hr hk (hbehaviour.trans (congrArg some hcomponent))
      refine Tree.hosts_iff.2 (.inl ?_)
      rw [Tree.tag?, Markup.Kind.tag?, show t.kind.element? = some e from he, Option.map_some, htag]
  exact (transclude hnode houtcome (Candidate.rank_lt_of_mem_select hk)).bind (fun w' hw' => pure hw')

omit hnode in
lemma settle {w : Work} (hw : w.tree.Within t) :
    Coincide r (·.Within t) (Compile.settle w) (Compile.settle w) := by
  unfold Compile.settle
  split
  · exact (of_steady (steady.pushDynamic _)).bind (fun _ _ => pure (Tree.within_raw _ _ t))
  · split
    · exact pure hw
    · exact (of_steady (steady.pushDynamic _)).bind (fun _ _ => pure (hw.mapElement (fun _ => rfl)))

lemma element (hr : r.BuildsComponents) {e : Element} (he : t.element? = some e) :
    Coincide r (·.Within t) (Compile.element g limit t e) (Compile.element g' limit t e) := by
  refine get.bind (fun c hc => ?_)
  rw [hc]
  refine (foldlM (fun w k hk hw => apply hnode hr he hw hk) (Tree.Within.refl t)).bind (fun w hw => ?_)
  refine (settle hw).bind (fun settled hsettled => ?_)
  split
  · exact pure hsettled
  · exact children hnode hsettled

lemma nodeWith (hr : r.BuildsComponents) (isVerbatim : Bool) :
    Coincide r (·.Within t) (Compile.nodeWith g limit isVerbatim t) (Compile.nodeWith g' limit isVerbatim t) := by
  unfold Compile.nodeWith
  split
  · rename_i e hkind
    exact element hnode hr (by rw [Tree.element?, hkind]; rfl)
  · split
    · refine (of_steady (steady.scanText _)).bind (fun pieces _ => ?_)
      exact ((of_steady (steady.mapM steady.textPiece pieces)).located _).bind (fun _ _ => pure (Tree.within_raw _ _ t))
    · exact pure (.refl t)
  · exact children hnode (.refl t)
  · exact pure (.refl t)

end Coincide

/-! ## Compiling to the end -/

/-- How many calls are open at most while a node is compiled: on each level one for each directive, and one more. -/
def callsOn (r : Registry) (limit : Option Nat) (t : Tree) : Nat :=
  t.levels * (r.directives.length + 1) + r.rank limit + 1

section

variable {r : Registry} {limit limit' : Option Nat} {t u : Tree}

lemma callsOn_lt (h : Below r (limit', u) (limit, t)) : callsOn r limit' u < callsOn r limit t := by
  have hrank := r.rank_le limit'
  unfold callsOn
  rcases Prod.lex_def.1 h with hlevels | ⟨hlevels, hrank⟩
  · have hmul := Nat.mul_le_mul_right (r.directives.length + 1) (show u.levels + 1 ≤ t.levels from hlevels)
    rw [Nat.add_mul] at hmul
    omega
  · rw [show u.levels = t.levels from hlevels]
    have hlt : r.rank limit' < r.rank limit := hrank
    omega

lemma coincide_iterate (hr : r.BuildsComponents) (f f' : NodeCompiler) : ∀ {n' : Nat} {limit : Option Nat}
    {t : Tree} (isVerbatim : Bool), callsOn r limit t ≤ n → callsOn r limit t ≤ n' →
    Coincide r (·.Within t) (nodeWith^[n] f limit isVerbatim t) (nodeWith^[n'] f' limit isVerbatim t) := by
  induction n with
  | zero => exact fun _ h => absurd h (Nat.not_succ_le_zero _)
  | succ n ih =>
    intro n' limit t isVerbatim h h'
    cases n' with
    | zero => exact absurd h' (Nat.not_succ_le_zero _)
    | succ n' =>
      rw [Function.iterate_succ_apply', Function.iterate_succ_apply']
      refine Coincide.nodeWith (fun limit' isVerbatim' u hbelow => ?_) hr isVerbatim
      have hlt := callsOn_lt hbelow
      exact ih isVerbatim' (by omega) (by omega)

lemma node_eq_iterate : ∀ n : Nat, node n = nodeWith^[n] (node 0)
  | 0 => rfl
  | n + 1 => by
    rw [Function.iterate_succ_apply', ← node_eq_iterate n]
    rfl

def complete : NodeCompiler := fun limit isVerbatim t c => node (callsOn c.registry limit t) limit isVerbatim t c

lemma coincide_complete (hr : r.BuildsComponents) (f : NodeCompiler) (isVerbatim : Bool)
    (h : callsOn r limit t ≤ n) :
    Coincide r (·.Within t) (nodeWith^[n] f limit isVerbatim t) (complete limit isVerbatim t) := by
  rintro c rfl
  have hsame := coincide_iterate hr f (node 0) isVerbatim h (Nat.le_refl _) c rfl
  rwa [← node_eq_iterate] at hsame

lemma nodeWith_of_below (hr : r.BuildsComponents) {f : NodeCompiler}
    (h : ∀ limit' isVerbatim' u, Below r (limit', u) (limit, t) → ∀ c, c.registry = r →
      f limit' isVerbatim' u c = complete limit' isVerbatim' u c) :
    ∀ c, c.registry = r → nodeWith f limit isVerbatim t c = complete limit isVerbatim t c := by
  intro c hc
  -- one call less than the node takes is enough for what is below it
  have hbelow : ∀ limit' isVerbatim' u, Below r (limit', u) (limit, t) →
      Coincide r (·.Within u) (nodeWith^[callsOn r limit t - 1] (node 0) limit' isVerbatim' u) (f limit' isVerbatim' u) := by
    intro limit' isVerbatim' u hu c hc
    have hlt := callsOn_lt hu
    obtain ⟨heq, hrest⟩ := coincide_complete hr (node 0) isVerbatim' (Nat.le_sub_one_of_lt hlt) c hc
    exact ⟨heq.trans (h limit' isVerbatim' u hu c hc).symm, hrest⟩
  have hnode := (Coincide.nodeWith hbelow hr isVerbatim c hc).1
  rw [← hnode, ← Function.iterate_succ_apply' nodeWith]
  exact (coincide_complete hr (node 0) isVerbatim (Nat.le_refl _) c hc).1

lemma callsOn_le_depthOf (h : t ∈ nodes) : callsOn r limit t ≤ depthOf r nodes := by
  have hheight := Tree.height_le_heightAll h
  have hpos := t.height_pos
  have hlevels : t.levels ≤ Tree.heightAll nodes := by
    unfold Tree.levels
    split <;> omega
  have hrank := r.rank_le limit
  have hmul := Nat.mul_le_mul_right (r.directives.length + 1) hlevels
  unfold callsOn depthOf
  calc t.levels * (r.directives.length + 1) + r.rank limit + 1
      ≤ Tree.heightAll nodes * (r.directives.length + 1) + (r.directives.length + 1) := by omega
    _ = (Tree.heightAll nodes + 1) * (r.directives.length + 1) := (Nat.succ_mul _ _).symm
    _ ≤ (Tree.heightAll nodes + 1) * (r.directives.length + 2) := Nat.mul_le_mul_left _ (Nat.le_succ _)

lemma document_iterate (hr : r.BuildsComponents) (f : NodeCompiler)
    (hn : depthOf r nodes ≤ n) {c : Compiler} (hc : c.registry = r) :
    document (nodeWith^[n] f) limit nodes c = document complete limit nodes c :=
  (Coincide.document (fun _ hu =>
    coincide_complete hr f false (Nat.le_trans (callsOn_le_depthOf hu) hn)) c hc).1

end
end Compile

/-! ## Pages -/

namespace Compiler

open Compile

def compileWith (c : Compiler) (f : NodeCompiler) (source : String) : Except Diagnostic CompileOutput × Compiler :=
  match Markup.Document.parse source c.options.file with
  | .error d => (.error d, c)
  | .ok d => finish (document f none (nodesOf d) c).2 (document f none (nodesOf d) c).1

/-- **Compiling a page comes to an end.**  The calls that a node makes are below it in an order without infinite descents,
and what they give decides what becomes of the node; so there is one way only to compile it to the end.  A page is
compiled in this way, and there is a number of calls inside each other after which nothing is called any more: whatever
stands there does not matter. -/
theorem compile_wellFounded {r : Registry} (hr : r.BuildsComponents) :
    WellFounded (Below r) ∧
      (∀ (f : NodeCompiler) (limit : Option Nat) (isVerbatim : Bool) (t : Tree),
        (∀ limit' isVerbatim' u, Below r (limit', u) (limit, t) → ∀ c, c.registry = r →
          f limit' isVerbatim' u c = complete limit' isVerbatim' u c) →
        ∀ c, c.registry = r → nodeWith f limit isVerbatim t c = complete limit isVerbatim t c) ∧
      ∀ (c : Compiler) (source : String), c.registry = r →
        c.compile source = c.compileWith complete source ∧
        ∀ d, Markup.Document.parse source c.options.file = .ok d → ∀ (beyond : NodeCompiler) (n : Nat),
          depthOf r (nodesOf d) ≤ n → c.compileWith (nodeWith^[n] beyond) source = c.compile source := by
  refine ⟨wellFounded_below r, fun f limit isVerbatim t h => nodeWith_of_below hr h, ?_⟩
  rintro c source rfl
  have hcompile : c.compile source = c.compileWith complete source := by
    rw [compile_eq, compileWith]
    cases Markup.Document.parse source c.options.file with
    | error d => rfl
    | ok d =>
      have htemplate : template none (nodesOf d) c = document (node (depthOf c.registry (nodesOf d))) none (nodesOf d) c := rfl
      simp only [htemplate, node_eq_iterate (depthOf _ _), document_iterate hr _ (Nat.le_refl _) rfl]
  refine ⟨hcompile, fun d hparse beyond n hn => ?_⟩
  rw [hcompile, compileWith, compileWith, hparse]
  simp only
  rw [document_iterate hr beyond hn rfl]

namespace Repeating

def again : Directive where
  name := "again"
  onElement := true
  priority := 5
  transclude := .element
  behaviour := some (.custom "again" [.appendText "x", .children, .nest, .children])

def registry : Registry := Registry.standard.child [again]

def source : String := "<component name=\"c\"><again></again></component>"

end Repeating

/-- A directive that takes over its own element inside a component. -/
theorem compile_wellFounded_repeating : Repeating.registry.BuildsComponents ∧
    ((new Repeating.registry {}).compile Repeating.source).1.toOption.isSome = true ∧
    (new Repeating.registry {}).compile Repeating.source =
      (new Repeating.registry {}).compileWith complete Repeating.source := by
  have hr : Repeating.registry.BuildsComponents := Registry.buildsComponents_standard.child (by decide)
  have hrun : ((new Repeating.registry {}).compile Repeating.source).1.toOption.isSome = true := by
    rw [compile_eq, Markup.Document.parse_eq_ofChars Repeating.source String.toList_ofList]
    decide +kernel
  exact ⟨hr, hrun, ((compile_wellFounded hr).2.2 (new Repeating.registry {}) Repeating.source rfl).1⟩

end Compiler
end ReactiveTemplate
