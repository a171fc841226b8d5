import ReactiveTemplate.Proofs.Markup.Attributes
import ReactiveTemplate.Proofs.Template.Assigned
/-!
# Showing — the elements of a page, and what is rendered of them

`Shown` relates a tree to what is rendered of it: every element outside of components is there with its interpolated
attributes, unless a condition takes it away.
-/
set_option linter.all false

namespace ReactiveTemplate
open List

open Markup (Tree Element Attribute)

def Page.unguarded (e : Element) : Element := ⟨e.tag, e.attributes.filter (fun a => a.name != "if")⟩

mutual
/-- What is rendered of a tree under a scope; the flag says whether it stands in an element that keeps its text as it
is. -/
inductive Shown (scope : Json) : Bool → Tree → Tree → Prop
  | element {isVerbatim : Bool} {e shown : Element} {position : Position} {below below' : List Tree}
    (hif : e.tag ≠ "if") (hcomponent : e.tag ≠ "component") (hguards : Page.guards e = [])
    (hshown : Interpolated scope e shown) (hbelow : ShownAll scope (Markup.verbatimTags.contains e.tag) below below') :
    Shown scope isVerbatim (.node (.element e) position below) (.node (.element shown) position below')
  | guarded {isVerbatim : Bool} {e : Element} {position : Position} {below : List Tree} {guards : List Attribute}
    {a : Attribute} {u : Tree} (hif : e.tag ≠ "if") (hcomponent : e.tag ≠ "component")
    (hguards : Page.guards e = guards ++ [a])
    (hshown : Shown scope false (.node (.element (Page.unguarded e)) position below) u) :
    Shown scope isVerbatim (.node (.element e) position below)
      (.node .document position (if Page.holds scope a.value then [u] else []))
  | optional {isVerbatim : Bool} {e : Element} {position : Position} {below below' : List Tree} (hif : e.tag = "if")
    (hbelow : ShownAll scope false below below') :
    Shown scope isVerbatim (.node (.element e) position below)
      (.node .document position (if Page.holds scope (Page.conditionOf e) then below' else []))
  | component {isVerbatim : Bool} {e host : Element} {position : Position} {below : List Tree} {html : String}
    (hcomponent : e.tag = "component")
    (hhost : host.attributes = e.attributes.filter (fun a => !Component.isConsumed a.name))
    (hmarkers : ∀ a ∈ host.attributes, Interpolation.hasMarkers a.value = false) :
    Shown scope isVerbatim (.node (.element e) position below)
      (.node (.element host) position [.leaf (.raw html) position])
  | text {s : String} {position : Position} {below : List Tree} (q : Sequence)
    (hmarkers : Interpolation.hasMarkers s = true) :
    Shown scope false (.node (.text s) position below)
      (.leaf (.raw (String.ofList (Page.textHtml scope (scan s q).1.parts))) position)
  | document {isVerbatim : Bool} {position : Position} {below below' : List Tree}
    (hbelow : ShownAll scope false below below') :
    Shown scope isVerbatim (.node .document position below) (.node .document position below')
  | other {isVerbatim : Bool} {kind : Markup.Kind} {position : Position} {below : List Tree}
    (helement : kind.element? = none) (hdocument : kind ≠ .document)
    (htext : ∀ s, kind = .text s → isVerbatim = true ∨ Interpolation.hasMarkers s = false) :
    Shown scope isVerbatim (.node kind position below) (.node kind position below)

inductive ShownAll (scope : Json) : Bool → List Tree → List Tree → Prop
  | nil {isVerbatim : Bool} : ShownAll scope isVerbatim [] []
  | cons {isVerbatim : Bool} {t u : Tree} {ts us : List Tree} (hfirst : Shown scope isVerbatim t u)
    (hrest : ShownAll scope isVerbatim ts us) : ShownAll scope isVerbatim (t :: ts) (u :: us)
end

/-! ## Elements under conditions -/

namespace Markup.Element

lemma filter_removeFrom (name : String) : ∀ as : List Attribute,
    (removeFrom as name).filter (fun a => a.name != name) = as.filter (fun a => a.name != name)
  | [] => rfl
  | a :: as => by
    rw [removeFrom_cons]
    by_cases h : a.name = name
    · rw [if_pos h, filter_cons_of_neg (by simp [h])]
    · rw [if_neg h, filter_cons_of_pos (by simp [h]), filter_cons_of_pos (by simp [h]), filter_removeFrom]

lemma filter_eq_removeFrom (name : String) : ∀ as : List Attribute,
    (removeFrom as name).filter (fun a => a.name == name) = (as.filter (fun a => a.name == name)).tail
  | [] => rfl
  | a :: as => by
    rw [removeFrom_cons]
    by_cases h : a.name = name
    · rw [if_pos h, filter_cons_of_pos (by simp [h]), tail_cons]
    · rw [if_neg h, filter_cons_of_neg (by simp [h]), filter_cons_of_neg (by simp [h]), filter_eq_removeFrom]

end Markup.Element

namespace Page

lemma guards_remove (e : Element) : guards (e.remove "if") = (guards e).tail :=
  Markup.Element.filter_eq_removeFrom "if" e.attributes

lemma unguarded_remove (e : Element) : unguarded (e.remove "if") = unguarded e :=
  congrArg (Element.mk e.tag) (Markup.Element.filter_removeFrom "if" e.attributes)

lemma unguarded_eq_self {e : Element} (h : guards e = []) : unguarded e = e := by
  have hall : ∀ a ∈ e.attributes, (a.name != "if") = true := by
    intro a ha
    simpa using filter_eq_nil_iff.1 h a ha
  rw [unguarded, filter_eq_self.2 hall]

end Page

/-! ## What is viewed is shown -/

/-- What is asked of a node: its attributes are looked up by the names that they are written with, and their values hold
no placeholder ahead of its interpolation. -/
structure Fit (salt : String) (count : Nat) (kind : Markup.Kind) : Prop where
  named : ∀ a ∈ kind.attributes, a.name = Markup.normalName a.rawName
  clear : ∀ a ∈ kind.attributes, IsClearUpTo salt count a

lemma Fit.remove {salt : String} {count : Nat} {e : Element} (h : Fit salt count (.element e)) (name : String) :
    Fit salt count (.element (e.remove name)) :=
  ⟨fun a ha => h.named a (mem_of_mem_eraseP ha), fun a ha => h.clear a (mem_of_mem_eraseP ha)⟩

/-- One sequence is ahead of the other, and what is said holds if no more than so many placeholders are drawn. -/
def Leads (salt : String) (count : Nat) (q q' : Sequence) (P : Prop) : Prop :=
  q.salt = salt → q'.salt = salt ∧ q.counter ≤ q'.counter ∧ (q'.counter ≤ count → P)

section

variable {scope : Json} {salt : String} {count : Nat} {q q₁ q' : Sequence} {P Q : Prop} {position : Position}
  {B : Sequence → List Tree → Sequence → Prop} {isVerbatim : Bool} {below : List Tree} {e : Element} {u : Tree}

lemma Leads.refl (h : P) : Leads salt count q q P := fun hsalt => ⟨hsalt, Nat.le_refl _, fun _ => h⟩

lemma Leads.imp (h : Leads salt count q q' P) (hPQ : P → Q) : Leads salt count q q' Q := fun hsalt =>
  have ⟨hsalt', hcounter, hP⟩ := h hsalt
  ⟨hsalt', hcounter, fun hcount => hPQ (hP hcount)⟩

lemma Leads.trans (h : Leads salt count q q₁ P) (h' : Leads salt count q₁ q' Q) : Leads salt count q q' (P ∧ Q) := by
  intro hsalt
  obtain ⟨hsalt₁, hcounter, hP⟩ := h hsalt
  obtain ⟨hsalt', hcounter', hQ⟩ := h' hsalt₁
  exact ⟨hsalt', Nat.le_trans hcounter hcounter', fun hcount => ⟨hP (Nat.le_trans hcounter' hcount), hQ hcount⟩⟩

lemma salt_fill : ∀ (as : List Attribute) (e : Json → Element) (s : Sequence), (Page.fill as e s).2.salt = s.salt
  | [], _, _ => rfl
  | a :: as, _, s => (salt_fill as _ _).trans (salt_scan a.value s)

lemma leads_filled (hfit : Fit salt count (.element e)) (q : Sequence) (scope : Json) :
    Leads salt count q (Page.filled e q).2 (Interpolated scope e ((Page.filled e q).1 scope)) := by
  intro hsalt
  refine ⟨(salt_fill _ _ q).trans hsalt, counter_fill _ _ q, fun hcount => ?_⟩
  exact interpolated_filled hfit.named (hsalt ▸ hfit.clear) hcount scope

lemma ViewedElement.leads (hif : e.tag ≠ "if") (hcomponent : e.tag ≠ "component")
    (hfit : Fit salt count (.element e))
    (hbelow : ∀ q us q', B q us q' →
      Leads salt count q q' (ShownAll scope (Markup.verbatimTags.contains e.tag) below us))
    (h : ViewedElement scope position B e q u q') (isVerbatim : Bool) :
    Leads salt count q q' (Page.guards e = [] → Shown scope isVerbatim (.node (.element e) position below) u) := by
  obtain ⟨us, hus, rfl⟩ := h
  refine ((leads_filled hfit q scope).trans (hbelow _ us _ hus)).imp (fun ⟨hshown, hall⟩ hguards => ?_)
  exact .element hif hcomponent hguards hshown hall

lemma ViewedGuarded.leads :
    ∀ {as : List Attribute} {e : Element} {q : Sequence}, e.tag ≠ "if" → e.tag ≠ "component" →
    Fit salt count (.element e) → (∀ q us q', B q us q' →
      Leads salt count q q' (ShownAll scope (Markup.verbatimTags.contains e.tag) below us)) →
    as = Page.guards e → ViewedGuarded scope position B as e q u q' → ∀ isVerbatim,
      Leads salt count q q' (Shown scope isVerbatim (.node (.element e) position below) u)
  | [], e, q, hif, hcomponent, hfit, hbelow, has, h, isVerbatim =>
    (ViewedElement.leads hif hcomponent hfit hbelow h isVerbatim).imp (fun hshown => hshown has.symm)
  | [a], e, q, hif, hcomponent, hfit, hbelow, has, h, isVerbatim => by
    obtain ⟨v, hv, rfl⟩ := h
    have hnone : Page.guards (e.remove "if") = [] := by rw [Page.guards_remove, ← has, tail_cons]
    have hlast := ViewedElement.leads (e := e.remove "if") hif hcomponent (hfit.remove "if") hbelow hv false
    refine hlast.imp (fun hshown => .guarded hif hcomponent (nil_append [a] ▸ has.symm) ?_)
    rw [← Page.unguarded_remove, Page.unguarded_eq_self hnone]
    exact hshown hnone
  | a :: b :: more, e, q, hif, hcomponent, hfit, hbelow, has, h, isVerbatim => by
    obtain ⟨v, q₁, hv, hrest⟩ := h
    have hmore : b :: more = Page.guards (e.remove "if") := by rw [Page.guards_remove, ← has, tail_cons]
    have hlater := ViewedGuarded.leads (e := e.remove "if") hif hcomponent (hfit.remove "if") hbelow hmore hrest isVerbatim
    have hfirst := ViewedElement.leads (e := e.remove "if") hif hcomponent (hfit.remove "if") hbelow hv false
    refine (hfirst.trans hlater).imp (fun ⟨_, hshown⟩ => ?_)
    cases hshown with
    | element _ _ hguards => exact absurd (hmore.trans hguards) (cons_ne_nil b more)
    | guarded _ _ hguards hshown =>
      rw [Page.unguarded_remove] at hshown
      rw [← hmore] at hguards
      rw [hguards, ← cons_append] at has
      exact .guarded hif hcomponent has.symm hshown
    | optional hif' => exact absurd hif' hif
    | component hcomponent' => exact absurd hcomponent' hcomponent
    | other helement => cases helement

end

mutual
theorem Viewed.leads {scope : Json} {salt : String} {count : Nat} {isVerbatim : Bool} : ∀ {t : Tree} {q q' : Sequence}
    {u : Tree}, t.Every (Fit salt count) → Viewed scope isVerbatim t q u q' →
      Leads salt count q q' (Shown scope isVerbatim t u)
  | .node (.element e) position below, q, q', u, hfit, h => by
    obtain ⟨hkind, hbelow⟩ := Tree.every_node.1 hfit
    rw [Viewed] at h
    split at h
    · rename_i hif
      obtain ⟨us, hus, rfl⟩ := h
      exact (ViewedAll.leads hbelow hus).imp (.optional hif)
    · rename_i hif
      split at h
      · rename_i hcomponent
        obtain ⟨hsalt, hcounter, host, html, hhost, hmarkers, rfl⟩ := h
        exact fun hq => ⟨hsalt.trans hq, hcounter, fun _ => .component hcomponent hhost hmarkers⟩
      · rename_i hcomponent
        exact h.leads hif hcomponent hkind (fun _ _ _ hus => ViewedAll.leads hbelow hus) rfl isVerbatim
  | .node .document position below, q, q', u, hfit, h => by
    rw [Viewed] at h
    obtain ⟨us, hus, rfl⟩ := h
    exact (ViewedAll.leads (Tree.every_node.1 hfit).2 hus).imp .document
  | .node (.text s) position below, q, q', u, _, h => by
    simp only [Viewed, Page.node] at h
    obtain ⟨rfl, rfl⟩ := h
    by_cases hmarkers : (!isVerbatim && Interpolation.hasMarkers s) = true
    · rw [if_pos hmarkers]
      rw [Bool.and_eq_true, Bool.not_eq_true'] at hmarkers
      obtain ⟨rfl, hmarkers⟩ := hmarkers
      exact fun hq => ⟨(salt_scan s q).trans hq, counter_scan s q, fun _ => .text q hmarkers⟩
    · rw [if_neg hmarkers]
      refine .refl (.other rfl (by simp) (fun s' hs => ?_))
      cases hs
      cases isVerbatim with
      | true => exact Or.inl rfl
      | false => exact Or.inr (by simpa using hmarkers)
  | .node (.comment _) _ _, _, _, _, _, ⟨rfl, rfl⟩ => .refl (.other rfl (by simp) (fun _ hs => nomatch hs))
  | .node (.doctype _) _ _, _, _, _, _, ⟨rfl, rfl⟩ => .refl (.other rfl (by simp) (fun _ hs => nomatch hs))
  | .node (.raw _) _ _, _, _, _, _, ⟨rfl, rfl⟩ => .refl (.other rfl (by simp) (fun _ hs => nomatch hs))

theorem ViewedAll.leads {scope : Json} {salt : String} {count : Nat} {isVerbatim : Bool} : ∀ {ts : List Tree}
    {q q' : Sequence} {us : List Tree}, (∀ t ∈ ts, t.Every (Fit salt count)) → ViewedAll scope isVerbatim ts q us q' →
      Leads salt count q q' (ShownAll scope isVerbatim ts us)
  | [], _, _, _, _, ⟨rfl, rfl⟩ => .refl .nil
  | t :: ts, q, q', us, hfit, h => by
    rw [ViewedAll] at h
    obtain ⟨u, q₁, us', hu, hus', rfl⟩ := h
    have hrest := ViewedAll.leads (fun t ht => hfit t (.tail _ ht)) hus'
    exact ((Viewed.leads (hfit t (.head _)) hu).trans hrest).imp (fun ⟨hfirst, hrest⟩ => .cons hfirst hrest)
end

open Compile in
/-- **Interpolation keeps to the attributes of its element.**  A page without the start of a mark, whose values hold no
placeholder ahead of its interpolation, renders under every scope to what is shown of its tree: each element outside of
components has the attributes that are written on it, in their order, and each of them has its own value unless another
attribute of its name takes it. -/
theorem Compiler.render_interpolated {c : Compiler} {source : String} {d : Markup.Document} {out : CompileOutput}
    (hr : c.registry = Registry.standard) (hparse : Markup.Document.parse source c.options.file = .ok d)
    (hclean : ∀ t ∈ (d.toTree Markup.Document.root).preorder, t.kind.isClean = true)
    (hclear : ∀ t ∈ (d.toTree Markup.Document.root).preorder, ∀ a ∈ t.kind.attributes,
      IsClearUpTo c.sequence.salt (c.compile source).2.sequence.counter a)
    (hout : (c.compile source).1 = .ok out) (scope : Json) :
    ∃ shown, ShownAll scope false (nodesOf d) shown ∧
      out.compiled.render scope = .ok (Tree.renderAllIn false shown) := by
  have hroot : (d.toTree Markup.Document.root).Every (fun kind => kind.isClean = true ∧
      Fit c.sequence.salt (c.compile source).2.sequence.counter kind) :=
    fun t ht => ⟨hclean t ht, Markup.name_of_parse hparse t ht, hclear t ht⟩
  have hbelow : ∀ t ∈ nodesOf d, t.Every (fun kind => kind.isClean = true ∧
      Fit c.sequence.salt (c.compile source).2.sequence.counter kind) := by
    revert hroot
    rw [nodesOf]
    cases d.toTree Markup.Document.root with
    | node kind position below => exact fun hroot => (Tree.every_node.1 hroot).2
  obtain ⟨us, hus, hrender⟩ := render_viewed hr hparse (fun t ht u hu => (hbelow t ht u hu).1) hout scope
  obtain ⟨-, -, hshown⟩ := ViewedAll.leads (fun t ht u hu => (hbelow t ht u hu).2) hus rfl
  exact ⟨us, hshown (Nat.le_refl _), hrender⟩

namespace Page

/-- A page with two attributes that are looked up by one name, the first of which is interpolated, with a condition, and
with a component. -/
def leading : String :=
  "<img src=\"${b}\" data-src=\"a\"><i if=\"b\" id=\"n\">x</i><component name=\"c\" id=\"m\">y</component>"

/-- Each attribute of the page has its own value. -/
theorem render_leading : ∃ d out, Markup.Document.parse leading "" = .ok d ∧ compile leading {} = .ok out ∧
    (∀ scope, ∃ shown, ShownAll scope false (Compiler.nodesOf d) shown ∧
      out.compiled.render scope = .ok (Tree.renderAllIn false shown)) ∧
    out.compiled.render (.object [("b", .string "z")]) =
      .ok "<img src=\"z\" data-src=\"a\"><i id=\"n\">x</i><c id=\"m\">y</c>" := by
  rw [compile]
  have hd : (Markup.Document.parse leading "").toOption.any (fun d =>
      (d.toTree Markup.Document.root).preorder.all (fun t => t.kind.isClean &&
        t.kind.attributes.all (fun a => decide (IsClearUpTo "" 4 a)))) = true := by
    rw [Markup.Document.parse_eq_ofChars leading String.toList_ofList]
    decide +kernel
  -- one run for what the page renders to and for the identifiers it took
  have hrun : ((Compiler.new Registry.standard {}).compile leading).1.toOption.any (fun out =>
      (out.compiled.render (.object [("b", .string "z")])).toOption.any
        (· == "<img src=\"z\" data-src=\"a\"><i id=\"n\">x</i><c id=\"m\">y</c>")) = true ∧
      ((Compiler.new Registry.standard {}).compile leading).2.sequence.counter ≤ 4 := by
    rw [Compiler.compile_eq, Markup.Document.parse_eq_ofChars leading String.toList_ofList]
    decide +kernel
  obtain ⟨hc, hcount⟩ := hrun
  obtain ⟨d, hparse, hd⟩ := exists_ok_of_any hd
  obtain ⟨out, hout, hc⟩ := exists_ok_of_any hc
  obtain ⟨html, hrender, hhtml⟩ := exists_ok_of_any hc
  have hnode := fun t ht => Bool.and_eq_true_iff.1 (List.all_eq_true.1 hd t ht)
  have hshown := Compiler.render_interpolated (c := Compiler.new Registry.standard {}) rfl hparse
    (fun t ht => (hnode t ht).1)
    (fun t ht a ha n hn => of_decide_eq_true (List.all_eq_true.1 (hnode t ht).2 a ha) n (Nat.le_trans hn hcount)) hout
  exact ⟨d, out, hparse, hout, hshown, by rw [hrender, beq_iff_eq.1 hhtml]⟩

/-- A page with two attributes that are looked up by one name, the second of which is interpolated. -/
def trailing : String := "<img src=\"a\" data-src=\"${b}\">"

/-- The value of the second attribute goes to the first one, and the second one keeps its markers. -/
theorem render_trailing : ∃ out, compile trailing {} = .ok out ∧
    out.compiled.render (.object [("b", .string "x")]) = .ok "<img src=\"x\" data-src=\"${b}\">" ∧
    Meaning.value (.object [("b", .string "x")]) "${b}" = "x" := by
  have hc : (compile trailing {}).toOption.any (fun out =>
      (out.compiled.render (.object [("b", .string "x")])).toOption.any (· == "<img src=\"x\" data-src=\"${b}\">")) =
      true := by
    rw [compile, Compiler.compile_eq, Markup.Document.parse_eq_ofChars trailing String.toList_ofList]
    decide +kernel
  obtain ⟨out, hout, hc⟩ := exists_ok_of_any hc
  obtain ⟨html, hrender, hhtml⟩ := exists_ok_of_any hc
  exact ⟨out, hout, by rw [hrender, beq_iff_eq.1 hhtml], by decide +kernel⟩

end Page
end ReactiveTemplate
