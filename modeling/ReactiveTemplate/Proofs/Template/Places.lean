import ReactiveTemplate.Proofs.Markup.Nesting
import ReactiveTemplate.Proofs.Template.Assets
import ReactiveTemplate.Proofs.Template.Parallel
/-!
# Places — where the failures of a page are reported

A file without a name does not keep the place of a failure, so what fails inside a component is reported at the
component (`spot`).
-/
set_option linter.all false

namespace ReactiveTemplate
open List

open Markup (Tree Element)
open Diagnostic (Unplaced Covers Placed)
open Component (Raised)

/-! ## Parsing -/

/-- The same failure of a template at the same place of two files. -/
structure Diagnostic.Same (d d' : Diagnostic) : Prop where
  fault : d'.fault = d.fault
  ofTemplate : d.fault.isOfTemplate = true
  line : d'.line = d.line
  column : d'.column = d.column

namespace Markup

namespace Document

def inFile (d : Document) (file : String) : Document := ⟨file, d.cells⟩

lemma siblings_inFile (d : Document) (file : String) : ∀ (fuel : Nat) (o : Option Nat),
    (d.inFile file).siblings fuel o = d.siblings fuel o
  | 0, _ => rfl
  | _ + 1, none => rfl
  | fuel + 1, some id => congrArg (id :: ·) (siblings_inFile d file fuel (d.links id).next)

lemma treeTo_inFile (d : Document) (file : String) : ∀ depth id : Nat, (d.inFile file).treeTo depth id = d.treeTo depth id
  | 0, _ => rfl
  | depth + 1, id => by
    have hchildren : (d.inFile file).children id = d.children id := siblings_inFile d file _ _
    rw [treeTo, hchildren, funext (treeTo_inFile d file depth)]
    rfl

lemma detach_inFile (d : Document) (file : String) (id : Nat) :
    (d.inFile file).detach id = (d.detach id).inFile file := by
  have hlinks : (d.inFile file).links id = d.links id := rfl
  rw [detach, detach, hlinks]
  rcases (d.links id) with ⟨_ | parent, first, last, _ | previous, _ | next⟩ <;> rfl

lemma append_inFile (d : Document) (file : String) (parent child : Nat) :
    (d.inFile file).append parent child = (d.append parent child).inFile file := by
  rw [append, append, detach_inFile]
  have hlast : (((d.detach child).inFile file).links parent).last = ((d.detach child).links parent).last := rfl
  simp only [hlast]
  cases ((d.detach child).links parent).last <;> rfl

lemma appendText_inFile (d : Document) (file : String) (parent : Nat) (s : String) (position : Position) :
    (d.inFile file).appendText parent s position = (d.appendText parent s position).inFile file := by
  have hlast : ((d.inFile file).links parent).last.map (fun l => (l, (d.inFile file).kind l)) =
      (d.links parent).last.map (fun l => (l, d.kind l)) := rfl
  rw [appendText, appendText, hlast]
  cases (d.links parent).last.map (fun l => (l, d.kind l)) with
  | none => exact append_inFile (d.create (.text s) position).2 file parent d.size
  | some found =>
    obtain ⟨last, kind⟩ := found
    cases kind with
    | text existing => rfl
    | _ => exact append_inFile (d.create (.text s) position).2 file parent d.size

end Document

namespace Builder

def inFile (b : Builder) (file : String) : Builder := { b with document := b.document.inFile file }

lemma add_inFile (b : Builder) (file : String) (kind : Kind) (position : Position) :
    (b.inFile file).add kind position = ((b.add kind position).1, (b.add kind position).2.inFile file) := by
  have happend := Document.append_inFile (b.document.create kind position).2 file b.current b.document.size
  exact congrArg (fun document => (b.document.size, { b with document })) happend

lemma take_inFile (b : Builder) (file : String) (token : Token) :
    Except.Rel Diagnostic.Same (fun x y => y = x.inFile file) (b.take token) ((b.inFile file).take token) := by
  cases token with
  | startTag name attributes selfClosing =>
    have hadd := add_inFile (b.seek ("<" ++ name)).2 file (.element (elementOf name attributes)) (b.seek ("<" ++ name)).1
    by_cases hclosed : ((elementOf name attributes).isVoid || selfClosing) = true
    · simp only [take, if_pos hclosed]
      exact .ok (congrArg Prod.snd hadd)
    · simp only [take, if_neg hclosed]
      exact .ok (congrArg (fun x => { x.2 with opened := x.1 :: x.2.opened }) hadd)
  | endTag name =>
    have hinnermost : (b.inFile file).opened.head?.bind (b.inFile file).document.tag? = b.opened.head?.bind b.document.tag? :=
      rfl
    rw [take_endTag, take_endTag, hinnermost]
    split
    · exact .ok rfl
    · exact .error ⟨rfl, rfl, rfl, rfl⟩
  | text s => exact .ok (congrArg (fun document => { b with document }) (Document.appendText_inFile ..))
  | comment s => exact .ok (congrArg Prod.snd (add_inFile (b.seek "<!--").2 file (.comment s) (b.seek "<!--").1))
  | doctype name => exact .ok (congrArg Prod.snd (add_inFile (b.seek "<!").2 file _ (b.seek "<!").1))
  | ignored => exact .ok rfl
  | truncated reason => exact .error ⟨rfl, rfl, rfl, rfl⟩

lemma takeAll_inFile (file : String) : ∀ (ts : List Token) (b : Builder),
    Except.Rel Diagnostic.Same (fun x y => y = x.inFile file) (b.takeAll ts) ((b.inFile file).takeAll ts)
  | [], _ => .ok rfl
  | t :: ts, b => (take_inFile b file t).bind (fun x _ heq => heq ▸ takeAll_inFile file ts x)

end Builder

lemma Document.parse_inFile (source file file' : String) : Except.Rel Diagnostic.Same
    (fun d d' => d' = d.inFile file') (Document.parse source file) (Document.parse source file') := by
  refine (Builder.takeAll_inFile file' (tokens source) (Builder.new source file)).bind (fun b _ heq => ?_)
  subst heq
  have hopened : (b.inFile file').opened = b.opened := rfl
  rw [Builder.close, Builder.close, hopened]
  cases b.opened with
  | nil => exact .ok rfl
  | cons id rest => exact .error ⟨rfl, rfl, rfl, rfl⟩

end Markup

/-! ## Pages -/

namespace Diagnostic

/-- Where a failure is reported that was found at `inner`, within `outer`: a file without a name does not keep places. -/
def spot (file : String) (outer inner : Position) : Position := if file.isEmpty then outer else inner

structure At (file : String) (p : Position) (d : Diagnostic) : Prop where
  file_eq : d.file = file
  position_eq : (⟨d.line, d.column⟩ : Position) = p

/-- The same failure of a template in two files, found at one of the places in `S`. -/
structure Reported (files : String × String) (S : Position → Position → Prop) (d d' : Diagnostic) : Prop where
  fault : d'.fault = d.fault
  ofTemplate : d.fault.isOfTemplate = true
  places : ∃ outer inner, S outer inner ∧ d.At files.1 (spot files.1 outer inner) ∧ d'.At files.2 (spot files.2 outer inner)

variable {files : String × String} {S S' : Position → Position → Prop} {p : Position}

lemma covers_unplaced (h : S p p) : Covers files Unplaced (Reported files S) p p := by
  rintro _ d ⟨rfl, hfile, hfault⟩
  have hat : ∀ file : String, (d.locate file p.line p.column).At file (spot file p p) := by
    intro file
    rw [locate, if_pos (by rw [hfile]; rfl), spot, ite_self]
    exact ⟨rfl, rfl⟩
  have hlocate : ∀ file : String, (d.locate file p.line p.column).fault = d.fault := by
    intro file
    rw [locate]
    split <;> rfl
  exact ⟨by rw [hlocate, hlocate], by rw [hlocate, hfault], p, p, h, hat _, hat _⟩

lemma covers_reported (h : ∀ outer inner, S outer inner → S' p inner) :
    Covers files (Reported files S) (Reported files S') p p := by
  rintro d d' ⟨hfault, htemplate, outer, inner, hS, hat, hat'⟩
  have hlocate : ∀ {d : Diagnostic} {file : String}, d.At file (spot file outer inner) →
      (d.locate file p.line p.column).fault = d.fault ∧ (d.locate file p.line p.column).At file (spot file p inner) := by
    intro d file hat
    rw [spot] at hat ⊢
    rw [locate, hat.file_eq]
    cases hempty : file.isEmpty with
    | true => exact ⟨rfl, rfl, rfl⟩
    | false => exact ⟨rfl, hat.file_eq, by simpa [hempty] using hat.position_eq⟩
  obtain ⟨hsame, hplace⟩ := hlocate hat
  obtain ⟨hsame', hplace'⟩ := hlocate hat'
  exact ⟨by rw [hsame, hsame', hfault], by rw [hsame, htemplate], p, inner, h _ _ hS, hplace, hplace'⟩

end Diagnostic

open Diagnostic (Reported covers_unplaced covers_reported)

def Asset.Layered (assets : List Asset) : Prop :=
  ∀ before a behind, assets = before ++ a :: behind → ∀ d ∈ a.dependencies, d ≠ a.name ∧ d ∈ before.map (·.name)

lemma Asset.Layered.concat {assets : List Asset} (h : Layered assets) {a : Asset}
    (ha : ∀ d ∈ a.dependencies, d ≠ a.name ∧ d ∈ assets.map (·.name)) : Layered (assets ++ [a]) := by
  intro before b behind heq
  rcases eq_nil_or_concat behind with rfl | ⟨behind, last, rfl⟩
  · obtain ⟨rfl, hab⟩ := append_inj' heq rfl
    obtain rfl := singleton_inj.1 hab
    exact ha
  · rw [concat_eq_append, ← cons_append, ← append_assoc] at heq
    exact h before b behind (append_inj' heq rfl).1

lemma Compiler.map_tag_place {o o' : ComponentOutput} (ho : o'.tag = o.tag) : ∀ {os os' : List ComponentOutput},
    os.map (·.tag) = os'.map (·.tag) → (place o os).map (·.tag) = (place o' os').map (·.tag)
  | [], [], _ => by simp [place, ho]
  | [], _ :: _, h => by cases h
  | _ :: _, [], h => by cases h
  | x :: os, y :: os', h => by
    obtain ⟨htag, hrest⟩ := cons.inj h
    have htag : x.tag = y.tag := htag
    rw [place, place, ho, htag]
    split
    · rw [map_cons, map_cons, ho, hrest]
    · rw [map_cons, map_cons, htag, map_tag_place ho hrest]

namespace Compile

/-- Compilers that read one page in two files: their components have the same tags. -/
structure InStep (files : String × String) (c c' : Compiler) : Prop where
  registry : c.registry = Registry.standard ∧ c'.registry = Registry.standard
  files_eq : (c.options.file, c'.options.file) = files
  sequence : c'.sequence = c.sequence
  tags : c.components.map (·.tag) = c'.components.map (·.tag)
  layered : Asset.Layered c.assets
  components : ∀ o ∈ c.components, o.asset ∈ c.assets.map (·.name)

def inStep (files : String × String) : Lockstep where
  files
  Rel := InStep files
  registry h := h.registry
  files_eq h := h.files_eq
  sequence h := h.sequence
  draw _ h := ⟨h.registry, h.files_eq, rfl, h.tags, h.layered, h.components⟩
  put _ _ h := ⟨h.registry, h.files_eq, h.sequence, h.tags, h.layered, h.components⟩

lemma InStep.register {files : String × String} {c c' : Compiler} (h : InStep files c c') {e : Element} {p : Position}
    {ts : List Tree} {b b' : Component.Built}
    (hbuild : Component.build c.options.file c.sequence c.assetOf e p ts = .ok b) (hhead : b'.head = b.head) :
    InStep files (c.register b.output b.assets) (c'.register b'.output b'.assets) := by
  obtain ⟨hscript, hsheet⟩ := Component.assets_of_build hbuild
  obtain ⟨_, binder, -, -, -, -, heq, -⟩ := Component.build_cases hbuild
  have hsheets : Asset.Layered (c.assets ++ b.style.toList) := by
    cases hstyle : b.style with
    | none => simpa using h.layered
    | some style =>
      refine h.layered.concat (fun d hd => ?_)
      rw [(hsheet style hstyle).eq] at hd
      cases hd
  have hdependencies : ∀ d ∈ b.script.dependencies, d ≠ b.script.name ∧ d ∈ (c.assets ++ b.style.toList).map (·.name) := by
    intro d hd
    obtain ⟨tag, htag⟩ := hscript.dependencies d hd
    obtain ⟨o, ho, rfl⟩ := Option.map_eq_some_iff.1 htag
    obtain ⟨ds, hfold, hmem⟩ := Asset.foldl_dependsOn binder.dependencies (Asset.new .javascript binder.payload.render)
    rw [heq, hfold] at hd ⊢
    refine ⟨(((hmem _).1 hd).resolve_left not_mem_nil).2, ?_⟩
    rw [map_append]
    exact mem_append_left _ (h.components o (mem_of_find?_eq_some ho))
  have hassets : c.assets ++ b.assets = (c.assets ++ b.style.toList) ++ [b.script] := by
    rw [Component.Built.assets, append_assoc]
  refine ⟨h.registry, h.files_eq, h.sequence, Compiler.map_tag_place (congrArg Component.Head.tag hhead) h.tags, ?_, ?_⟩
  · show Asset.Layered (c.assets ++ b.assets)
    rw [hassets]
    exact hsheets.concat hdependencies
  · show ∀ o ∈ Compiler.place b.output c.components, o.asset ∈ (c.assets ++ b.assets).map (·.name)
    intro o ho
    rw [hassets, map_append, map_append, mem_append, mem_append]
    rcases Compiler.mem_place ho with rfl | ho
    · exact .inr (mem_singleton_self _)
    · exact .inl (.inl (h.components o ho))

lemma registers_inStep (files : String × String) : (inStep files).Registers where
  known {c c'} tag h := by
    have hisSome : ∀ c : Compiler, (c.assetOf tag).isSome = (c.components.map (·.tag)).any (· == tag) := by
      intro c
      rw [Compiler.assetOf, Option.isSome_map, isSome_find?, any_map]
      rfl
    rw [hisSome, hisSome, h.tags]
  register h hbuild hhead := h.register hbuild hhead

def FoundIn (ts : List Tree) (outer inner : Position) : Prop :=
  ∃ t ∈ Tree.preorderAll ts, t.position = outer ∧
    (inner = outer ∨ t.tag? = some "component" ∧ ∃ u ∈ Tree.preorderAll t.children, u.position = inner)

lemma compilable_self (files : String × String) (ts : List Tree) :
    Tree.PairedAll (Compilable (inStep files) (Reported files (FoundIn ts))) ts ts := by
  refine Tree.pairedAll_self (fun t ht => ⟨⟨rfl, covers_unplaced ⟨t, ht, rfl, .inl rfl⟩⟩, fun htag => ?_⟩)
  let below : Position → Position → Prop := fun _ inner => ∃ u ∈ Tree.preorderAll t.children, u.position = inner
  refine ⟨registers_inStep files, Reported files below, ?_, ?_⟩
  · exact Tree.pairedAll_self (fun u hu => ⟨rfl, covers_unplaced ⟨u, hu, rfl⟩⟩)
  · rintro d d' (hd | hd)
    · exact covers_unplaced ⟨t, ht, rfl, .inl rfl⟩ d d' hd
    · exact covers_reported (fun _ inner hbelow => ⟨t, ht, rfl, .inr ⟨htag, hbelow⟩⟩) d d' hd

end Compile

open Compile (InStep FoundIn)

lemma compiledPage_of_parse {source : String} {options : CompileOptions} {d : Diagnostic}
    (h : Markup.Document.parse source options.file = .error d) : (compiledPage source options).1 = .error d := by
  rw [compiledPage]
  simp [h]

lemma compiledPage_inStep {source : String} (o o' : CompileOptions) (hsalt : o'.salt.getD o'.file = o.salt.getD o.file)
    {d : Markup.Document} (hparse : Markup.Document.parse source o.file = .ok d) :
    Except.Rel (Reported (o.file, o'.file) (FoundIn (Compiler.nodesOf d))) (fun _ _ => True) (compiledPage source o).1
        (compiledPage source o').1 ∧
      InStep (o.file, o'.file) (compiledPage source o).2 (compiledPage source o').2 := by
  have hnodes : Compiler.nodesOf (d.inFile o'.file) = Compiler.nodesOf d :=
    congrArg Tree.children (Markup.Document.treeTo_inFile d o'.file _ _)
  have hparses := Markup.Document.parse_inFile source o.file o'.file
  rw [hparse] at hparses
  obtain ⟨_, hparse', rfl⟩ := hparses.of_ok
  rw [compiledPage, compiledPage, hparse, hparse']
  have hstart : InStep (o.file, o'.file) (Compiler.new Registry.standard o) (Compiler.new Registry.standard o') :=
    ⟨⟨rfl, rfl⟩, rfl, congrArg Sequence.new hsalt, rfl, fun before _ _ heq => (by cases before <;> cases heq), fun _ h => (by cases h)⟩
  simp only [hnodes]
  exact Compile.parallel_document (Compile.parallel_node _)
    (Compile.compilable_self _ _) (.inl rfl) _ _ hstart

lemma Asset.Layered.known {assets : List Asset} (h : Layered assets) (x y : String) (hxy : Uses assets x y) :
    y ∈ assets.map (·.name) := by
  obtain ⟨a, ha, -, hy⟩ := hxy
  obtain ⟨before, behind, rfl⟩ := append_of_mem ha
  rw [map_append]
  exact mem_append_left _ (h before a behind rfl y hy).2

lemma layered_registered (source : String) (options : CompileOptions) : Asset.Layered (registered source options) := by
  cases hparse : Markup.Document.parse source options.file with
  | ok d => exact (compiledPage_inStep options options rfl hparse).2.layered
  | error d =>
    rw [registered, compiledPage, hparse]
    exact fun before _ _ heq => by cases before <;> cases heq

/-- **A page fails in every file at the same place.**  With the same salt it fails in each of two files or in neither, for
the same reason and at the same line and column.  Only what fails inside a component is reported at the component itself
if the file has no name.  Not said of assets that depend on each other in a circle. -/
theorem compile_error_place {source salt file : String} {options : CompileOptions} {d : Diagnostic}
    (hsalt : options.salt = some salt) (h : compile source { options with file } = .error d)
    (hcode : d.code ≠ "asset.graph.circulardep") (file' : String) :
    ∃ d', compile source { options with file := file' } = .error d' ∧ d'.code = d.code ∧
      (d'.line = d.line ∧ d'.column = d.column ∨
        file.isEmpty ≠ file'.isEmpty ∧ ∃ doc, Markup.Document.parse source file = .ok doc ∧
          ∃ t ∈ Tree.preorderAll (Compiler.nodesOf doc), t.tag? = some "component" ∧
            ∃ u ∈ Tree.preorderAll t.children,
              (⟨d.line, d.column⟩ : Position) = Diagnostic.spot file t.position u.position ∧
              (⟨d'.line, d'.column⟩ : Position) = Diagnostic.spot file' t.position u.position) := by
  have hpage : (compiledPage source { options with file }).1 = .error d := by
    refine (compile_eq_error.1 h).resolve_right ?_
    rintro ⟨-, fault, -, hresolve, rfl⟩
    exact hcode (Asset.cycle_of_resolve (layered_registered source _).known hresolve).1
  cases hparse : Markup.Document.parse source file with
  | error e =>
    obtain rfl : d = e := Except.error.inj (hpage.symm.trans (compiledPage_of_parse hparse))
    have hparses := Markup.Document.parse_inFile source file file'
    rw [hparse] at hparses
    obtain ⟨d', hparse', hsame⟩ := hparses.of_error
    exact ⟨d', compile_eq_error.2 (.inl (compiledPage_of_parse hparse')), congrArg Fault.code hsame.fault,
      .inl ⟨hsame.line, hsame.column⟩⟩
  | ok doc =>
    have hstep := (compiledPage_inStep { options with file } { options with file := file' } (by rw [hsalt]; rfl) hparse).1
    rw [hpage] at hstep
    obtain ⟨d', hpage', hreported⟩ := hstep.of_error
    refine ⟨d', compile_eq_error.2 (.inl hpage'), congrArg Fault.code hreported.fault, ?_⟩
    obtain ⟨_, inner, ⟨t, ht, rfl, hinner⟩, hat, hat'⟩ := hreported.places
    have hsame : Diagnostic.spot file t.position inner = Diagnostic.spot file' t.position inner →
        d'.line = d.line ∧ d'.column = d.column := by
      intro hspot
      have hposition := hat'.position_eq.trans (hspot.symm.trans hat.position_eq.symm)
      exact ⟨congrArg Position.line hposition, congrArg Position.column hposition⟩
    rcases hinner with rfl | ⟨htag, u, hu, rfl⟩
    · exact .inl (hsame (by rw [Diagnostic.spot, Diagnostic.spot, ite_self, ite_self]))
    · by_cases hempty : file.isEmpty = file'.isEmpty
      · exact .inl (hsame (by rw [Diagnostic.spot, Diagnostic.spot, hempty]))
      · exact .inr ⟨hempty, doc, rfl, t, ht, htag, u, hu, hat.position_eq, hat'.position_eq⟩

def writing : String := "<component name=\"c\"><p>$\x7b a = 1 \x7d</p><script>let a</script></component>"

/-- In two files that have names it fails at the paragraph. -/
theorem compile_error_place_writing : ∃ d, compile writing ⟨"a.html", some "s", false⟩ = .error d ∧ d.column = 24 ∧
    ∃ d', compile writing ⟨"b.html", some "s", false⟩ = .error d' ∧ d'.code = d.code ∧ d'.column = 24 := by
  have hfail : (match compile writing ⟨"a.html", some "s", false⟩ with
      | .error d => (d.code, d.column)
      | .ok _ => ("", 0)) = ("js:interpolation:sideeffect", 24) := by
    rw [compile, Compiler.compile_eq, Markup.Document.parse_eq_ofChars writing String.toList_ofList]
    decide +kernel
  cases h : compile writing ⟨"a.html", some "s", false⟩ with
  | ok out =>
    rw [h] at hfail
    exact absurd (congrArg Prod.snd hfail) (Nat.zero_ne_add_one 23)
  | error d =>
    rw [h] at hfail
    obtain ⟨hcode, hcolumn⟩ := Prod.mk.inj hfail
    obtain ⟨d', h', hcode', hplace⟩ := @compile_error_place writing "s" "a.html" ⟨"", some "s", false⟩ d rfl h
      (by rw [hcode]; decide) "b.html"
    refine ⟨d, rfl, hcolumn, d', h', hcode', ?_⟩
    rcases hplace with ⟨-, hsame⟩ | ⟨hne, -⟩
    · rw [hsame, hcolumn]
    · exact absurd rfl hne

/-- In a file without a name it fails at the component, in one with a name at the paragraph. -/
theorem compile_unplaced :
    (match compile writing ⟨"", some "s", false⟩, compile writing ⟨"a.html", some "s", false⟩ with
      | .error d, .error d' => (d.code == d'.code, d.column, d'.column)
      | _, _ => (false, 0, 0)) = (true, 1, 24) := by
  have hparse := Markup.Document.parse_eq_ofChars writing String.toList_ofList
  rw [compile, compile, Compiler.compile_eq, Compiler.compile_eq, hparse, hparse]
  decide +kernel

end ReactiveTemplate
