import ReactiveTemplate.Proofs.Reactive.Stretches
import ReactiveTemplate.Proofs.Script.Programs
import ReactiveTemplate.Proofs.Script.Walking
import ReactiveTemplate.Proofs.Script.Wrapping
/-!
# Snippets — phrases with calls around their writes

The text of a phrase, wherever it is in a source, becomes that of the wrapped phrase when calls are put around its
writes (`Phrase.becomes_wrap`).
-/
set_option linter.all false

namespace ReactiveTemplate
open List
open Invalidation

open Script (Phrase Chunk Span Use UseKind flat)

namespace Script.Phrase

open Invalidation (Call)

variable {x : String} {span : Span}

def callAt (number : String → Option Nat) (kind : UseKind) (x : String) (span : Span) : Option Call :=
  (number x).map (fun k => ⟨k, ⟨kind, x, .context, span⟩⟩)

def calls (number : String → Option Nat) (b : Nat) : Phrase → List Call
  | name _ _ | numeral _ _ _ => []
  | paren gap inner _ => calls number (b + (gap.length + 1)) inner
  | call gap callee opening arguments _ =>
    calls number (b + (gap.length + callee.toList.length) + (opening.length + 1)) arguments
  | stepBefore gap operator inside x =>
    (callAt number (.updated true) x ((stepBefore gap operator inside x).span b)).toList
  | stepBehind gap x inside operator =>
    (callAt number (.updated false) x ((stepBehind gap x inside operator).span b)).toList
  | sign gap operator operand => calls number (b + (gap.length + operator.toList.length)) operand
  | binary left gap operator right =>
    calls number b left ++ calls number (b + left.size + (gap.length + operator.toList.length)) right
  | assign gap x inside operator value =>
    (callAt number .assigned x ((assign gap x inside operator value).span b)).toList ++
      calls number (b + (gap.length + x.toList.length) + (inside.length + operator.toList.length)) value
  | comma first gap rest => calls number b first ++ calls number (b + first.size + (gap.length + 1)) rest

/-! ## The text of a wrapped phrase -/

section Text

open Invalidation (edits text Covers covers_text Piece)

/-- A text that becomes another one, wherever it is in a source, when calls are put into it. -/
def Becomes (calls : Nat → List Call) (before after : List Char) : Prop :=
  ∀ (source : List Char) (b : Nat) (rest : List Char), source.drop b = before ++ rest →
    ∃ ps, Covers source b (b + before.length) ps ∧ ((calls b).flatMap Call.edits).Perm (edits ps) ∧ text ps = after

namespace Becomes

variable {calls calls' : Nat → List Call} {before before' after after' : List Char}

lemma kept (t : List Char) : Becomes (fun _ => []) t t :=
  fun _ _ _ h => ⟨[.kept t], covers_text h, .refl _, flatMap_singleton _ _⟩

lemma append (h : Becomes calls before after) (h' : Becomes calls' before' after') :
    Becomes (fun b => calls b ++ calls' (b + before.length)) (before ++ before') (after ++ after') := by
  intro source b rest hdrop
  rw [append_assoc] at hdrop
  obtain ⟨ps, hcovers, hperm, htext⟩ := h source b _ hdrop
  obtain ⟨qs, hcovers', hperm', htext'⟩ := h' source (b + before.length) rest (by rw [← drop_drop, hdrop, drop_left])
  refine ⟨ps ++ qs, ?_, ?_, ?_⟩
  · rw [length_append, ← Nat.add_assoc]
    exact hcovers.append hcovers'
  · rw [flatMap_append, edits_append]
    exact hperm.append hperm'
  · rw [text_append, htext, htext']

lemma of_eq (h : Becomes calls before after) (hcalls : ∀ b, calls b = calls' b) (hbefore : before = before')
    (hafter : after = after') : Becomes calls' before' after' := by
  rw [← funext hcalls, ← hbefore, ← hafter]
  exact h

lemma wrap {head : List Char} {number : Nat} {kind : UseKind} {reach : Reach}
    (h : Becomes calls before after) (hhead : head ≠ []) :
    let call (b : Nat) : Call := ⟨number, kind, x, reach, ⟨b, b + (head ++ before).length⟩⟩
    Becomes (fun b => call b :: calls (b + head.length)) (head ++ before)
      ((call 0).front.toList ++ (head ++ after) ++ (call 0).back.toList) := by
  intro call source b rest hdrop
  have hspan : (call b).use.span = ⟨b, b + (head ++ before).length⟩ := rfl
  have hpos := length_pos_iff.2 hhead
  rw [append_assoc] at hdrop
  have hmid : source.drop (b + head.length) = before ++ rest := by rw [← drop_drop, hdrop, drop_left]
  obtain ⟨ps, hcovers, hperm, htext⟩ := h source _ rest hmid
  have hstop : b + head.length + before.length = b + (head ++ before).length := by rw [length_append, Nat.add_assoc]
  have hinner := (covers_text hdrop).append hcovers
  rw [hstop] at hinner hcovers
  have hps : ∀ m ∈ edits ps, m.kind ≠ .replacing ∧ (m.start ≠ b ∨ m.extent ≠ b + (head ++ before).length) ∧
      (m.start ≠ b + (head ++ before).length ∨ m.extent ≠ b) := by
    intro m hm
    obtain ⟨c, -, hc⟩ := mem_flatMap.1 (hperm.mem_iff.2 hm)
    have hwithin := hcovers.within m hm
    unfold Edit.Within at hwithin
    rw [Call.edits_eq] at hc
    simp only [mem_cons, not_mem_nil, or_false] at hc
    rcases hc with rfl | rfl <;> simp only [Call.opening, Call.closing] at hwithin ⊢ <;>
      exact ⟨by simp, by omega, by omega⟩
  refine ⟨_, hinner.wrap hspan (by rw [length_append]; omega) hps, ?_, ?_⟩
  · rw [flatMap_cons, Call.edits_eq]
    simp only [edits, nil_append, filterMap_cons, Piece.edit?, filterMap_append,
      filterMap_nil]
    exact .cons _ ((hperm.cons _).trans (perm_append_singleton _ _).symm)
  · simp [text, Piece.chars] at htext ⊢
    rw [htext]
    rfl

/-- A write behind a gap, with a call around it if its variable has a number. -/
lemma write (number : String → Option Nat) (gap : List Char) (kind : UseKind) (x : String) {head : List Char}
    (h : Becomes calls before after) (hhead : head ≠ []) :
    Becomes (fun b => (callAt number kind x ⟨b + gap.length, b + gap.length + (head ++ before).length⟩).toList ++
        calls (b + gap.length + head.length)) (gap ++ (head ++ before))
      (gap ++ ((number x).elim (head ++ after) (fun k =>
        (Call.mk k ⟨kind, x, .context, ⟨0, 0⟩⟩).front.toList ++ (head ++ after) ++
          (Call.mk k ⟨kind, x, .context, ⟨0, 0⟩⟩).back.toList))) := by
  unfold callAt
  cases number x with
  | none => exact (kept gap).append ((kept head).append h)
  | some k => exact (kept gap).append (h.wrap hhead)

end Becomes

variable {number : String → Option Nat}

lemma flat_telling (gap : List Char) (k : Nat) (x : String) (write : Phrase) :
    flat (telling gap k x write).chunks =
      gap ++ ("_$i(" ++ Number.natText k ++ ", " ++ x ++ ",").toList ++ flat write.chunks ++ [')'] := by
  simp [telling, index, chunks, Chunk.chars, Chunk.word, Chunk.punct, Number.natText, flat]

lemma toList_ne_nil (h : isName x = true) : x.toList ≠ [] := by
  intro hnil
  rw [isName, hnil] at h
  cases h

lemma becomes_wrap {e : Phrase} (hfits : e.fits = true) :
    Becomes (e.calls number) (flat e.chunks) (flat (e.wrap number).chunks) := by
  induction e with
  | name gap x => exact .kept _
  | numeral gap text bits => exact .kept _
  | paren gap inner behind ih =>
    refine ((Becomes.kept (gap ++ ['('])).append ((ih hfits).append (.kept (behind ++ [')'])))).of_eq ?_ ?_ ?_ <;>
      simp [calls, wrap, chunks, flat, Chunk.chars, Chunk.punct]
  | call gap callee opening arguments behind ih =>
    simp only [fits, Bool.and_eq_true] at hfits
    refine ((Becomes.kept (gap ++ callee.toList ++ opening ++ ['('])).append
      ((ih hfits.2).append (.kept (behind ++ [')'])))).of_eq ?_ ?_ ?_ <;>
      simp [calls, wrap, chunks, flat, Chunk.chars, Chunk.punct, Chunk.word, Nat.add_assoc]
  | stepBefore gap operator inside x =>
    simp only [fits, Bool.and_eq_true] at hfits
    have hhead : operator.toList ++ inside ++ x.toList ≠ [] := by simp [toList_ne_nil hfits.2]
    refine ((Becomes.kept []).write number gap (.updated true) x hhead).of_eq (fun b => ?_) ?_ ?_
    · simp [calls, span, lead, size_stepBefore, Nat.add_assoc]
    · simp [chunks, flat, Chunk.chars, Chunk.word, Chunk.punct]
    · rw [wrap]
      cases number x with
      | none => simp [chunks, flat, Chunk.chars, Chunk.word, Chunk.punct]
      | some k =>
        simp only [flat_telling]
        simp [chunks, flat, Chunk.chars, Chunk.word, Chunk.punct, Call.front, Call.back]
  | stepBehind gap x inside operator =>
    simp only [fits, Bool.and_eq_true] at hfits
    have hhead : x.toList ++ inside ++ operator.toList ≠ [] := by simp [toList_ne_nil hfits.1.2]
    refine ((Becomes.kept []).write number gap (.updated false) x hhead).of_eq (fun b => ?_) ?_ ?_
    · simp [calls, span, lead, size_stepBehind, Nat.add_assoc]
    · simp [chunks, flat, Chunk.chars, Chunk.word, Chunk.punct]
    · rw [wrap]
      cases number x with
      | none => simp [chunks, flat, Chunk.chars, Chunk.word, Chunk.punct]
      | some k =>
        simp only [flat_telling]
        simp [chunks, flat, Chunk.chars, Chunk.word, Chunk.punct, Call.front, Call.back]
  | sign gap operator operand ih =>
    simp only [fits, Bool.and_eq_true] at hfits
    refine ((Becomes.kept (gap ++ operator.toList)).append (ih hfits.1.2)).of_eq ?_ ?_ ?_ <;>
      simp [calls, wrap, chunks, flat, Chunk.chars, Chunk.punct]
  | binary left gap operator right ihl ihr =>
    simp only [fits, Bool.and_eq_true] at hfits
    obtain ⟨⟨⟨⟨⟨-, hleft⟩, hright⟩, -⟩, -⟩, -⟩ := hfits
    refine ((ihl hleft).append ((Becomes.kept (gap ++ operator.toList)).append (ihr hright))).of_eq ?_ ?_ ?_ <;>
      simp [calls, wrap, chunks, flat, Chunk.chars, Chunk.punct, size]
  | assign gap x inside operator value ih =>
    simp only [fits, Bool.and_eq_true] at hfits
    have hhead : x.toList ++ inside ++ operator.toList ≠ [] := by simp [toList_ne_nil hfits.1.1.1]
    refine ((ih hfits.1.2).write number gap .assigned x hhead).of_eq (fun b => ?_) ?_ ?_
    · have hsize : (flat value.chunks).length = value.size := rfl
      simp [calls, span, lead, size_assign, hsize, Nat.add_assoc]
    · simp [chunks, flat, Chunk.chars, Chunk.word, Chunk.punct]
    · rw [wrap]
      cases number x with
      | none => simp [chunks, flat, Chunk.chars, Chunk.word, Chunk.punct]
      | some k =>
        simp only [flat_telling]
        simp [chunks, flat, Chunk.chars, Chunk.word, Chunk.punct, Call.front, Call.back]
  | comma first gap rest ihf ihr =>
    simp only [fits, Bool.and_eq_true] at hfits
    refine ((ihf hfits.1.1).append ((Becomes.kept (gap ++ [','])).append (ihr hfits.2))).of_eq ?_ ?_ ?_ <;>
      simp [calls, wrap, chunks, flat, Chunk.chars, Chunk.punct, size]

end Text

/-! ## The writes of a phrase -/

section Uses

open Invalidation (contextWrites)

variable {context : List String} {number : String → Option Nat} {scopes : List (List String)}

def areBare (scopes : List (List String)) : Bool := scopes.all isEmpty

lemma reachOf_bare (h : areBare scopes = true) (x : String) :
    reachOf context scopes x = if context.contains x then .context else .free := by
  have hnone : (scopes.any (·.contains x)) = false := by
    refine any_eq_false.2 (fun names hnames => ?_)
    rw [isEmpty_iff.1 (all_eq_true.1 h names hnames)]
    exact Bool.false_ne_true
  rw [reachOf, hnone]
  rfl

lemma usesOf_inside (ns : List Node) : ∀ scopes : List (List String),
    Node.usesOf context scopes (.inside []) (.inside []) ns = ns.flatMap (Node.uses context ([] :: scopes)) := by
  induction ns with
  | nil => exact fun _ => rfl
  | cons n ns ih =>
    intro scopes
    rw [Node.usesOf_cons, ih, Node.usesIn, flatMap_cons]

lemma uses_node {form : Form} {parts : List Node} (h : form.surrounds parts = (.inside [], .inside [])) :
    Node.uses context scopes (.node form span parts) =
      ((form.useOf parts).map (fun use => ⟨use.1, use.2, reachOf context scopes use.2, span⟩)).toList ++
        parts.flatMap (Node.uses context ([] :: scopes)) := by
  rw [Node.uses_node, h]
  exact congrArg (_ ++ ·) (usesOf_inside parts scopes)

lemma contextWrites_append (us vs : List Use) : contextWrites (us ++ vs) = contextWrites us ++ contextWrites vs :=
  filter_append us vs

lemma contextWrites_write (hnumber : ∀ x, (number x).isSome = context.contains x) (h : areBare scopes = true)
    {kind : UseKind} (hkind : (⟨kind, x, .context, span⟩ : Use).isWrite = true) :
    contextWrites [⟨kind, x, reachOf context scopes x, span⟩] = (callAt number kind x span).toList.map (·.use) := by
  have hwrite : ∀ reach, (⟨kind, x, reach, span⟩ : Use).isWrite = true := fun _ => hkind
  have hx := hnumber x
  unfold contextWrites
  rw [reachOf_bare h, callAt]
  cases hn : number x with
  | none =>
    rw [hn] at hx
    rw [← hx]
    simp [isContextWrite]
  | some k =>
    rw [hn] at hx
    rw [← hx]
    simp [isContextWrite, hwrite]

lemma contextWrites_join {ns : List Node} {us : List Use}
    (h : ∀ scopes, areBare scopes = true → contextWrites (ns.flatMap (Node.uses context scopes)) = us)
    (hscopes : areBare scopes = true) : contextWrites (Node.uses context scopes (join span ns)) = us := by
  unfold join
  split
  · simpa using h scopes hscopes
  · rw [uses_node rfl]
    exact h ([] :: scopes) hscopes

lemma contextWrites_trees (hnumber : ∀ x, (number x).isSome = context.contains x) (e : Phrase) :
    ∀ (b : Nat) (scopes : List (List String)), areBare scopes = true →
      contextWrites ((e.trees b).flatMap (Node.uses context scopes)) = (e.calls number b).map (·.use) := by
  induction e with
  | name gap x => exact fun _ _ _ => rfl
  | numeral gap text bits => exact fun _ _ _ => rfl
  | paren gap inner behind ih =>
    intro b scopes h
    rw [trees, flatMap_singleton, uses_node rfl]
    simp only [flatMap_singleton]
    exact contextWrites_join (ih _) h
  | call gap callee opening arguments behind ih =>
    intro b scopes h
    rw [trees, flatMap_singleton, uses_node rfl]
    exact ih _ ([] :: scopes) h
  | stepBefore gap operator inside x =>
    intro b scopes h
    exact contextWrites_write hnumber h rfl
  | stepBehind gap x inside operator =>
    intro b scopes h
    exact contextWrites_write hnumber h rfl
  | sign gap operator operand ih =>
    intro b scopes h
    rw [trees, flatMap_singleton, uses_node rfl]
    exact ih _ ([] :: scopes) h
  | binary left gap operator right ihl ihr =>
    intro b scopes h
    rw [trees, flatMap_singleton, uses_node rfl, flatMap_append, calls, map_append, ← ihl b ([] :: scopes) h,
      ← ihr _ ([] :: scopes) h]
    exact contextWrites_append ((left.trees b).flatMap _) _
  | assign gap x inside operator value ih =>
    intro b scopes h
    rw [trees, flatMap_singleton, uses_node rfl, calls, map_append, ← ih _ ([] :: scopes) h,
      ← contextWrites_write hnumber h rfl]
    exact contextWrites_append _ _
  | comma first gap rest ihf ihr =>
    intro b scopes h
    rw [trees, flatMap_append, contextWrites_append, ihf b scopes h, ihr _ scopes h, calls, map_append]

lemma allHoistedNames_append (ns ms : List Node) :
    Node.allHoistedNames (ns ++ ms) = Node.allHoistedNames ns ++ Node.allHoistedNames ms := by
  induction ns with
  | nil => rfl
  | cons n ns ih => rw [cons_append, Node.allHoistedNames, ih, Node.allHoistedNames, append_assoc]

lemma hoistedNames_join (span : Span) (ns : List Node) : (join span ns).hoistedNames = Node.allHoistedNames ns := by
  unfold join
  split
  · exact (append_nil _).symm
  · rfl

lemma allHoistedNames_trees (e : Phrase) (b : Nat) : Node.allHoistedNames (e.trees b) = [] := by
  have hname : ∀ (b : Nat) (gap : List Char) (x : String), (nameAt b gap x).hoistedNames = [] := fun _ _ _ => rfl
  induction e generalizing b with
  | name gap x => rfl
  | numeral gap text bits => rfl
  | paren gap inner behind ih => simp [trees, Node.allHoistedNames, Node.hoistedNames, hoistedNames_join, ih]
  | call gap callee opening arguments behind ih => simp [trees, Node.allHoistedNames, Node.hoistedNames, hname, ih]
  | stepBefore gap operator inside x => rfl
  | stepBehind gap x inside operator => rfl
  | sign gap operator operand ih => simp [trees, Node.allHoistedNames, Node.hoistedNames, ih]
  | binary left gap operator right ihl ihr =>
    simp [trees, Node.allHoistedNames, Node.hoistedNames, allHoistedNames_append, ihl, ihr]
  | assign gap x inside operator value ih => simp [trees, Node.allHoistedNames, Node.hoistedNames, hname, ih]
  | comma first gap rest ihf ihr => simp [trees, allHoistedNames_append, ihf, ihr]

lemma isolatedUses_program (e : Phrase) (behind : List Char) :
    (e.program behind).root.isolatedUses context = (e.tree 0).uses context [[], [], []] := by
  have hscope : Node.scopeNames (e.program behind).root.statements = [] := by
    have htree : (e.tree 0).hoistedNames = [] := (hoistedNames_join _ _).trans (allHoistedNames_trees e 0)
    show [] ++ (Node.hoistedNames (e.tree 0) ++ [] ++ []) = []
    rw [htree]
    rfl
  rw [Node.isolatedUses_eq, hscope]
  rfl

lemma number_of_mem_calls {c : Call} (e : Phrase) : ∀ {b : Nat}, c ∈ e.calls number b →
    number c.use.name = some c.number := by
  have hcall : ∀ {kind : UseKind} {x : String} {span : Span}, c ∈ (callAt number kind x span).toList →
      number c.use.name = some c.number := by
    intro kind x span h
    obtain ⟨k, hk, rfl⟩ := Option.map_eq_some_iff.1 (Option.mem_toList.1 h)
    exact hk
  induction e with
  | name gap x => exact fun h => nomatch h
  | numeral gap text bits => exact fun h => nomatch h
  | paren gap inner behind ih => exact fun h => ih h
  | call gap callee opening arguments behind ih => exact fun h => ih h
  | stepBefore gap operator inside x => exact fun h => hcall h
  | stepBehind gap x inside operator => exact fun h => hcall h
  | sign gap operator operand ih => exact fun h => ih h
  | binary left gap operator right ihl ihr => exact fun h => (mem_append.1 h).elim ihl ihr
  | assign gap x inside operator value ih => exact fun h => (mem_append.1 h).elim hcall ih
  | comma first gap rest ihf ihr => exact fun h => (mem_append.1 h).elim ihf ihr

end Uses

end Script.Phrase

/-! ## Snippets that are phrases -/

section Snippet

open Script (AllRead)
open Invalidation (Call contextWrites numbered)

def Invalidation.numbering (context : List String) (vars : IndexedSet String) (x : String) : Option Nat :=
  if context.contains x then some (vars.items.idxOf x) else none

variable {e : Phrase} {behind : List Char} {context : List String} {vars : IndexedSet String}

lemma Invalidation.isSome_numbering (context : List String) (vars : IndexedSet String) (x : String) :
    (numbering context vars x).isSome = context.contains x := by
  unfold numbering
  cases context.contains x <;> rfl

lemma Script.Phrase.contextWrites_program {number : String → Option Nat}
    (hnumber : ∀ x, (number x).isSome = context.contains x) (e : Phrase) (behind : List Char) :
    contextWrites ((e.program behind).root.isolatedUses context) = (e.calls number 0).map (·.use) := by
  rw [isolatedUses_program]
  exact contextWrites_join (contextWrites_trees hnumber e 0) rfl

lemma instrumentSnippet_phrase {source : String} (context : List String) (vars : IndexedSet String)
    (hfits : e.fits = true) (hsource : source.toList = flat (e.chunks ++ [.finish behind])) (h : AllRead (e.chunks ++ [.finish behind])) :
    ∃ vars', vars' = numbered vars ((e.program behind).root.isolatedUses context) ∧
      instrumentSnippet source context vars =
        .ok (String.ofList (flat ((e.wrap (numbering context vars')).chunks ++ [.finish behind])), vars') := by
  refine ⟨_, rfl, instrumentSnippet_eq_ok.2 ⟨e.program behind, Script.parseProgram?_phrase hfits hsource h, ?_, rfl⟩⟩
  generalize hvars' : numbered vars ((e.program behind).root.isolatedUses context) = vars'
  have hwrites := e.contextWrites_program (isSome_numbering context vars') behind
  have hcalls : calls vars ((e.program behind).root.isolatedUses context) =
      e.calls (numbering context vars') 0 := by
    rw [calls_eq_map, hwrites, map_map]
    refine (map_congr_left (fun c hc => ?_)).trans (map_id _)
    have hnumber := e.number_of_mem_calls hc
    unfold numbering at hnumber
    split at hnumber
    · simp [numberOf, hvars', Option.some.inj hnumber]
    · cases hnumber
  have htext : source.toList.drop 0 = flat e.chunks ++ behind := by
    rw [hsource, Script.flat_append]
    exact congrArg (_ ++ ·) (by simp [flat, Chunk.chars, Chunk.finish])
  have hbecomes : Phrase.Becomes (e.calls (numbering context vars')) _ _ := Phrase.becomes_wrap hfits
  obtain ⟨ps, hcovers, hperm, htext'⟩ := hbecomes.append (.kept behind) source.toList 0 [] (by simpa using htext)
  have hlength : source.toList.length = 0 + (flat e.chunks ++ behind).length := by
    rw [Nat.zero_add, ← htext, drop_zero]
  rw [← hlength] at hcovers
  simp only [append_nil] at hperm
  rw [hcalls, hcovers.apply_eq hperm, htext', Script.flat_append]
  exact congrArg (fun t => String.ofList (_ ++ t)) (by simp [flat, Chunk.chars, Chunk.finish])

lemma instrumentSnippet_of_sorted {source text : String} {vars' : IndexedSet String} {program : Script.Program} {cs : List Call}
    (hparse : Script.parseProgram? source = some program)
    (hcalls : calls vars (program.root.isolatedUses context) = cs)
    (hvars : numbered vars (program.root.isolatedUses context) = vars')
    (hsorted : (cs.flatMap Call.edits).Pairwise Edit.Before)
    (htext : Edit.splice source.toList 0 (cs.flatMap Call.edits) = text.toList) :
    instrumentSnippet source context vars = .ok (text, vars') := by
  refine instrumentSnippet_eq_ok.2 ⟨program, hparse, ?_, hvars.symm⟩
  rw [hcalls, Edit.apply_of_perm (.refl _) hsorted, htext, String.ofList_toList]

end Snippet
end ReactiveTemplate
