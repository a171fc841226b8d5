import ReactiveTemplate.Reactive.Handler
import ReactiveTemplate.Proofs.IndexedSet
/-!
# Calls — the numbers in invalidation calls

`Invalidation.ofUses` as a list of calls, each with its number and its write: the edits are those of the calls, the
calls are around exactly the writes to the context, and a number stands for its variable in every later table.
-/
set_option linter.all false

namespace ReactiveTemplate
open List

namespace IndexedSet

variable {α : Type} [BEq α] [LawfulBEq α]

omit [LawfulBEq α] in
lemma Extends.indexOf? {s t : IndexedSet α} (h : s.Extends t) {a : α} {i : Nat} (hi : s.indexOf? a = some i) :
    t.indexOf? a = some i :=
  List.IsPrefix.findIdx?_eq_some h hi

lemma indexOf?_insert (s : IndexedSet α) (a : α) : (s.insert a).2.indexOf? a = some (s.insert a).1 := by
  unfold insert
  split
  · assumption
  · rename_i hnone
    rw [indexOf?] at hnone
    simp [indexOf?, hnone]

lemma extends_insertAll (as : List α) : ∀ s : IndexedSet α, s.Extends (s.insertAll as) := by
  induction as with
  | nil => exact fun s => .refl s
  | cons a as ih => exact fun s => (s.extends_insert a).trans (ih (s.insert a).2)

lemma nodup_insertAll (as : List α) : ∀ {s : IndexedSet α}, s.items.Nodup → (s.insertAll as).items.Nodup := by
  induction as with
  | nil => exact fun h => h
  | cons a as ih => exact fun h => ih (nodup_insert h a)

lemma mem_insertAll {a : α} {as : List α} : ∀ {s : IndexedSet α}, a ∈ (s.insertAll as).items ↔ a ∈ s.items ∨ a ∈ as := by
  induction as with
  | nil => simp [insertAll]
  | cons b as ih =>
    intro s
    have hstep : s.insertAll (b :: as) = (s.insert b).2.insertAll as := rfl
    rw [hstep, ih, mem_insert, mem_cons, or_assoc]

end IndexedSet

namespace Invalidation

open Script (Use)

structure Call where
  number : Nat
  use : Use
  deriving Repr, DecidableEq

def Call.edits (c : Call) : List Edit := wrapping c.number c.use

def Call.front (c : Call) : String :=
  "_$i(" ++ Number.natText c.number ++ ", " ++ c.use.name ++ ", " ++ (if c.use.kind = .updated false then "(" else "")

def Call.back (c : Call) : String := if c.use.kind = .updated false then ", " ++ c.use.name ++ "))" else ")"

def Call.opening (c : Call) : Edit := ⟨c.use.span.start, c.use.span.start, .opening, c.use.span.stop, c.front⟩

def Call.closing (c : Call) : Edit := ⟨c.use.span.stop, c.use.span.stop, .closing, c.use.span.start, c.back⟩

lemma Call.edits_eq (c : Call) : c.edits = [c.opening, c.closing] := by
  obtain ⟨number, kind, name, reach, span⟩ := c
  unfold edits wrapping opening closing front back
  cases kind with
  | updated isPrefix => cases isPrefix <;> simp [Edit.wrap]
  | _ => simp [Edit.wrap]

def isContextWrite (u : Use) : Bool := u.isWrite && u.reach == .context

def contextWrites (uses : List Use) : List Use := uses.filter isContextWrite

def calls (vars : IndexedSet String) : List Use → List Call
  | [] => []
  | u :: us =>
    if isContextWrite u then ⟨(vars.insert u.name).1, u⟩ :: calls (vars.insert u.name).2 us else calls vars us

def numbered (vars : IndexedSet String) (uses : List Use) : IndexedSet String :=
  vars.insertAll ((contextWrites uses).map (·.name))

lemma ofUses_eq (uses : List Use) : ∀ vars : IndexedSet String,
    ofUses vars uses = ((calls vars uses).flatMap Call.edits, numbered vars uses) := by
  induction uses with
  | nil => exact fun vars => rfl
  | cons u us ih =>
    intro vars
    unfold ofUses calls numbered contextWrites
    by_cases h : (u.isWrite && u.reach == .context) = true
    · rw [if_pos h, if_pos (show isContextWrite u = true from h), filter_cons_of_pos (show isContextWrite u = true from h)]
      simp only [ih]
      rfl
    · rw [if_neg h, if_neg (show ¬isContextWrite u = true from h),
        filter_cons_of_neg (show ¬isContextWrite u = true from h)]
      exact ih vars

lemma map_use_calls (uses : List Use) : ∀ vars : IndexedSet String,
    (calls vars uses).map (·.use) = contextWrites uses := by
  induction uses with
  | nil => exact fun vars => rfl
  | cons u us ih =>
    intro vars
    unfold calls contextWrites
    by_cases h : isContextWrite u = true
    · rw [if_pos h, filter_cons_of_pos h, map_cons, ih]
      rfl
    · rw [if_neg h, filter_cons_of_neg h]
      exact ih vars

lemma extends_numbered (vars : IndexedSet String) (uses : List Use) : vars.Extends (numbered vars uses) :=
  IndexedSet.extends_insertAll _ vars

lemma indexOf?_of_mem_calls {c : Call} (uses : List Use) : ∀ {vars : IndexedSet String}, c ∈ calls vars uses →
    (numbered vars uses).indexOf? c.use.name = some c.number := by
  induction uses with
  | nil => exact fun h => nomatch h
  | cons u us ih =>
    intro vars hmem
    unfold calls at hmem
    unfold numbered contextWrites
    by_cases h : isContextWrite u = true
    · rw [if_pos h] at hmem
      rw [filter_cons_of_pos h]
      rcases mem_cons.1 hmem with rfl | hmem
      · exact (extends_numbered (vars.insert u.name).2 us).indexOf? (vars.indexOf?_insert u.name)
      · exact ih hmem
    · rw [if_neg h] at hmem
      rw [filter_cons_of_neg h]
      exact ih hmem

def numberOf (vars : IndexedSet String) (uses : List Use) (x : String) : Nat := (numbered vars uses).items.idxOf x

lemma calls_eq_map (vars : IndexedSet String) (uses : List Use) :
    calls vars uses = (contextWrites uses).map (fun u => ⟨numberOf vars uses u.name, u⟩) := by
  rw [← map_use_calls uses vars, map_map]
  refine (map_id _).symm.trans (map_congr_left (fun c hc => ?_))
  have hnumber : numberOf vars uses c.use.name = c.number :=
    (findIdx?_eq_some_iff_findIdx_eq.1 (indexOf?_of_mem_calls uses hc)).2
  simp [hnumber]

lemma get?_of_mem_calls {c : Call} (uses : List Use) {vars : IndexedSet String} (h : c ∈ calls vars uses) :
    (numbered vars uses).get? c.number = some c.use.name :=
  IndexedSet.get?_of_indexOf? (indexOf?_of_mem_calls uses h)

end Invalidation

/-! ## Scripts and snippets -/

lemma instrumentSnippet_eq_ok {source text : String} {context : List String} {vars vars' : IndexedSet String} :
    instrumentSnippet source context vars = .ok (text, vars') ↔
      ∃ program, Script.parseProgram? source = some program ∧
        text = Edit.apply source
          ((Invalidation.calls vars (program.root.isolatedUses context)).flatMap Invalidation.Call.edits) ∧
        vars' = Invalidation.numbered vars (program.root.isolatedUses context) := by
  unfold instrumentSnippet
  cases Script.parseProgram? source with
  | none => simp
  | some program =>
    simp only [Invalidation.ofUses_eq]
    constructor
    · intro h
      cases h
      exact ⟨program, rfl, rfl, rfl⟩
    · rintro ⟨program, h, rfl, rfl⟩
      cases h
      rfl

def InstrumentedScript.moves (source : String) (program : Script.Program) : List Edit :=
  (program.root.statements.map (ofStatement source.toList)).flatMap (·.edits)

lemma instrumentScript_of_ok {source : String} {context : List String} {vars vars' : IndexedSet String}
    {script : InstrumentedScript} (h : instrumentScript source context vars = .ok (script, vars')) :
    ∃ program, Script.parseProgram? source = some program ∧
      script.body = Text.trim (Edit.apply source (InstrumentedScript.moves source program ++
        (Invalidation.calls vars (program.root.contextUses context)).flatMap Invalidation.Call.edits)) ∧
      vars' = Invalidation.numbered vars (program.root.contextUses context) := by
  unfold instrumentScript at h
  cases hparse : Script.parseProgram? source with
  | none =>
    rw [hparse] at h
    cases h
  | some program =>
    rw [hparse] at h
    simp only [Invalidation.ofUses_eq] at h
    obtain ⟨rfl, rfl⟩ := Prod.mk.inj (Except.ok.inj h)
    exact ⟨program, rfl, rfl, rfl⟩

/-! ## Handlers -/

namespace Handler

/-- A handler whose calls, if it has any, name their variables by the numbers of a table: taken as it is written, or a
function with calls around its writes to the context. -/
inductive Numbered (context : Context) (vars : IndexedSet String) : String → Prop
  | verbatim {value handler : String} (h : verbatim? (Text.trim value) = some handler) : Numbered context vars handler
  | instrumented {source : String} {program : Script.Program} {calls : List Invalidation.Call}
    (hparse : Script.parseProgram? source = some program)
    (hcalls : calls.map (·.use) = Invalidation.contextWrites (program.root.isolatedUses context.declared))
    (hnumbers : ∀ c ∈ calls, vars.get? c.number = some c.use.name) :
    Numbered context vars (Edit.apply source (calls.flatMap Invalidation.Call.edits))

variable {context : Context} {vars vars' : IndexedSet String} {handler value : String}

lemma Numbered.mono
    (h : Numbered context vars handler) (hext : vars.Extends vars') : Numbered context vars' handler := by
  cases h with
  | verbatim h => exact .verbatim h
  | instrumented hparse hcalls hnumbers =>
    exact .instrumented hparse hcalls (fun c hc => hext.get? (hnumbers c hc))

lemma ofValue_cases (h : ofValue context vars value = .ok (handler, vars')) :
    (verbatim? (Text.trim value) = some handler ∧ vars' = vars) ∨
      ∃ source, instrumentSnippet source context.declared vars = .ok (handler, vars') := by
  unfold ofValue at h
  simp only at h
  cases hverbatim : verbatim? (Text.trim value) with
  | some found =>
    rw [hverbatim] at h
    cases h
    exact .inl ⟨rfl, rfl⟩
  | none =>
    rw [hverbatim] at h
    cases hwrap : wrap context (Text.trim value) with
    | error fault =>
      rw [hwrap] at h
      cases h
    | ok wrapped =>
      rw [hwrap] at h
      exact .inr ⟨wrapped, h⟩

lemma numbered_of_ofValue (h : ofValue context vars value = .ok (handler, vars')) :
    vars.Extends vars' ∧ Numbered context vars' handler := by
  rcases ofValue_cases h with ⟨hverbatim, rfl⟩ | ⟨source, h⟩
  · exact ⟨.refl vars', .verbatim hverbatim⟩
  · obtain ⟨program, hparse, rfl, rfl⟩ := instrumentSnippet_eq_ok.1 h
    exact ⟨Invalidation.extends_numbered vars _,
      .instrumented hparse (Invalidation.map_use_calls _ vars) (fun c hc => Invalidation.get?_of_mem_calls _ hc)⟩

lemma nodup_of_ofValue
    (h : ofValue context vars value = .ok (handler, vars')) (hvars : vars.items.Nodup) : vars'.items.Nodup := by
  rcases ofValue_cases h with ⟨-, rfl⟩ | ⟨source, h⟩
  · exact hvars
  · obtain ⟨program, -, -, rfl⟩ := instrumentSnippet_eq_ok.1 h
    exact IndexedSet.nodup_insertAll _ hvars

end Handler
end ReactiveTemplate
