import ReactiveTemplate.Proofs.Script.Assignments
/-!
# Programs — a phrase as a whole script
-/
set_option linter.all false

namespace ReactiveTemplate
open List
namespace Script
namespace Parser

variable {g : Grammar} {b : Nat} {q : Chunk} {ps : List Chunk} {gap : List Char} {x : String} {e : Phrase}

/-! ## Lists of items -/

lemma tree_comma {first rest : Phrase} (h : first.isItem = true) :
    (Phrase.comma first gap rest).tree b = .node .sequence ((Phrase.comma first gap rest).span b)
      (first.tree b :: rest.trees (b + first.size + (gap.length + 1))) := by
  obtain ⟨t, ts, hts⟩ := exists_cons_of_ne_nil (rest.trees_ne_nil (b + first.size + (gap.length + 1)))
  have htrees : (Phrase.comma first gap rest).trees b = first.tree b :: t :: ts := by
    rw [Phrase.trees.eq_def]
    simp [Phrase.trees_eq h, hts]
  rw [hts, Phrase.tree, htrees]
  rfl

def commaStep (g : Grammar) (items : List Node) : Parser (List Node ⊕ List Node) := do
  if ← eat "," then
    let n ← g.assignment
    return .inl (items ++ [n])
  else return .inr items

lemma commaStep_end {items : List Node} (hq : q.token.is "," = false) :
    commaStep g items {} (cursor b (q :: ps)) = some (.inr items, cursor b (q :: ps)) := by
  unfold commaStep
  rw [run_bind, run_eat, token_cursor, hq]
  rfl

lemma commaStep_comma {items : List Node} {row : List Chunk} (h : AllRead (.punct gap "," :: (e.chunks ++ row))) :
    commaStep g items {} (cursor b (.punct gap "," :: (e.chunks ++ row))) =
      (g.assignment {} (cursor (b + (gap.length + 1)) (e.chunks ++ row))).bind (fun r =>
        some (.inl (items ++ [r.1]), r.2)) := by
  have hnext : (cursor b (.punct gap "," :: (e.chunks ++ row))).next = cursor (b + (gap.length + 1)) (e.chunks ++ row) :=
    next_punct_chunks h
  unfold commaStep
  rw [run_bind, run_eat, hnext]
  rfl

variable {n : Nat} {c : Cursor}

lemma iterate_commaStep (hassignment : ReadsItems g.assignment n) (hq : q.token.closes = true)
    (hcomma : q.token.is "," = false) (e : Phrase) : ∀ (items : List Node) {b fuel : Nat} {gap : List Char},
      e.fits = true → e.floors < n → e.commas + 1 < fuel → AllRead (.punct gap "," :: (e.chunks ++ q :: ps)) →
      iterate (commaStep g) fuel items {} (cursor b (.punct gap "," :: (e.chunks ++ q :: ps))) =
        some (items ++ e.trees (b + (gap.length + 1)), cursor (b + (gap.length + 1) + e.size) (q :: ps)) := by
  induction e using Phrase.item_rec with
  | item e hitem =>
    intro items b fuel gap hfits hfloors hfuel h
    obtain ⟨fuel, rfl⟩ := Nat.exists_eq_add_of_le' (Nat.lt_of_le_of_lt (Nat.le_add_left 1 _) hfuel)
    rw [run_iterate, commaStep_comma h, hassignment hfits hitem hfloors h.2 hq]
    simp only [Option.bind_some]
    rw [run_iterate, commaStep_end hcomma, Phrase.trees_eq hitem]
    rfl
  | comma first gap' rest ih =>
    intro items b fuel gap hfits hfloors hfuel h
    simp only [Phrase.fits, Bool.and_eq_true] at hfits
    simp only [Phrase.floors] at hfloors
    simp only [Phrase.commas] at hfuel
    obtain ⟨fuel, rfl⟩ := Nat.exists_eq_add_one.2 (Nat.zero_lt_of_lt hfuel)
    simp only [Phrase.chunks, append_assoc, cons_append] at h ⊢
    rw [run_iterate, commaStep_comma h, hassignment hfits.1.1 hfits.1.2 (by omega) h.2 rfl]
    simp only [Option.bind_some]
    rw [ih _ hfits.2 (by omega) (by omega) h.2.right, Phrase.trees, Phrase.trees_eq hfits.1.2, Phrase.size_comma]
    simp [Nat.add_assoc]

lemma expression_phrase (hassignment : ReadsItems g.assignment n) (hq : q.token.closes = true)
    (hcomma : q.token.is "," = false) (hfits : e.fits = true) (hfloors : e.floors < n)
    (h : AllRead (e.chunks ++ q :: ps)) :
    Reads (expression g) e b q ps := by
  unfold Reads expression
  rw [run_bind, run_position, Option.bind_some, run_bind, Phrase.start_cursor_chunks]
  cases e with
  | comma first gap rest =>
    simp only [Phrase.fits, Bool.and_eq_true] at hfits
    simp only [Phrase.floors] at hfloors
    simp only [Phrase.chunks, append_assoc, cons_append] at h ⊢
    rw [hassignment hfits.1.1 hfits.1.2 (by omega) h rfl]
    have hfuel : rest.commas + 1 < (cursor (b + first.size) (.punct gap "," :: (rest.chunks ++ q :: ps))).rest.length + 2 := by
      have hsize : rest.commas ≤ (flat rest.chunks).length := rest.commas_le_size
      rw [rest_cursor, length_flat_append]
      omega
    have hitems := iterate_commaStep hassignment hq hcomma rest [first.tree b] (b := b + first.size) hfits.2 (by omega)
      hfuel h.right
    refine (congrArg (Option.bind · _) hitems).trans ?_
    rw [tree_comma hfits.1.2, Phrase.span, Phrase.size_comma]
    simp only [Nat.add_assoc]
    rfl
  | _ =>
    rw [hassignment hfits rfl hfloors h hq, Option.bind_some, run_bind, run_on, token_cursor, hcomma]
    rfl

/-! ## Statements -/

lemma endStatement_finish : endStatement {} (cursor b [.finish gap]) = some ((), cursor b [.finish gap]) := by
  have hguard : ((cursor b [.finish gap]).newline || (cursor b [.finish gap]).token.is "\x7d" ||
      (cursor b [.finish gap]).token == .finish) = true := by simp [token_cursor, Chunk.finish]
  show (if _ then pure () else failure : Parser Unit) {} _ = _
  rw [if_pos hguard]
  rfl

lemma expressionStatement_phrase (hassignment : ReadsItems g.assignment n) (hfits : e.fits = true)
    (hfloors : e.floors < n) (h : AllRead (e.chunks ++ [.finish gap])) :
    expressionStatement g {} (cursor b (e.chunks ++ [.finish gap])) =
      some (.node .expression (e.span b) [e.tree b], cursor (b + e.size) [.finish gap]) := by
  unfold expressionStatement
  rw [run_bind, run_position, Option.bind_some, run_bind, Phrase.start_cursor_chunks,
    expression_phrase hassignment rfl rfl hfits hfloors h, Option.bind_some]
  have hend : (do
      endStatement
      close (b + e.lead.length) .expression [e.tree b] : Parser Node) {} (cursor (b + e.size) [.finish gap]) =
      some (.node .expression (e.span b) [e.tree b], cursor (b + e.size) [.finish gap]) := by
    rw [run_bind, endStatement_finish, Option.bind_some, run_close, before_cursor, Phrase.span]
  cases (e.tree b).identifier? with
  | none => exact hend
  | some name => exact hend

lemma wordStatement_name {isSingle : Bool} (hx : isName x = true) (hc : c.token = .word x false) :
    wordStatement g isSingle x {} c = expressionStatement g {} c := by
  have hnot : ∀ {s : String}, isName s = false → c.token.is s = false := fun hs => by
    rw [hc]
    exact Token.is_of_isName hx hs
  have himport : (x == "import") = false := beq_eq_false_iff_ne.2 (fun heq => absurd (heq ▸ hx) (by decide))
  unfold wordStatement
  rw [run_bind, run_position]
  split
  all_goals first | exact absurd hx (by decide) | skip
  simp [run_bind, run_peek, Option.bind_some, himport, onAsyncFunction, onUsing, onAwaitUsing, run_on, run_pure,
    hnot (s := "async") (by decide), hnot (s := "using") (by decide), hnot (s := "await") (by decide), Bool.false_and,
    Bool.false_eq_true, if_false]

lemma plainStatement_starts {isSingle : Bool} (h : c.token.startsPhrase = true) :
    plainStatement g isSingle {} c = expressionStatement g {} c := by
  unfold plainStatement
  rw [run_bind, run_position, Option.bind_some, run_bind, run_get, Option.bind_some]
  cases hc : c.token with
  | punct s =>
    rw [hc] at h
    have hs : s ∈ "(" :: stepOperators ++ signOperators := contains_iff_mem.1 h
    simp only [stepOperators, signOperators, cons_append, nil_append, mem_cons, not_mem_nil,
      or_false] at hs
    rcases hs with rfl | rfl | rfl | rfl | rfl | rfl | rfl <;> rfl
  | word x escaped =>
    rw [hc] at h
    cases escaped with
    | true => cases h
    | false => exact wordStatement_name h hc
  | number bits => rfl
  | _ => rfl

lemma statement_phrase (hassignment : ReadsItems g.assignment n) (hfits : e.fits = true)
    (hfloors : e.floors < n) (h : AllRead (e.chunks ++ [.finish gap])) :
    statement g false {} (cursor b (e.chunks ++ [.finish gap])) =
      some (.node .expression (e.span b) [e.tree b], cursor (b + e.size) [.finish gap]) := by
  unfold statement
  rw [run_bind, run_get, Option.bind_some, Phrase.annotations_cursor_chunks, run_bind,
    plainStatement_starts (Phrase.startsPhrase_cursor hfits b _), expressionStatement_phrase hassignment hfits hfloors h,
    Option.bind_some]
  rfl

lemma directive?_phrase {span : Span} (hfits : e.fits = true) :
    directive? c (.node .expression span [e.tree b]) = none := by
  cases e with
  | comma first gap rest =>
    simp only [Phrase.fits, Bool.and_eq_true] at hfits
    rw [tree_comma hfits.1.2]
    rfl
  | _ => rfl

def statementStep (g : Grammar) : List Node × Bool → Parser (List Node × Bool ⊕ List Node) :=
  fun (items, atHead) => do
    let c ← get
    if c.token.is "\x7d" || c.token == .finish then return .inr items
    let n ← g.statement false
    match (if atHead then directive? c n else none) with
    | some d => return .inl (items ++ [d], true)
    | none => return .inl (items ++ [n], false)

lemma statementStep_phrase (hassignment : ReadsItems g.assignment n) (hfits : e.fits = true)
    (hfloors : e.floors < n) (h : AllRead (e.chunks ++ [.finish gap])) :
    statementStep g.above ([], true) {} (cursor b (e.chunks ++ [.finish gap])) =
      some (.inl ([.node .expression (e.span b) [e.tree b]], false), cursor (b + e.size) [.finish gap]) := by
  have hclosing := Phrase.is_cursor_chunks hfits b [.finish gap] (s := "\x7d") (by decide) (by decide)
  have hfinish : ((cursor b (e.chunks ++ [.finish gap])).token == .finish) = false := by
    have hstarts := Phrase.startsPhrase_cursor hfits b [.finish gap]
    cases hc : (cursor b (e.chunks ++ [.finish gap])).token with
    | finish =>
      rw [hc] at hstarts
      cases hstarts
    | _ => rfl
  unfold statementStep
  dsimp only
  rw [run_bind, run_get, Option.bind_some]
  simp only [hclosing, hfinish, Bool.or_self, Bool.false_eq_true, if_false]
  rw [run_bind]
  refine (congrArg (Option.bind · _) (statement_phrase hassignment hfits hfloors h)).trans ?_
  simp only [Option.bind_some, directive?_phrase hfits]
  rfl

lemma statementList_phrase (hassignment : ReadsItems g.assignment n) (hfits : e.fits = true)
    (hfloors : e.floors < n) (h : AllRead (e.chunks ++ [.finish gap])) :
    statementList g.above true {} (cursor b (e.chunks ++ [.finish gap])) =
      some ([.node .expression (e.span b) [e.tree b]], cursor (b + e.size) [.finish gap]) := by
  have hlist : statementList g.above true {} (cursor b (e.chunks ++ [.finish gap])) =
      iterate (statementStep g.above) ((cursor b (e.chunks ++ [.finish gap])).rest.length + 2) ([], true) {}
        (cursor b (e.chunks ++ [.finish gap])) := rfl
  rw [hlist, run_iterate, statementStep_phrase hassignment hfits hfloors h]
  simp only [Option.bind_some]
  rw [run_iterate]
  rfl

end Parser

/-! ## The tower of grammars -/

/-- A grammar that reads the phrases with fewer floors than a number. -/
structure Grammar.Handles (g : Grammar) (n : Nat) : Prop where
  assignment : Parser.ReadsItems g.assignment n
  unary : Parser.ReadsUnary g.unary n
  binary : Parser.ReadsOperators g.binary n
  pattern : Parser.ReadsPatterns g.pattern

lemma Grammar.Handles.above {g : Grammar} {n : Nat} (h : g.Handles n) : g.above.Handles (n + 1) where
  assignment := Parser.readsItems_assignment h.assignment h.unary h.binary h.pattern
  unary := fun hfits htight hfloors hread hq =>
    Parser.unary_phrase h.assignment h.unary hfits htight (Nat.lt_succ_iff.1 hfloors) hread hq
  binary := fun hfits htight hfloors hread hq hpull hhold =>
    Parser.binary_phrase h.assignment h.unary h.binary hfits htight (Nat.lt_succ_iff.1 hfloors) hread hq hpull hhold
  pattern := Parser.readsPatterns_pattern

lemma Grammar.handles_tower : ∀ n : Nat, (tower n).Handles n
  | 0 => ⟨fun _ _ h => absurd h (Nat.not_lt_zero _), fun _ _ h => absurd h (Nat.not_lt_zero _),
      fun _ _ h => absurd h (Nat.not_lt_zero _), fun _ _ h => nomatch h⟩
  | n + 1 => (handles_tower n).above

/-! ## Whole scripts -/

namespace Phrase

lemma floors_le_size {e : Phrase} (hfits : e.fits = true) : e.floors ≤ e.size := by
  have hpos : ∀ s ∈ signOperators, 0 < s.toList.length := by decide
  have hplain : ∀ s ∈ plainOperators, 0 < s.toList.length := by decide
  have hassign : ∀ s ∈ assignmentOperators, 0 < s.toList.length := by decide
  have hstep : ∀ s ∈ stepOperators, 0 < s.toList.length := by decide
  induction e with
  | name gap x => exact Nat.zero_le _
  | numeral gap text bits => exact Nat.zero_le _
  | stepBehind gap x inside operator => exact Nat.zero_le _
  | paren gap inner behind ih =>
    have h := ih hfits
    rw [floors, size_paren]
    omega
  | call gap callee opening arguments behind ih =>
    simp only [fits, Bool.and_eq_true] at hfits
    have h := ih hfits.2
    rw [floors, size_call]
    omega
  | stepBefore gap operator inside x =>
    simp only [fits, Bool.and_eq_true, contains_iff_mem] at hfits
    have h := hstep operator hfits.1
    rw [floors, size_stepBefore]
    omega
  | sign gap operator operand ih =>
    simp only [fits, Bool.and_eq_true, contains_iff_mem] at hfits
    have h := ih hfits.1.2
    have hop := hpos operator hfits.1.1
    rw [floors, size_sign]
    omega
  | binary left gap operator right ihl ihr =>
    simp only [fits, Bool.and_eq_true, contains_iff_mem] at hfits
    obtain ⟨⟨⟨⟨⟨hop, hleft⟩, hright⟩, -⟩, -⟩, -⟩ := hfits
    have hl := ihl hleft
    have hr := ihr hright
    have hop := hplain operator hop
    rw [floors, size_binary]
    omega
  | assign gap x inside operator value ih =>
    simp only [fits, Bool.and_eq_true, contains_iff_mem] at hfits
    have h := ih hfits.1.2
    have hop := hassign operator hfits.1.1.2
    rw [floors, size_assign]
    omega
  | comma first gap rest ihf ihr =>
    simp only [fits, Bool.and_eq_true] at hfits
    have hf := ihf hfits.1.1
    have hr := ihr hfits.2
    rw [floors, size_comma]
    omega

lemma anyStrayDefault_append (ns ms : List Node) :
    Node.anyStrayDefault (ns ++ ms) = (Node.anyStrayDefault ns || Node.anyStrayDefault ms) := by
  induction ns with
  | nil => rfl
  | cons n ns ih => rw [cons_append, Node.anyStrayDefault, ih, Node.anyStrayDefault, Bool.or_assoc]

lemma hasStrayDefault_join (span : Span) (ns : List Node) : (join span ns).hasStrayDefault = Node.anyStrayDefault ns := by
  unfold join
  split
  · exact (Bool.or_false _).symm
  · rfl

lemma anyStrayDefault_trees (e : Phrase) (b : Nat) : Node.anyStrayDefault (e.trees b) = false := by
  have hname : ∀ (b : Nat) (gap : List Char) (x : String), (nameAt b gap x).hasStrayDefault = false := fun _ _ _ => rfl
  induction e generalizing b with
  | name gap x => rfl
  | numeral gap text bits => rfl
  | paren gap inner behind ih => simp [trees, Node.anyStrayDefault, Node.hasStrayDefault, hasStrayDefault_join, ih]
  | call gap callee opening arguments behind ih =>
    simp [trees, Node.anyStrayDefault, Node.hasStrayDefault, hname, ih]
  | stepBefore gap operator inside x => rfl
  | stepBehind gap x inside operator => rfl
  | sign gap operator operand ih => simp [trees, Node.anyStrayDefault, Node.hasStrayDefault, ih]
  | binary left gap operator right ihl ihr =>
    simp [trees, Node.anyStrayDefault, Node.hasStrayDefault, anyStrayDefault_append, ihl, ihr]
  | assign gap x inside operator value ih => simp [trees, Node.anyStrayDefault, Node.hasStrayDefault, hname, ih]
  | comma first gap rest ihf ihr => simp [trees, anyStrayDefault_append, ihf, ihr]

def program (e : Phrase) (behind : List Char) : Program where
  root := .node .program ⟨0, e.size + behind.length⟩ [.node .expression (e.span 0) [e.tree 0]]
  comments := []
  annotated := []

end Phrase

lemma parseProgram?_phrase {e : Phrase} {behind : List Char} {source : String} (hfits : e.fits = true)
    (hsource : source.toList = flat (e.chunks ++ [.finish behind])) (h : AllRead (e.chunks ++ [.finish behind])) :
    parseProgram? source = some (e.program behind) := by
  have hfloors : e.floors < 2 * source.length + 15 := by
    have hsize := Phrase.floors_le_size hfits
    rw [← String.length_toList, hsource, length_flat_append]
    unfold Phrase.size at hsize
    omega
  have hcursor : Cursor.ofSource source = cursor 0 (e.chunks ++ [.finish behind]) := by
    obtain ⟨p, ps, hp, -⟩ := e.exists_chunks_eq
    rw [hp] at h hsource ⊢
    exact cursor_ofSource h hsource
  have hlist := Parser.statementList_phrase (b := 0) (Grammar.handles_tower (2 * source.length + 15)).assignment hfits hfloors h
  have hhashbang : ((cursor 0 (e.chunks ++ [.finish behind])).token == .hashbang) = false := by
    have hstarts := Phrase.startsPhrase_cursor hfits 0 [.finish behind]
    cases hc : (cursor 0 (e.chunks ++ [.finish behind])).token with
    | hashbang =>
      rw [hc] at hstarts
      cases hstarts
    | _ => rfl
  have hprogram : Parser.program (Grammar.for source) {} (cursor 0 (e.chunks ++ [.finish behind])) =
      some ((e.program behind).root, cursor e.size [.finish behind]) := by
    unfold Parser.program
    rw [Parser.run_bind, Parser.run_get, Option.bind_some]
    simp only [hhashbang]
    refine (congrArg (Option.bind · _) hlist).trans ?_
    rw [Nat.zero_add]
    rfl
  have hrun : (Parser.program (Grammar.for source)).run? source = some (e.program behind) := by
    have hstray : (e.program behind).root.hasStrayDefault = false := by
      have htree : (e.tree 0).hasStrayDefault = false :=
        (Phrase.hasStrayDefault_join _ _).trans (Phrase.anyStrayDefault_trees e 0)
      simp [Phrase.program, Node.hasStrayDefault, Node.anyStrayDefault, htree]
    unfold Parser.run?
    rw [hcursor, show (ReaderT.run (Parser.program (Grammar.for source)) {}).run
      (cursor 0 (e.chunks ++ [.finish behind])) = _ from hprogram]
    simp only [hstray]
    rfl
  unfold parseProgram?
  rw [hrun]
  rfl

end Script
end ReactiveTemplate
