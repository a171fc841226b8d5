import ReactiveTemplate.Proofs.Reactive.Writes
/-!
# Refusal — interpolations that call a function with effects

The effects of a function are noted where a statement of the script declares it by name (`Script.Node.Exposes`).
-/
set_option linter.all false

namespace ReactiveTemplate
open List

open Script (Node Use UseKind)

namespace Script.Node

variable {n : Node} {x : String} {context : List String} {u : Use}

/-! ## Uses of names that a node does not bind -/

def called? (n : Node) : Option String :=
  match n.form with
  | .call _ => n.parts.head?.bind identifier?
  | _ => none

lemma called?_iff {f : String} : n.called? = some f ↔ n.form.useOf n.parts = some (.called, f) := by
  obtain ⟨form, span, parts⟩ := n
  unfold called? Form.useOf
  simp only [Node.form, Node.parts]
  cases form <;> cases parts <;> simp

def Reaches (use : Node → Option String) (n : Node) (x : String) : Prop :=
  ∃ path m, n.at? path = some m ∧ use m = some x ∧ n.isMisread x path = false ∧ n.isBound x path = false

def reachesAt (use : Node → Option String) (n : Node) (path : List Nat) (x : String) : Bool :=
  (n.at? path).any (fun m => use m == some x) && !n.isMisread x path && !n.isBound x path

lemma reaches_of_reachesAt {use : Node → Option String} {path : List Nat}
    (h : n.reachesAt use path x = true) : n.Reaches use x := by
  simp only [reachesAt, Bool.and_eq_true, Bool.not_eq_true', Option.any_eq_true, beq_iff_eq] at h
  obtain ⟨⟨⟨m, hm, huse⟩, hread⟩, hbound⟩ := h
  exact ⟨path, m, hm, huse, hread, hbound⟩

/-- Somewhere in a node a name is used in some way, and nothing in the node binds it there unless it is misread. -/
def Mentions (use : Node → Option String) (n : Node) (x : String) : Prop :=
  ∃ path m, n.at? path = some m ∧ use m = some x ∧ (n.isMisread x path = false → n.isBound x path = false)

lemma mem_contextUses_of_at {m : Node} {path : List Nat} {kind : UseKind}
    (hm : n.at? path = some m) (huse : m.form.useOf m.parts = some (kind, x)) (hread : n.isMisread x path = false)
    (hbound : n.isBound x path = false) :
    (⟨kind, x, reachOf context [] x, m.span⟩ : Use) ∈ n.contextUses context := by
  obtain ⟨seen, hseen, hany⟩ := any_seen_iff hm hread
  have hreach : reachOf context [] x = reachOf context (seen ++ []) x := by
    unfold reachOf
    rw [append_nil, hany, hbound]
    rfl
  have hplaced := (mem_placed n).2 (⟨m, seen, hm, hseen, huse, hreach, rfl⟩ :
    n.UsesAt context [] path ⟨kind, x, reachOf context [] x, m.span⟩)
  rw [contextUses, ← map_snd_placed]
  exact mem_map_of_mem hplaced

lemma seen_of_mem_contextUses (h : u ∈ n.contextUses context)
    (hreach : u.reach ≠ .inner) : ∃ path m seen, n.at? path = some m ∧ n.seen? path = some seen ∧
      m.form.useOf m.parts = some (u.kind, u.name) ∧ seen.any (·.contains u.name) = false := by
  rw [contextUses, ← map_snd_placed] at h
  obtain ⟨⟨path, _⟩, hplaced, rfl⟩ := mem_map.1 h
  obtain ⟨m, seen, hm, hseen, huse, heq, -⟩ := (mem_placed n).1 hplaced
  refine ⟨path, m, seen, hm, hseen, huse, ?_⟩
  by_contra hinner
  rw [Bool.not_eq_false] at hinner
  rw [heq, reachOf, append_nil, hinner] at hreach
  exact hreach rfl

lemma at_of_mem_contextUses (h : u ∈ n.contextUses context)
    (hreach : u.reach ≠ .inner) : ∃ path m, n.at? path = some m ∧ m.form.useOf m.parts = some (u.kind, u.name) ∧
      (n.isMisread u.name path = false → n.isBound u.name path = false) := by
  obtain ⟨path, m, seen, hm, hseen, huse, hfree⟩ := seen_of_mem_contextUses h hreach
  refine ⟨path, m, hm, huse, fun hread => ?_⟩
  obtain ⟨seen', hseen', hany⟩ := any_seen_iff hm hread
  obtain rfl : seen = seen' := Option.some.inj (hseen.symm.trans hseen')
  rw [← hany, hfree]

lemma mem_context_of_mem_contextUses (h : u ∈ n.contextUses context)
    (hreach : u.reach = .context) : u.name ∈ context := by
  rw [contextUses, ← map_snd_placed] at h
  obtain ⟨⟨path, _⟩, hplaced, rfl⟩ := mem_map.1 h
  obtain ⟨-, seen, -, -, -, heq, -⟩ := (mem_placed n).1 hplaced
  exact (Invalidation.reachOf_eq_context.1 (heq.symm.trans hreach)).2

lemma Reaches.exists_write (h : n.Reaches written? x) (context : List String) :
    ∃ u ∈ n.contextUses context, u.isWrite = true ∧ u.name = x ∧ u.reach = reachOf context [] x := by
  obtain ⟨path, m, hm, hwritten, hread, hbound⟩ := h
  obtain ⟨kind, huse⟩ := useOf_of_written? hwritten
  exact ⟨_, mem_contextUses_of_at hm huse hread hbound, (isWrite_iff_written? huse).2 hwritten, rfl, rfl⟩

lemma Reaches.exists_call {f : String} (h : n.Reaches called? f) (context : List String) :
    ∃ u ∈ n.contextUses context, u.kind = .called ∧ u.name = f ∧ u.reach = reachOf context [] f := by
  obtain ⟨path, m, hm, hcalled, hread, hbound⟩ := h
  exact ⟨_, mem_contextUses_of_at hm (called?_iff.1 hcalled) hread hbound, rfl, rfl, rfl⟩

lemma mentions_written (h : u ∈ n.contextUses context)
    (hwrite : u.isWrite = true) (hreach : u.reach ≠ .inner) : n.Mentions written? u.name := by
  obtain ⟨path, m, hm, huse, hbound⟩ := at_of_mem_contextUses h hreach
  exact ⟨path, m, hm, (isWrite_iff_written? huse).1 hwrite, hbound⟩

lemma mentions_called (h : u ∈ n.contextUses context)
    (hcalled : u.kind = .called) (hreach : u.reach ≠ .inner) : n.Mentions called? u.name := by
  obtain ⟨path, m, hm, huse, hbound⟩ := at_of_mem_contextUses h hreach
  rw [hcalled] at huse
  exact ⟨path, m, hm, called?_iff.2 huse, hbound⟩

/-! ## Functions that statements declare -/

def isFunction (n : Node) : Bool :=
  match n.form with
  | .arrow _ _ | .function _ _ _ => true
  | _ => false

inductive Declares (n : Node) (name : String) : Node → Prop
  | function {isExpression isAsync isGenerator : Bool} :
      n.form = .function isExpression isAsync isGenerator → name ∈ (n.part 0).boundNames → Declares n name n
  | initializer {declared : Declared} {d : Node} : n.form = .declaration declared → d ∈ n.parts →
      (d.part 0).binding? = some name → (d.part 1).isFunction = true → Declares n name (d.part 1)

def Exposes (n : Node) (name : String) (f : Node) : Prop :=
  n.Declares name f ∨ ∃ source, n.form = .exportNamed source ∧ (n.part 0).Declares name f

def ExposesIn (program : Node) (name : String) (f : Node) : Prop :=
  ∃ statement ∈ program.statements, statement.Exposes name f

/-- What a name stands for in a script: the function that the last statement to declare one gives it to. -/
def StandsFor (program : Node) (name : String) (f : Node) : Prop :=
  ∃ before statement after, program.statements = before ++ statement :: after ∧ statement.Exposes name f ∧
    (∀ f', statement.Exposes name f' → f' = f) ∧ ∀ later ∈ after, ∀ f', ¬ later.Exposes name f'

lemma mem_variableNames {d : Node} {name : String} (hd : d ∈ n.parts) (hname : (d.part 0).binding? = some name) :
    name ∈ n.variableNames := by
  refine mem_flatMap.2 ⟨d, hd, ?_⟩
  generalize d.part 0 = pattern at hname
  obtain ⟨form, span, parts⟩ := pattern
  unfold binding? at hname
  split at hname
  · rename_i hform
    cases hname
    obtain rfl : form = .binding name := hform
    exact mem_singleton_self name
  · cases hname

lemma mem_allHoistedNames {name : String} : ∀ {ns : List Node}, n ∈ ns → name ∈ n.hoistedNames →
    name ∈ allHoistedNames ns
  | m :: ns, hn, hname => by
    rw [allHoistedNames, mem_append]
    rcases mem_cons.1 hn with rfl | hn
    · exact .inl hname
    · exact .inr (mem_allHoistedNames hn hname)

end Script.Node

namespace Context

/-! ## What is noted -/

lemma mem_declaredFunctions {n f : Node} {name : String} : (name, f) ∈ declaredFunctions n ↔ n.Declares name f := by
  have hfunctionOf : ∀ d : Node, functionOf? d = some (name, f) ↔
      (d.part 1).isFunction = true ∧ (d.part 0).binding? = some name ∧ d.part 1 = f := by
    intro d
    unfold functionOf? Node.isFunction
    split <;> rename_i hform <;> simp [hform]
  unfold declaredFunctions
  constructor
  · intro h
    split at h
    · rename_i isExpression isAsync isGenerator hform
      obtain ⟨name', hname, heq⟩ := mem_map.1 h
      cases heq
      rw [Node.declaredName, hform] at hname
      exact .function hform hname
    · rename_i declared hform
      obtain ⟨d, hd, hfound⟩ := mem_filterMap.1 h
      obtain ⟨hfunction, hname, rfl⟩ := (hfunctionOf d).1 hfound
      exact .initializer hform hd hname hfunction
    · cases h
  · intro h
    cases h with
    | function hform hname =>
      rw [hform]
      refine mem_map.2 ⟨name, ?_, rfl⟩
      rw [Node.declaredName, hform]
      exact hname
    | initializer hform hd hname hfunction =>
      rw [hform]
      exact mem_filterMap.2 ⟨_, hd, (hfunctionOf _).2 ⟨hfunction, hname, rfl⟩⟩

lemma mem_functionsOf {n f : Node} {name : String} : (name, f) ∈ functionsOf n ↔ n.Exposes name f := by
  unfold functionsOf Node.Exposes
  split
  · rename_i source hform
    rw [mem_declaredFunctions]
    constructor
    · exact fun h => .inr ⟨source, hform, h⟩
    · rintro (h | ⟨-, -, h⟩)
      · cases h with
        | function h' => cases hform.symm.trans h'
        | initializer h' => cases hform.symm.trans h'
      · exact h
  · rename_i hform
    rw [mem_declaredFunctions]
    constructor
    · exact .inl
    · rintro (h | ⟨source, h, -⟩)
      · exact h
      · exact absurd h (hform source)

variable {injected : List String} {program : Node}

lemma mem_declared_of_exposes {statement f : Node} {name : String} (h : statement ∈ program.statements)
    (hexposes : statement.Exposes name f) : name ∈ (ofProgram injected program).declared := by
  have hscope : name ∈ Node.scopeNames program.statements := by
    rcases hexposes with hdeclares | ⟨source, hform, hdeclares⟩
    · cases hdeclares with
      | function hform hname =>
        refine mem_append_left _ (mem_flatMap.2 ⟨statement, h, ?_⟩)
        rw [Node.lexicalNamesOf, Node.declaredName, hform]
        exact hname
      | initializer hform hd hname hfunction =>
        rename_i declared d
        have hvariable := Node.mem_variableNames hd hname
        by_cases hhoisted : declared = .hoisted
        · refine mem_append_right _ (Node.mem_allHoistedNames h ?_)
          obtain ⟨form, span, parts⟩ := statement
          cases hform
          rw [Node.hoistedNames, if_pos hhoisted]
          exact hvariable
        · refine mem_append_left _ (mem_flatMap.2 ⟨statement, h, ?_⟩)
          rw [Node.lexicalNamesOf, hform]
          cases declared <;> first | exact absurd rfl hhoisted | exact hvariable
    · refine mem_append_left _ (mem_flatMap.2 ⟨statement, h, ?_⟩)
      rw [Node.lexicalNamesOf, hform]
      cases hdeclares with
      | function hform hname =>
        have hnames : (statement.part 0).exportedNames = ((statement.part 0).part 0).boundNames := by
          simp [Node.exportedNames, Node.declaredName, hform]
        rw [hnames]
        exact hname
      | initializer hform hd hname hfunction =>
        rw [Node.exportedNames, hform]
        exact Node.mem_variableNames hd hname
  exact mem_eraseDups.2 (mem_append_right _ hscope)

lemma find?_of_only {α : Type} {l : List α} {p : α → Bool} {a : α} (h : a ∈ l) (hp : p a = true)
    (honly : ∀ b ∈ l, p b = true → b = a) : l.find? p = some a := by
  cases hfind : l.find? p with
  | none => exact absurd hp (find?_eq_none.1 hfind a h)
  | some b => rw [honly b (mem_of_find?_eq_some hfind) (find?_some hfind)]

lemma effectsOf?_of_standsFor {f : Node} {name : String} (h : program.StandsFor name f) :
    (ofProgram injected program).effectsOf? name = some (Effects.ofNode (ofProgram injected program).declared f) := by
  obtain ⟨before, statement, after, hstatements, hexposes, honly, hlater⟩ := h
  let noted : String × Node → String × Effects := fun e => (e.1, Effects.ofNode (ofProgram injected program).declared e.2)
  have heffects : (ofProgram injected program).effects =
      (before.flatMap functionsOf).map noted ++ (functionsOf statement ++ after.flatMap functionsOf).map noted := by
    show (program.statements.flatMap functionsOf).map noted = _
    rw [hstatements, flatMap_append, flatMap_cons, map_append]
  have hlast : ((functionsOf statement ++ after.flatMap functionsOf).map noted).reverse.find? (fun e => e.1 == name) =
      some (noted (name, f)) := by
    refine find?_of_only ?_ (beq_self_eq_true name) ?_
    · exact mem_reverse.2 (mem_map_of_mem (mem_append_left _ (mem_functionsOf.2 hexposes)))
    · intro e he hname
      obtain ⟨⟨name', f'⟩, hmem, rfl⟩ := mem_map.1 (mem_reverse.1 he)
      obtain rfl : name' = name := beq_iff_eq.1 hname
      rcases mem_append.1 hmem with hmem | hmem
      · rw [honly f' (mem_functionsOf.1 hmem)]
      · obtain ⟨later, hmem', hf'⟩ := mem_flatMap.1 hmem
        exact absurd (mem_functionsOf.1 hf') (hlater later hmem' f')
  rw [effectsOf?, heffects, reverse_append, find?_append, hlast]
  rfl

lemma exposes_of_effectsOf? {name : String} {effects : Effects}
    (h : (ofProgram injected program).effectsOf? name = some effects) :
    ∃ f, program.ExposesIn name f ∧
      effects = Effects.ofNode (ofProgram injected program).declared f := by
  obtain ⟨⟨name', effects'⟩, hfind, rfl⟩ := Option.map_eq_some_iff.1 h
  have hname := find?_some hfind
  have hmem := mem_reverse.1 (mem_of_find?_eq_some hfind)
  obtain ⟨⟨name'', f⟩, hf, heq⟩ := mem_map.1 hmem
  cases heq
  obtain ⟨statement, hstatement, hf⟩ := mem_flatMap.1 hf
  rw [beq_iff_eq] at hname
  subst hname
  exact ⟨f, ⟨statement, hstatement, mem_functionsOf.1 hf⟩, rfl⟩

/-! ## What is refused -/

lemma exists_writtenBy? {f : Node} {name x : String} (h : program.StandsFor name f)
    (hx : x ∈ (ofProgram injected program).declared) (hwrites : f.Reaches Node.written? x) :
    ∃ y, (ofProgram injected program).writtenBy? name = some y := by
  obtain ⟨u, hu, hwrite, hname, hreach⟩ := hwrites.exists_write (ofProgram injected program).declared
  have hcontext : u.reach = .context := by
    rw [hreach]
    exact Invalidation.reachOf_eq_context.2 ⟨rfl, hx⟩
  have hmem : u.name ∈ (Effects.ofNode (ofProgram injected program).declared f).writes :=
    mem_map_of_mem (mem_filter.2 ⟨mem_filter.2 ⟨hu, beq_iff_eq.2 hcontext⟩, hwrite⟩)
  rw [writtenBy?, effectsOf?_of_standsFor h]
  exact Option.isSome_iff_exists.1 (isSome_head?.2 (ne_nil_of_mem hmem))

lemma exists_writtenThrough? {f g : Node} {name other x : String} (h : program.StandsFor name f)
    (hcalls : f.Reaches Node.called? other) (hother : program.StandsFor other g)
    (hx : x ∈ (ofProgram injected program).declared) (hwrites : g.Reaches Node.written? x) :
    ∃ y via, (ofProgram injected program).writtenThrough? name = some (y, via) := by
  cases hown : (ofProgram injected program).writtenBy? name with
  | some y => exact ⟨y, name, by rw [writtenThrough?, hown]⟩
  | none =>
    obtain ⟨y, hy⟩ := exists_writtenBy? hother hx hwrites
    obtain ⟨u, hu, hkind, hname, hreach⟩ := hcalls.exists_call (ofProgram injected program).declared
    have hcontext : u.reach = .context := by
      obtain ⟨before, statement, after, hstatements, hexposes, -⟩ := hother
      rw [hreach]
      exact Invalidation.reachOf_eq_context.2 ⟨rfl, mem_declared_of_exposes (by simp [hstatements]) hexposes⟩
    have hmem : other ∈ (Effects.ofNode (ofProgram injected program).declared f).calls :=
      hname ▸ mem_map_of_mem (mem_filter.2 ⟨mem_filter.2 ⟨hu, beq_iff_eq.2 hcontext⟩, beq_iff_eq.2 hkind⟩)
    rw [writtenThrough?, hown, effectsOf?_of_standsFor h]
    have hsome : ((Effects.ofNode (ofProgram injected program).declared f).calls.findSome? (fun inner =>
        ((ofProgram injected program).writtenBy? inner).map (fun written => (written, inner)))).isSome = true :=
      findSome?_isSome_iff.2 ⟨other, hmem, by rw [hy]; rfl⟩
    obtain ⟨⟨y', via⟩, hfound⟩ := Option.isSome_iff_exists.1 hsome
    exact ⟨y', via, hfound⟩

lemma refuseEffects_of_writtenThrough? {c : Context} (source : String) {e : Node} {name : String}
    (hcalls : e.Reaches Node.called? name) (h : ∃ y via, c.writtenThrough? name = some (y, via)) :
    ∃ y via, c.refuseEffects (Summary.ofNode source e) = .error (.sideEffect source y via) := by
  obtain ⟨u, hu, hkind, hname, hreach⟩ := hcalls.exists_call []
  have hmem : name ∈ (Summary.ofNode source e).calls := by
    refine mem_eraseDups.2 (hname ▸ mem_map_of_mem (mem_filter.2 ⟨hu, ?_⟩))
    rw [hkind, hreach]
    rfl
  unfold refuseEffects
  split
  · exact ⟨_, _, rfl⟩
  · have hsome : ((Summary.ofNode source e).calls.findSome? c.writtenThrough?).isSome = true := by
      obtain ⟨y, via, hfound⟩ := h
      exact findSome?_isSome_iff.2 ⟨name, hmem, by rw [hfound]; rfl⟩
    obtain ⟨⟨y, via⟩, hfound⟩ := Option.isSome_iff_exists.1 hsome
    rw [hfound]
    exact ⟨y, some via, rfl⟩

lemma mentions_of_writtenBy? {name x : String} (h : (ofProgram injected program).writtenBy? name = some x) :
    x ∈ (ofProgram injected program).declared ∧
      ∃ f, program.ExposesIn name f ∧ f.Mentions Node.written? x := by
  obtain ⟨effects, heffects, hhead⟩ := Option.bind_eq_some_iff.1 h
  obtain ⟨f, hexposes, rfl⟩ := exposes_of_effectsOf? heffects
  obtain ⟨u, hu, rfl⟩ := mem_map.1 (mem_of_head? hhead)
  obtain ⟨hu, hwrite⟩ := mem_filter.1 hu
  obtain ⟨hu, hcontext⟩ := mem_filter.1 hu
  rw [beq_iff_eq] at hcontext
  refine ⟨Node.mem_context_of_mem_contextUses hu hcontext, f, hexposes, Node.mentions_written hu hwrite ?_⟩
  rw [hcontext]
  exact nofun

lemma mentions_of_writtenThrough? {caller name x : String}
    (h : (ofProgram injected program).writtenThrough? caller = some (x, name)) :
    (ofProgram injected program).writtenBy? name = some x ∧ (name = caller ∨
      ∃ f, program.ExposesIn caller f ∧ f.Mentions Node.called? name) := by
  unfold writtenThrough? at h
  split at h
  · rename_i hown
    cases h
    exact ⟨hown, .inl rfl⟩
  · obtain ⟨inner, hmem, hinner⟩ := exists_of_findSome?_eq_some h
    obtain ⟨written, hwritten, heq⟩ := Option.map_eq_some_iff.1 hinner
    cases heq
    refine ⟨hwritten, .inr ?_⟩
    cases heffects : (ofProgram injected program).effectsOf? caller with
    | none =>
      rw [heffects] at hmem
      cases hmem
    | some effects =>
      rw [heffects] at hmem
      obtain ⟨f, hexposes, rfl⟩ := exposes_of_effectsOf? heffects
      obtain ⟨u, hu, rfl⟩ := mem_map.1 hmem
      obtain ⟨hu, hcalled⟩ := mem_filter.1 hu
      obtain ⟨hu, hcontext⟩ := mem_filter.1 hu
      rw [beq_iff_eq] at hcontext hcalled
      refine ⟨f, hexposes, Node.mentions_called hu hcalled ?_⟩
      rw [hcontext]
      exact nofun

lemma exists_use_of_mem_freeWrites {source : String} {e : Node} {x : String}
    (h : x ∈ (Summary.ofNode source e).freeWrites) :
    ∃ u ∈ e.contextUses [], u.isWrite = true ∧ u.reach ≠ .inner ∧ u.name = x := by
  obtain ⟨w, hw, rfl⟩ := mem_map.1 h
  obtain ⟨hw, hreach⟩ := mem_filter.1 hw
  obtain ⟨u, hu, rfl⟩ := mem_map.1 hw
  obtain ⟨hu, hwrite⟩ := mem_filter.1 hu
  exact ⟨u, hu, hwrite, bne_iff_ne.1 hreach, rfl⟩

lemma exists_use_of_mem_calls {source : String} {e : Node} {name : String} (h : name ∈ (Summary.ofNode source e).calls) :
    ∃ u ∈ e.contextUses [], u.kind = .called ∧ u.reach ≠ .inner ∧ u.name = name := by
  obtain ⟨u, hu, rfl⟩ := mem_map.1 (mem_eraseDups.1 h)
  obtain ⟨hu, hkind⟩ := mem_filter.1 hu
  rw [Bool.and_eq_true, beq_iff_eq, bne_iff_ne] at hkind
  exact ⟨u, hu, hkind.1, hkind.2, rfl⟩

lemma mem_declared {x : String} :
    x ∈ (ofProgram injected program).declared ↔ x ∈ injected ++ Node.scopeNames program.statements :=
  mem_eraseDups

/-- **Interpolations may not call functions that change the context.**  One that calls by name a function of the script is
refused if the function changes by name a variable of the context, or calls by name another one that does; nothing that is
called or changed may be misread.  And whatever is refused changes by name a variable of the context: the interpolation
itself does, or a function that it calls, or one that such a function calls. -/
theorem refuseEffects_calls (injected : List String) (program : Node) (source : String) (e : Node) :
    (∀ name f, e.Reaches Node.called? name → program.StandsFor name f →
      ((∃ x ∈ injected ++ Node.scopeNames program.statements, f.Reaches Node.written? x) ∨
        ∃ other g, f.Reaches Node.called? other ∧ program.StandsFor other g ∧
          ∃ x ∈ injected ++ Node.scopeNames program.statements, g.Reaches Node.written? x) →
      ∃ fault, (ofProgram injected program).refuseEffects (Summary.ofNode source e) = .error fault ∧
        fault.code = "js:interpolation:sideeffect") ∧
    ∀ fault, (ofProgram injected program).refuseEffects (Summary.ofNode source e) = .error fault →
      ∃ x ∈ injected ++ Node.scopeNames program.statements, ∃ via, fault = .sideEffect source x via ∧
        match via with
        | none => e.Mentions Node.written? x
        | some name => ∃ f, program.ExposesIn name f ∧ f.Mentions Node.written? x ∧
            (e.Mentions Node.called? name ∨
              ∃ caller g, e.Mentions Node.called? caller ∧ program.ExposesIn caller g ∧ g.Mentions Node.called? name) := by
  constructor
  · intro name f hcalls hname hwrites
    have hthrough : ∃ y via, (ofProgram injected program).writtenThrough? name = some (y, via) := by
      rcases hwrites with ⟨x, hx, hwrites⟩ | ⟨other, g, hother, hg, x, hx, hwrites⟩
      · obtain ⟨y, hy⟩ := exists_writtenBy? hname (mem_declared.2 hx) hwrites
        exact ⟨y, name, by rw [writtenThrough?, hy]⟩
      · exact exists_writtenThrough? hname hother hg (mem_declared.2 hx) hwrites
    obtain ⟨y, via, hrefused⟩ := refuseEffects_of_writtenThrough? source hcalls hthrough
    exact ⟨_, hrefused, rfl⟩
  · intro fault h
    unfold refuseEffects at h
    split at h
    · rename_i x hfind
      cases h
      have hdeclared := List.contains_iff_mem.1 (find?_some hfind)
      obtain ⟨u, hu, hwrite, hreach, rfl⟩ := exists_use_of_mem_freeWrites (mem_of_find?_eq_some hfind)
      exact ⟨_, mem_declared.1 hdeclared, none, rfl, Node.mentions_written hu hwrite hreach⟩
    · split at h
      · rename_i x name hfound
        cases h
        obtain ⟨caller, hcaller, hthrough⟩ := exists_of_findSome?_eq_some hfound
        obtain ⟨hwritten, hcalled⟩ := mentions_of_writtenThrough? hthrough
        obtain ⟨hdeclared, f, hexposes, hwrites⟩ := mentions_of_writtenBy? hwritten
        refine ⟨x, mem_declared.1 hdeclared, some name, rfl, f, hexposes, hwrites, ?_⟩
        obtain ⟨u, hu, hkind, hreach, rfl⟩ := exists_use_of_mem_calls hcaller
        have hmentions := Node.mentions_called hu hkind hreach
        rcases hcalled with rfl | ⟨g, hg, hcalls⟩
        · exact .inl hmentions
        · exact .inr ⟨u.name, g, hmentions, hg, hcalls⟩
      · cases h

namespace Sample

def script : String := "let n = 0; export const inc = () => \x7b n++ \x7d; function twice() \x7b inc() \x7d"

def call : String := "1 + twice()"

/-- Two statements that declare one function each: the first changes `n`, the second calls the first, and an expression
calls the second. -/
def isCulprit (statements : List Node) (e : Node) : Bool :=
  match statements with
  | [_, first, second] =>
    match functionsOf first, functionsOf second with
    | [(inc, f)], [(twice, g)] =>
      inc == "inc" && twice == "twice" && f.reachesAt Node.written? [1, 0, 0] "n" &&
        g.reachesAt Node.called? [2, 0, 0] "inc" && e.reachesAt Node.called? [1] "twice"
    | _, _ => false
  | _ => false

end Sample

/-- An interpolation that is refused for what is changed two calls away. -/
theorem refuseEffects_calls_twice : ∃ program e fault, Script.parseProgram? Sample.script = some program ∧
    Script.parseExpression? Sample.call = some e ∧
    (ofProgram [] program.root).refuseEffects (Summary.ofNode Sample.call e) = .error fault ∧
    fault.code = "js:interpolation:sideeffect" := by
  have h : (Script.parseProgram? Sample.script).any (fun program => (Script.parseExpression? Sample.call).any (fun e =>
      Sample.isCulprit program.root.statements e && (Node.scopeNames program.root.statements).contains "n")) = true := by
    rw [Script.parseProgram?_eq_ofChars Sample.script String.toList_ofList]
    decide +kernel
  obtain ⟨program, hprogram, h⟩ := (Option.any_eq_true _ _).1 h
  obtain ⟨e, he, h⟩ := (Option.any_eq_true _ _).1 h
  rw [Bool.and_eq_true, contains_iff_mem] at h
  obtain ⟨hculprit, hn⟩ := h
  unfold Sample.isCulprit at hculprit
  split at hculprit
  · rename_i start first second hstatements
    split at hculprit
    · rename_i inc f twice g hfirst hsecond
      simp only [Bool.and_eq_true, beq_iff_eq] at hculprit
      obtain ⟨⟨⟨⟨rfl, rfl⟩, hf⟩, hg⟩, he'⟩ := hculprit
      have honly : ∀ {n f f' : Node} {name name' : String}, functionsOf n = [(name, f)] → n.Exposes name' f' →
          name' = name ∧ f' = f := by
        intro n f f' name name' hn hexposes
        have hmem := mem_functionsOf.2 hexposes
        rw [hn, mem_singleton] at hmem
        exact ⟨congrArg Prod.fst hmem, congrArg Prod.snd hmem⟩
      have hinc : program.root.StandsFor "inc" f := by
        refine ⟨[start], first, [second], hstatements, mem_functionsOf.1 (by simp [hfirst]), ?_, ?_⟩
        · exact fun f' hf' => (honly hfirst hf').2
        · intro later hlater f' hf'
          rw [List.mem_singleton.1 hlater] at hf'
          exact absurd (honly hsecond hf').1 (by decide)
      have htwice : program.root.StandsFor "twice" g :=
        ⟨[start, first], second, [], hstatements, mem_functionsOf.1 (by simp [hsecond]),
          fun f' hf' => (honly hsecond hf').2, nofun⟩
      obtain ⟨fault, hrefused, hcode⟩ := (refuseEffects_calls [] program.root Sample.call e).1 "twice" g
        (Node.reaches_of_reachesAt he') htwice
        (.inr ⟨"inc", f, Node.reaches_of_reachesAt hg, hinc, "n", hn, Node.reaches_of_reachesAt hf⟩)
      exact ⟨program, e, fault, hprogram, he, hrefused, hcode⟩
    · cases hculprit
  · cases hculprit

/-- Scripts with a function `inc` that changes `n`, and the path of the function: exported as `default`, or in
parentheses. -/
def Sample.unnoted : List (String × List Nat) :=
  [("let n = 0; export default function inc() \x7b n++ \x7d", [1, 0]),
   ("let n = 0; const inc = (() => \x7b n++ \x7d)", [1, 0, 1, 0])]

/-- The function of a script at a path changes a variable of the context, and an interpolation that calls it is not
refused. -/
def Sample.IsUnnoted (entry : String × List Nat) : Prop :=
  ∃ program f e, Script.parseProgram? entry.1 = some program ∧
    Node.scopeNames program.root.statements = ["n", "inc"] ∧ program.root.at? entry.2 = some f ∧ f.isFunction = true ∧
    f.Reaches Node.written? "n" ∧ Script.parseExpression? "inc()" = some e ∧ e.Reaches Node.called? "inc" ∧
    (ofProgram [] program.root).refuseEffects (Summary.ofNode "inc()" e) = .ok ()

/-- A function that is exported as `default`, or that stands in parentheses, is not noted. -/
theorem refuseEffects_unnoted : Sample.unnoted.Forall Sample.IsUnnoted := by
  have h : Sample.unnoted.all (fun entry => (Script.parseProgram? entry.1).any (fun program =>
      (program.root.at? entry.2).any (fun f => (Script.parseExpression? "inc()").any (fun e =>
        decide (Node.scopeNames program.root.statements = ["n", "inc"]) && f.isFunction &&
          (f.reachesAt Node.written? [1, 0, 0] "n" || f.reachesAt Node.written? [2, 0, 0] "n") &&
          e.reachesAt Node.called? [] "inc" &&
          ((ofProgram [] program.root).refuseEffects (Summary.ofNode "inc()" e)).toOption.isSome)))) = true := by
    decide +kernel
  refine List.forall_iff_forall_mem.2 (fun entry hentry => ?_)
  obtain ⟨program, hprogram, h⟩ := (Option.any_eq_true _ _).1 (List.all_eq_true.1 h entry hentry)
  obtain ⟨f, hf, h⟩ := (Option.any_eq_true _ _).1 h
  obtain ⟨e, he, h⟩ := (Option.any_eq_true _ _).1 h
  simp only [Bool.and_eq_true, Bool.or_eq_true, decide_eq_true_eq] at h
  obtain ⟨⟨⟨⟨hnames, hfunction⟩, hwrites⟩, hcalls⟩, haccepted⟩ := h
  refine ⟨program, f, e, hprogram, hnames, hf, hfunction, ?_, he, Node.reaches_of_reachesAt hcalls, ?_⟩
  · rcases hwrites with hwrites | hwrites <;> exact Node.reaches_of_reachesAt hwrites
  · cases hresult : (ofProgram [] program.root).refuseEffects (Summary.ofNode "inc()" e) with
    | ok _ => rfl
    | error fault =>
      rw [hresult] at haccepted
      cases haccepted

end Context
end ReactiveTemplate
