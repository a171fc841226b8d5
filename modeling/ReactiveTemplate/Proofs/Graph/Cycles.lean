import Mathlib.Data.List.Chain
import Mathlib.Data.List.Perm.Subperm
import Mathlib.Logic.Relation
import ReactiveTemplate.Proofs.Graph.Merging
import ReactiveTemplate.Proofs.Results
/-!
# Cycles — what the search for cycles finds

The search walks from each name to what depends on it.
-/
set_option linter.all false

namespace ReactiveTemplate.Graph
open List

variable {x y : String}

def Acyclic (g : Graph) : Prop := ∀ x, ¬ Relation.TransGen g.Needs x x

def Leads (g : Graph) (x y : String) : Prop := y ∈ g.dependents x

def Route (g : Graph) (start finish : String) (path : List String) : Prop :=
  ∃ way, path = start :: (way ++ [finish]) ∧ path.IsChain g.Leads

def Genuine (g : Graph) : Fault → Prop
  | .cycle start finish path back =>
    start = finish ∧ g.Leads start start ∧ path = [start] ∧ back = [start] ∨
      start ≠ finish ∧ g.Route start finish path ∧ g.Route finish start back
  | _ => False

variable {g : Graph}

lemma depends_of_leads {input : List GraphNode} (h : (build input).Leads x y) : Depends input y x :=
  needs_build.1 ((mem_dependents (nodup_names_build input)).1 h)

lemma transGen_needs (hg : g.WellFormed) (h : Relation.TransGen g.Leads x y) :
    Relation.TransGen g.Needs y x := by
  induction h with
  | single hxy => exact .single ((mem_dependents hg.nodup).1 hxy)
  | tail _ hyz ih => exact .head ((mem_dependents hg.nodup).1 hyz) ih

lemma transGen_leads (hg : g.WellFormed) (h : Relation.TransGen g.Needs x y) :
    Relation.TransGen g.Leads y x := by
  induction h with
  | single hxy => exact .single ((mem_dependents hg.nodup).2 hxy)
  | tail _ hyz ih => exact .head ((mem_dependents hg.nodup).2 hyz) ih

lemma Route.transGen {start finish : String} {path : List String} (h : g.Route start finish path) :
    Relation.TransGen g.Leads start finish := by
  obtain ⟨way, rfl, hchain⟩ := h
  induction way generalizing start with
  | nil => exact .single (isChain_pair.1 hchain)
  | cons next way ih =>
    obtain ⟨hfirst, hrest⟩ := isChain_cons_cons.1 hchain
    exact .head hfirst (ih hrest)

lemma Genuine.not_acyclic {e : Fault} (hg : g.WellFormed) (h : g.Genuine e) : ¬ g.Acyclic := by
  cases e with
  | cycle start finish path back =>
    rcases h with ⟨-, hself, -, -⟩ | ⟨-, hpath, hback⟩
    · exact fun hacyclic => hacyclic start (transGen_needs hg (.single hself))
    · exact fun hacyclic => hacyclic start (transGen_needs hg (hpath.transGen.trans hback.transGen))
  | _ => cases h

/-! ## The paths -/

namespace Paths

variable {known : Paths}

def ends (known : Paths) : List (String × String) := map (·.1) known

def Sound (g : Graph) (known : Paths) : Prop := ∀ entry ∈ known, g.Route entry.1.1 entry.1.2 entry.2

variable {finish start : String} {path : List String}

lemma mem_of_find? (h : known.find? start finish = some path) : ((start, finish), path) ∈ known := by
  obtain ⟨entry, hfind, rfl⟩ := Option.map_eq_some_iff.1 h
  have hkey : entry.1 = (start, finish) := by simpa using find?_some hfind
  rw [← hkey]
  exact mem_of_find?_eq_some hfind

lemma find?_eq_none : known.find? start finish = none ↔ (start, finish) ∉ known.ends := by
  rw [find?, Option.map_eq_none_iff, List.find?_eq_none, ends, mem_map]
  constructor
  · rintro h ⟨entry, hentry, hkey⟩
    exact h entry hentry (by simpa using hkey)
  · intro h entry hentry hkey
    exact h ⟨entry, hentry, by simpa using hkey⟩

lemma mem_ends_of_find? (h : known.find? start finish = some path) :
    (start, finish) ∈ known.ends := mem_map_of_mem (mem_of_find? h)

lemma mem_ends_note {k : String × String} :
    k ∈ (known.note start finish path).ends ↔ k = (start, finish) ∨ k ∈ known.ends := by
  unfold note
  split
  · rename_i existing hfind
    have habsorb : k ∈ known.ends ↔ k = (start, finish) ∨ k ∈ known.ends :=
      ⟨.inr, fun h => h.elim (fun hk => hk ▸ mem_ends_of_find? hfind) id⟩
    split
    · exact habsorb
    · have hkeys : map ((·.1) ∘ fun entry : (String × String) × List String =>
          if entry.1 == (start, finish) then (entry.1, path) else entry) known = known.ends := by
        refine map_congr_left fun entry _ => ?_
        simp only [Function.comp_apply]
        split <;> rfl
      rw [ends, map_map, hkeys]
      exact habsorb
  · simp [ends, or_comm]

lemma Sound.note (h : known.Sound g) (hpath : g.Route start finish path) :
    (known.note start finish path).Sound g := by
  unfold Paths.note
  split
  · split
    · exact h
    · intro entry hentry
      obtain ⟨old, hold, rfl⟩ := mem_map.1 hentry
      split
      · rename_i hkey
        rw [show old.1 = (start, finish) from by simpa using hkey]
        exact hpath
      · exact h old hold
  · intro entry hentry
    rcases mem_append.1 hentry with hold | hnew
    · exact h entry hold
    · rw [mem_singleton.1 hnew]
      exact hpath

lemma mem_ends_record {way : List String} {k : String × String} :
    k ∈ (known.record way finish).ends ↔ k ∈ known.ends ∨ ∃ x ∈ way, k = (x, finish) := by
  induction way generalizing known with
  | nil => simp [record]
  | cons start way ih => rw [record, ih, mem_ends_note]; grind

lemma Sound.record {way : List String} {finish : String} (h : known.Sound g)
    (hchain : (way ++ [finish]).IsChain g.Leads) : (known.record way finish).Sound g := by
  induction way generalizing known with
  | nil => exact h
  | cons start way ih => exact ih (h.note ⟨way, rfl, hchain⟩) hchain.tail

lemma Sound.route_getD (h : known.Sound g) (hedge : g.Leads start finish) :
    g.Route start finish ((known.find? start finish).getD [start, finish]) := by
  cases hfind : known.find? start finish with
  | none => exact ⟨[], rfl, isChain_pair.2 hedge⟩
  | some path => exact h _ (mem_of_find? hfind)

end Paths

/-! ## One edge of a walk -/

def follow (g : Graph) (fuel : Nat) (way : List String) (current : String) (s : Search) (next : String) :
    Except Fault Search :=
  if next == current then .error (.cycle current current [current] [current])
  else
    match s.known.find? next current with
    | some back => .error (.cycle next current back ((s.known.find? current next).getD [current, next]))
    | none =>
      if s.seen.contains next then .ok ⟨s.known.record (way ++ [current]) next, s.seen⟩
      else walk g fuel (way ++ [current]) next ⟨s.known.record (way ++ [current]) next, s.seen ++ [next]⟩

lemma walk_succ (fuel : Nat) (way : List String) (current : String) (s : Search) :
    walk g (fuel + 1) way current s = (g.dependents current).foldlM (follow g fuel way current) s := rfl

variable {fuel : Nat} {way : List String} {current next : String} {s s' : Search} {e : Fault}

lemma follow_eq_ok : follow g fuel way current s next = .ok s' ↔
    next ≠ current ∧ (next, current) ∉ s.known.ends ∧
      (next ∈ s.seen ∧ s' = ⟨s.known.record (way ++ [current]) next, s.seen⟩ ∨
        next ∉ s.seen ∧
          walk g fuel (way ++ [current]) next ⟨s.known.record (way ++ [current]) next, s.seen ++ [next]⟩ = .ok s') := by
  unfold follow
  split
  · rename_i hself
    simp [beq_iff_eq.1 hself]
  · rename_i hself
    split
    · rename_i back hfind
      simp [Paths.mem_ends_of_find? hfind]
    · rename_i hfind
      have hne : next ≠ current := fun heq => hself (beq_iff_eq.2 heq)
      have hnew := Paths.find?_eq_none.1 hfind
      split
      · rename_i hseen
        have hmem : next ∈ s.seen := by simpa using hseen
        simp [hne, hnew, hmem, eq_comm]
      · rename_i hseen
        have hmem : next ∉ s.seen := by simpa using hseen
        simp [hne, hnew, hmem]

lemma follow_eq_error (h : follow g fuel way current s next = .error e) :
    next = current ∧ e = .cycle current current [current] [current] ∨
      (next ≠ current ∧ ∃ back, s.known.find? next current = some back ∧
        e = .cycle next current back ((s.known.find? current next).getD [current, next])) ∨
      walk g fuel (way ++ [current]) next ⟨s.known.record (way ++ [current]) next, s.seen ++ [next]⟩ = .error e := by
  unfold follow at h
  split at h
  · rename_i hself
    cases h
    exact .inl ⟨beq_iff_eq.1 hself, rfl⟩
  · rename_i hself
    split at h
    · rename_i back hfind
      cases h
      exact .inr (.inl ⟨fun heq => hself (beq_iff_eq.2 heq), back, hfind, rfl⟩)
    · split at h
      · cases h
      · exact .inr (.inr h)

/-! ## Runs over several names -/

section

variable {α σ ε : Type} {f : σ → α → Except ε σ} {P : σ → Prop} {xs : List α} {a b : σ}

lemma foldlM_ok (hstep : ∀ x ∈ xs, ∀ a b, P a → f a x = .ok b → P b) (ha : P a)
    (h : xs.foldlM f a = .ok b) : P b := by
  induction xs generalizing a with
  | nil =>
    cases h
    exact ha
  | cons x xs ih =>
    obtain ⟨c, hx, h⟩ := exists_ok_of_bind h
    exact ih (fun y hy => hstep y (.tail _ hy)) (hstep x (.head _) a c ha hx) h

lemma foldlM_each {Q : α → σ → Prop} (hstep : ∀ x ∈ xs, ∀ a b, P a → f a x = .ok b → P b ∧ Q x b)
    (hkeep : ∀ x ∈ xs, ∀ a b, P a → f a x = .ok b → ∀ y, Q y a → Q y b) (ha : P a) (h : xs.foldlM f a = .ok b) :
    P b ∧ ∀ x ∈ xs, Q x b := by
  induction xs generalizing a with
  | nil =>
    cases h
    exact ⟨ha, fun x hx => by cases hx⟩
  | cons x xs ih =>
    obtain ⟨c, hx, h⟩ := exists_ok_of_bind h
    obtain ⟨hc, hcx⟩ := hstep x (.head _) a c ha hx
    obtain ⟨hb, hrest⟩ := ih (fun y hy => hstep y (.tail _ hy))
      (fun y hy => hkeep y (.tail _ hy)) hc h
    have hbx : Q x b := foldlM_ok (P := fun d => P d ∧ Q x d)
      (fun y hy d d' hd hy' => ⟨(hstep y (.tail _ hy) d d' hd.1 hy').1,
        hkeep y (.tail _ hy) d d' hd.1 hy' x hd.2⟩) ⟨hc, hcx⟩ h |>.2
    exact ⟨hb, forall_mem_cons.2 ⟨hbx, hrest⟩⟩

lemma foldlM_error {e : ε} (hstep : ∀ x ∈ xs, ∀ a b, P a → f a x = .ok b → P b) (ha : P a)
    (h : xs.foldlM f a = .error e) : ∃ x ∈ xs, ∃ c, P c ∧ f c x = .error e := by
  induction xs generalizing a with
  | nil => cases h
  | cons x xs ih =>
    rw [foldlM_cons] at h
    cases hx : f a x with
    | error d =>
      rw [hx] at h
      cases h
      exact ⟨x, mem_cons_self, a, ha, hx⟩
    | ok c =>
      rw [hx] at h
      obtain ⟨y, hy, hfail⟩ := ih (fun y hy => hstep y (.tail _ hy)) (hstep x (.head _) a c ha hx) h
      exact ⟨y, mem_cons_of_mem _ hy, hfail⟩

lemma exists_step_of_foldlM (h : xs.foldlM f a = .ok b) {x : α} (hx : x ∈ xs) : ∃ c d, f c x = .ok d := by
  induction xs generalizing a with
  | nil => cases hx
  | cons y xs ih =>
    obtain ⟨c, hy, h⟩ := exists_ok_of_bind h
    rcases mem_cons.1 hx with rfl | hx
    · exact ⟨a, c, hy⟩
    · exact ih h hx

end

/-! ## A reported cycle is one -/

lemma sound_walk (hchain : (way ++ [current]).IsChain g.Leads) (hs : s.known.Sound g) :
    (∀ s', walk g fuel way current s = .ok s' → s'.known.Sound g) ∧
      ∀ e, walk g fuel way current s = .error e → g.Genuine e := by
  induction fuel generalizing way current s with
  | zero => exact ⟨fun s' h => by cases h; exact hs, fun e h => by cases h⟩
  | succ fuel ih =>
    rw [walk_succ]
    have hextend : ∀ {next}, g.Leads current next → (way ++ [current] ++ [next]).IsChain g.Leads := by
      intro next hnext
      exact isChain_append.2 ⟨hchain, isChain_singleton _, by simpa using hnext⟩
    have hstep : ∀ next ∈ g.dependents current, ∀ a b : Search, a.known.Sound g →
        follow g fuel way current a next = .ok b → b.known.Sound g := by
      intro next hnext a b ha h
      obtain ⟨-, -, ⟨-, rfl⟩ | ⟨-, hwalk⟩⟩ := follow_eq_ok.1 h
      · exact ha.record (hextend hnext)
      · exact (ih (hextend hnext) (ha.record (hextend hnext))).1 b hwalk
    refine ⟨fun s' h => foldlM_ok (P := fun a : Search => a.known.Sound g) hstep hs h, fun e h => ?_⟩
    obtain ⟨next, hnext, a, ha, hfail⟩ := foldlM_error hstep hs h
    rcases follow_eq_error hfail with ⟨rfl, rfl⟩ | ⟨hne, back, hback, rfl⟩ | hwalk
    · exact .inl ⟨rfl, hnext, rfl, rfl⟩
    · exact .inr ⟨hne, ha _ (Paths.mem_of_find? hback), ha.route_getD hnext⟩
    · exact (ih (hextend hnext) (ha.record (hextend hnext))).2 e hwalk

lemma genuine_of_checkAcyclic (h : g.checkAcyclic = .error e) : g.Genuine e := by
  have hroot : ∀ name known, Paths.Sound g known →
      (∀ s', walk g (g.vertices.length + 1) [] name ⟨known, [name]⟩ = .ok s' → s'.known.Sound g) ∧
        ∀ e, walk g (g.vertices.length + 1) [] name ⟨known, [name]⟩ = .error e → g.Genuine e :=
    fun name known hknown => sound_walk (isChain_singleton _) hknown
  obtain ⟨name, -, known, hknown, hfail⟩ := foldlM_error (P := Paths.Sound g) (fun name _ known known' hknown hmap => by
    cases hwalk : walk g (g.vertices.length + 1) [] name ⟨known, [name]⟩ with
    | error e => simp [hwalk, Except.map] at hmap
    | ok s' =>
      rw [hwalk] at hmap
      cases hmap
      exact (hroot name known hknown).1 s' hwalk) (fun _ hentry => by cases hentry) h
  cases hwalk : walk g (g.vertices.length + 1) [] name ⟨known, [name]⟩ with
  | ok s' => simp [hwalk, Except.map] at hfail
  | error e' =>
    rw [hwalk] at hfail
    cases hfail
    exact (hroot name known hknown).2 _ hwalk

/-! ## No cycle is missed -/

/-- What a part of the walks from one name adds: names that lead on to names met, never back to the first. -/
structure Explores (g : Graph) (root : String) (s s' : Search) : Prop where
  ends : s.known.ends ⊆ s'.known.ends
  seen : s.seen ⊆ s'.seen
  nodup : s'.seen.Nodup
  subset : s'.seen ⊆ g.names
  closed : ∀ x ∈ s'.seen, x ∉ s.seen → ∀ y, g.Leads x y → y ∈ s'.seen ∧ y ≠ root

namespace Explores

variable {root : String} {s₁ s₂ s₃ : Search}

lemma refl (hnodup : s.seen.Nodup) (hsubset : s.seen ⊆ g.names) : Explores g root s s :=
  ⟨fun _ h => h, fun _ h => h, hnodup, hsubset, fun _ h hnot => absurd h hnot⟩

lemma trans (h₁ : Explores g root s₁ s₂) (h₂ : Explores g root s₂ s₃) : Explores g root s₁ s₃ where
  ends := fun _ h => h₂.ends (h₁.ends h)
  seen := fun _ h => h₂.seen (h₁.seen h)
  nodup := h₂.nodup
  subset := h₂.subset
  closed x hx hnot y hy := by
    by_cases hmid : x ∈ s₂.seen
    · obtain ⟨hseen, hne⟩ := h₁.closed x hmid hnot y hy
      exact ⟨h₂.seen hseen, hne⟩
    · exact h₂.closed x hx hmid y hy

lemma length_le (h : Explores g root s s') (hnodup : s.seen.Nodup) : s.seen.length ≤ s'.seen.length :=
  (subperm_of_subset hnodup h.seen).length_le

end Explores

/-- Where a walk stands: its first name leads to the current one, and the bound is large enough for the names that are
left. -/
structure Stands (g : Graph) (root : String) (fuel : Nat) (way : List String) (current : String) (s : Search) :
    Prop where
  root_mem : root ∈ way ++ [current]
  reached : current = root ∨ (root, current) ∈ s.known.ends
  current_mem : current ∈ s.seen
  nodup : s.seen.Nodup
  subset : s.seen ⊆ g.names
  bound : g.vertices.length < fuel + s.seen.length

namespace Stands

variable {root : String}

lemma fuel_ne_zero (h : Stands g root fuel way current s) : fuel ≠ 0 := by
  have hle := (subperm_of_subset h.nodup h.subset).length_le
  rw [names, length_map] at hle
  have := h.bound
  omega

lemma mono (h : Stands g root fuel way current s) (hs : Explores g root s s') :
    Stands g root fuel way current s' where
  root_mem := h.root_mem
  reached := h.reached.imp_right (fun hr => hs.ends hr)
  current_mem := hs.seen h.current_mem
  nodup := hs.nodup
  subset := hs.subset
  bound := by
    have := hs.length_le h.nodup
    have := h.bound
    omega

lemma step (h : Stands g root (fuel + 1) way current s) (hnext : next ∈ g.names) (hnew : next ∉ s.seen) :
    Stands g root fuel (way ++ [current]) next ⟨s.known.record (way ++ [current]) next, s.seen ++ [next]⟩ where
  root_mem := mem_append_left _ h.root_mem
  reached := .inr (Paths.mem_ends_record.2 (.inr ⟨root, h.root_mem, rfl⟩))
  current_mem := mem_append_right _ (.head _)
  nodup := by simpa using List.Nodup.concat hnew h.nodup
  subset := append_subset.2 ⟨h.subset, cons_subset.2 ⟨hnext, nil_subset _⟩⟩
  bound := by
    have := h.bound
    rw [length_append, length_singleton]
    omega

lemma ne_root (h : Stands g root fuel way current s) (hself : next ≠ current) (hnew : (next, current) ∉ s.known.ends) :
    next ≠ root := by
  rintro rfl
  rcases h.reached with heq | hmem
  · exact hself heq.symm
  · exact hnew hmem

end Stands

lemma explores_walk (hg : g.WellFormed) {root : String} (hs : Stands g root fuel way current s)
    (h : walk g fuel way current s = .ok s') :
    Explores g root s s' ∧ ∀ y, g.Leads current y → y ∈ s'.seen ∧ y ≠ root := by
  induction fuel generalizing way current s s' with
  | zero => exact absurd rfl hs.fuel_ne_zero
  | succ fuel ih =>
    have hstep : ∀ next ∈ g.dependents current, ∀ a b : Search, Explores g root s a →
        follow g fuel way current a next = .ok b → Explores g root a b ∧ next ∈ b.seen ∧ next ≠ root := by
      intro next hnext a b ha hfollow
      obtain ⟨hself, hnew, hcase⟩ := follow_eq_ok.1 hfollow
      have hne := (hs.mono ha).ne_root hself hnew
      have hends : a.known.ends ⊆ (a.known.record (way ++ [current]) next).ends :=
        fun k hk => Paths.mem_ends_record.2 (.inl hk)
      rcases hcase with ⟨hseen, rfl⟩ | ⟨hseen, hwalk⟩
      · exact ⟨⟨hends, fun _ hx => hx, ha.nodup, ha.subset, fun x hx hnot => absurd hx hnot⟩, hseen, hne⟩
      · have hnames : next ∈ g.names := (hg.mem_names ((mem_dependents hg.nodup).1 hnext)).1
        obtain ⟨hexplores, hclosed⟩ := ih ((hs.mono ha).step hnames hseen) hwalk
        refine ⟨⟨fun k hk => hexplores.ends (hends hk), fun x hx => hexplores.seen (mem_append_left _ hx),
          hexplores.nodup, hexplores.subset, fun x hx hnot => ?_⟩,
          hexplores.seen (mem_append_right _ (.head _)), hne⟩
        by_cases hnext' : x = next
        · exact hnext' ▸ hclosed
        · exact hexplores.closed x hx (by simp [hnot, hnext'])
    exact foldlM_each
      (fun x hx a b ha hfollow => ⟨ha.trans (hstep x hx a b ha hfollow).1, (hstep x hx a b ha hfollow).2⟩)
      (fun x hx a b ha hfollow y hy => ⟨(hstep x hx a b ha hfollow).1.seen hy.1, hy.2⟩)
      (.refl hs.nodup hs.subset) h

lemma not_transGen_of_walk (hg : g.WellFormed) {root : String} (hroot : root ∈ g.names) {known : Paths}
    (h : walk g (g.vertices.length + 1) [] root ⟨known, [root]⟩ = .ok s') : ¬ Relation.TransGen g.Leads root root := by
  have hstands : Stands g root (g.vertices.length + 1) [] root ⟨known, [root]⟩ :=
    ⟨mem_cons_self, .inl rfl, mem_cons_self, nodup_cons.2 ⟨not_mem_nil, nodup_nil⟩,
      cons_subset.2 ⟨hroot, nil_subset _⟩, by rw [length_singleton]; omega⟩
  obtain ⟨hexplores, hclosed⟩ := explores_walk hg hstands h
  have hall : ∀ x ∈ s'.seen, ∀ y, g.Leads x y → y ∈ s'.seen ∧ y ≠ root := by
    intro x hx
    by_cases hxr : x = root
    · exact hxr ▸ hclosed
    · exact hexplores.closed x hx (by simpa using hxr)
  have hreach : ∀ y, Relation.TransGen g.Leads root y → y ∈ s'.seen ∧ y ≠ root := by
    intro y hy
    induction hy with
    | single hedge => exact hall root (hexplores.seen (.head _)) _ hedge
    | tail _ hedge ih => exact hall _ ih.1 _ hedge
  exact fun hcycle => (hreach root hcycle).2 rfl

lemma acyclic_of_checkAcyclic (hg : g.WellFormed) {known : Paths} (h : g.checkAcyclic = .ok known) : g.Acyclic := by
  intro x hcycle
  obtain ⟨y, hxy, -⟩ := Relation.TransGen.head'_iff.1 hcycle
  have hx : x ∈ g.names := (hg.mem_names hxy).1
  obtain ⟨before, after, hmap⟩ := exists_step_of_foldlM h hx
  cases hwalk : walk g (g.vertices.length + 1) [] x ⟨before, [x]⟩ with
  | error e => simp [hwalk, Except.map] at hmap
  | ok s' => exact not_transGen_of_walk hg hx hwalk (transGen_leads hg hcycle)

lemma checkAcyclic_eq_ok_iff (hg : g.WellFormed) : (∃ known, g.checkAcyclic = .ok known) ↔ g.Acyclic := by
  constructor
  · rintro ⟨known, h⟩
    exact acyclic_of_checkAcyclic hg h
  · intro hacyclic
    cases h : g.checkAcyclic with
    | ok known => exact ⟨known, rfl⟩
    | error e => exact absurd hacyclic ((genuine_of_checkAcyclic h).not_acyclic hg)

end ReactiveTemplate.Graph
