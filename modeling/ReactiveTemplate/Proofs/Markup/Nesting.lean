import ReactiveTemplate.Proofs.Markup.Layers
import ReactiveTemplate.Proofs.Markup.Relinking
import ReactiveTemplate.Proofs.Results
/-!
# Nesting — linked nodes that stand for a nest

The linked nodes of a builder stand for a nest of layers (`Represents`).
-/
set_option linter.all false

namespace ReactiveTemplate.Markup
open List
open Document

variable {ids opens : List Nat} {S : Nat → Prop}

/-! ## Trees read off the lists of children -/

namespace Document

mutual
def ReadsAs (d : Document) (kids : Nat → List Nat) : Tree → Nat → Prop
  | .node kind position children, id =>
    d.kind id = kind ∧ d.position id = position ∧ ReadAll d kids children (kids id)

def ReadAll (d : Document) (kids : Nat → List Nat) : List Tree → List Nat → Prop
  | [], ids => ids = []
  | t :: ts, ids => ∃ id rest, ids = id :: rest ∧ ReadsAs d kids t id ∧ ReadAll d kids ts rest
end

variable {d d' : Document} {kids kids' : Nat → List Nat}

lemma readAll_append : ∀ {ts us : List Tree} {ids : List Nat},
    ReadAll d kids (ts ++ us) ids ↔ ∃ a b, ids = a ++ b ∧ ReadAll d kids ts a ∧ ReadAll d kids us b
  | [], us, ids => by
    constructor
    · intro h
      exact ⟨[], ids, rfl, rfl, h⟩
    · rintro ⟨a, b, rfl, rfl, h⟩
      exact h
  | t :: ts, us, ids => by
    rw [cons_append]
    constructor
    · rintro ⟨id, rest, rfl, ht, h⟩
      obtain ⟨a, b, rfl, ha, hb⟩ := readAll_append.1 h
      exact ⟨id :: a, b, rfl, ⟨id, a, rfl, ht, ha⟩, hb⟩
    · rintro ⟨a, b, rfl, ⟨id, rest, rfl, ht, ha⟩, hb⟩
      exact ⟨id, rest ++ b, rfl, ht, readAll_append.2 ⟨rest, b, rfl, ha, hb⟩⟩

lemma readAll_concat {ts : List Tree} {t : Tree} :
    ReadAll d kids (ts ++ [t]) ids ↔ ∃ a id, ids = a ++ [id] ∧ ReadAll d kids ts a ∧ ReadsAs d kids t id := by
  rw [readAll_append]
  constructor
  · rintro ⟨a, b, rfl, ha, id, rest, rfl, ht, rfl⟩
    exact ⟨a, id, rfl, ha, ht⟩
  · rintro ⟨a, id, rfl, ha, ht⟩
    exact ⟨a, [id], rfl, ha, id, [], rfl, ht, rfl⟩

/-- Documents that agree on a set of nodes closed under children. -/
structure Agree (d d' : Document) (kids kids' : Nat → List Nat) (S : Nat → Prop) : Prop where
  kind : ∀ x, S x → d'.kind x = d.kind x
  position : ∀ x, S x → d'.position x = d.position x
  lists : ∀ x, S x → kids' x = kids x
  closed : ∀ x, S x → ∀ y ∈ kids x, S y

mutual
theorem ReadsAs.mono (h : Agree d d' kids kids' S) : ∀ {t : Tree} {id : Nat},
    ReadsAs d kids t id → S id → ReadsAs d' kids' t id
  | .node kind position children, id, hr, hs => by
    obtain ⟨hkind, hposition, hchildren⟩ := hr
    refine ⟨(h.kind id hs).trans hkind, (h.position id hs).trans hposition, ?_⟩
    rw [h.lists id hs]
    exact ReadAll.mono h hchildren (h.closed id hs)

theorem ReadAll.mono (h : Agree d d' kids kids' S) : ∀ {ts : List Tree} {ids : List Nat},
    ReadAll d kids ts ids → (∀ id ∈ ids, S id) → ReadAll d' kids' ts ids
  | [], _, hr, _ => hr
  | t :: ts, ids, hr, hs => by
    obtain ⟨id, rest, rfl, ht, hrest⟩ := hr
    exact ⟨id, rest, rfl, ReadsAs.mono h ht (hs id (.head _)),
      ReadAll.mono h hrest (fun x hx => hs x (.tail _ hx))⟩
end

mutual
theorem treeTo_eq (h : Linked d kids) (hrising : ∀ p, ∀ c ∈ kids p, p < c) : ∀ {t : Tree} {id : Nat} (n : Nat),
    ReadsAs d kids t id → id < d.size → d.size - id ≤ n → d.treeTo n id = t
  | .node kind position children, id, 0, _, hid, hn => by omega
  | .node kind position children, id, n + 1, hr, hid, hn => by
    obtain ⟨rfl, rfl, hchildren⟩ := hr
    rw [treeTo, h.children_eq, map_treeTo_eq h hrising n hchildren (fun c hc => ?_)]
    have := hrising id c hc
    exact ⟨h.inside id c hc, by omega⟩

theorem map_treeTo_eq (h : Linked d kids) (hrising : ∀ p, ∀ c ∈ kids p, p < c) : ∀ {ts : List Tree} {ids : List Nat}
    (n : Nat), ReadAll d kids ts ids → (∀ id ∈ ids, id < d.size ∧ d.size - id ≤ n) → ids.map (d.treeTo n) = ts
  | [], _, _, rfl, _ => rfl
  | t :: ts, ids, n, hr, hids => by
    obtain ⟨id, rest, rfl, ht, hrest⟩ := hr
    obtain ⟨hid, hn⟩ := hids id (.head _)
    rw [map_cons, treeTo_eq h hrising n ht hid hn,
      map_treeTo_eq h hrising n hrest (fun x hx => hids x (.tail _ hx))]
end

/-! ## Nodes that stand for a nest -/

/-- Open nodes stand for layers, the innermost first: each has the trees of its layer as children, and behind them
`inner`, the open node in it. -/
inductive Stands (d : Document) (kids : Nat → List Nat) (opens : List Nat) : List Nat → List Nat → List Layer → Prop
  | nil (inner : List Nat) : Stands d kids opens inner [] []
  | cons {inner closed ids : List Nat} {id : Nat} {l : Layer} {ls : List Layer} : kids id = closed ++ inner →
    ReadAll d kids l.done closed → (∀ c ∈ closed, c ∉ opens) → d.kind id = l.kind → d.position id = l.position →
    id < d.size → Stands d kids opens [id] ids ls → Stands d kids opens inner (id :: ids) (l :: ls)

namespace Stands

variable {inner : List Nat} {ls : List Layer}

lemma mem_kids (h : Stands d kids opens inner ids ls) {y : Nat} (hy : y ∈ ids) :
    (∃ x ∈ ids, y ∈ kids x) ∨ ids.getLast? = some y := by
  induction h with
  | nil => cases hy
  | cons _ _ _ _ _ _ hrest ih =>
    rcases mem_cons.1 hy with rfl | hy
    · cases hrest with
      | nil => exact .inr rfl
      | cons hkids => exact .inl ⟨_, .tail _ (.head _), by rw [hkids]; simp⟩
    · rcases ih hy with ⟨x, hx, hmem⟩ | hlast
      · exact .inl ⟨x, .tail _ hx, hmem⟩
      · exact .inr (by rw [getLast?_cons, hlast]; rfl)

lemma length_eq (h : Stands d kids opens inner ids ls) : ids.length = ls.length := by
  induction h with
  | nil => rfl
  | cons _ _ _ _ _ _ _ ih => exact congrArg (· + 1) ih

lemma lt_size (h : Stands d kids opens inner ids ls) : ∀ x ∈ ids, x < d.size := by
  induction h with
  | nil => exact nofun
  | cons _ _ _ _ _ hid _ ih => exact forall_mem_cons.2 ⟨hid, ih⟩

lemma lt_inner (hrising : ∀ p, ∀ c ∈ kids p, p < c) (h : Stands d kids opens inner ids ls) :
    ∀ y ∈ inner, ∀ x ∈ ids, x < y := by
  induction h with
  | nil => exact nofun
  | cons hkids _ _ _ _ _ _ ih =>
    intro y hy
    have hlt := hrising _ y (by rw [hkids]; exact mem_append_right _ hy)
    exact forall_mem_cons.2 ⟨hlt, fun x hx => Nat.lt_trans (ih _ (.head _) x hx) hlt⟩

lemma mono {opens' : List Nat} (h : Agree d d' kids kids' S) (hsize : d.size ≤ d'.size)
    (hopens : ∀ c, S c → c ∉ opens') (hs : Stands d kids opens inner ids ls)
    (hsame : ∀ x ∈ ids, d'.kind x = d.kind x ∧ d'.position x = d.position x ∧ kids' x = kids x)
    (hclosed : ∀ x ∈ ids, ∀ c ∈ kids x, c ∉ opens → S c) : Stands d' kids' opens' inner ids ls := by
  induction hs with
  | nil => exact .nil _
  | cons hkids hread hout hkind hposition hid _ ih =>
    obtain ⟨⟨hkind', hposition', hkids'⟩, hsame⟩ := forall_mem_cons.1 hsame
    obtain ⟨hclosed, hrest⟩ := forall_mem_cons.1 hclosed
    have hS := fun c hc => hclosed c (by rw [hkids]; exact mem_append_left _ hc) (hout c hc)
    exact .cons (hkids'.trans hkids) (hread.mono h hS) (fun c hc => hopens c (hS c hc)) (hkind'.trans hkind)
      (hposition'.trans hposition) (Nat.lt_of_lt_of_le hid hsize) (ih hsame hrest)

/-- The open node in a layer becomes one more tree of the layer. -/
lemma absorb {id : Nat} {l : Layer} {t : Tree} (h : Stands d kids opens [id] ids (l :: ls))
    (ht : ReadsAs d kids t id) (hid : id ∉ opens) : Stands d kids opens [] ids (l.add t :: ls) := by
  cases h with
  | cons hkids hread hout hkind hposition hsize hrest =>
    refine .cons (by rw [append_nil]; exact hkids) (readAll_concat.2 ⟨_, id, rfl, hread, ht⟩) ?_ hkind hposition hsize hrest
    intro c hc
    rcases mem_append.1 hc with hc | hc
    · exact hout c hc
    · rw [mem_singleton.1 hc]
      exact hid

end Stands

end Document

namespace Builder

lemma opens_eq (b : Builder) : ∃ rest, b.opened ++ [root] = b.current :: rest := by
  cases hb : b.opened with
  | nil => exact ⟨[], by simp [current, hb]⟩
  | cons id ids => exact ⟨ids ++ [root], by simp [current, hb]⟩

lemma document_add (b : Builder) (kind : Kind) (position : Position) :
    (b.add kind position).2.document = (b.document.create kind position).2.append b.current b.document.size := rfl

lemma kind_add (b : Builder) (kind : Kind) (position : Position) (x : Nat) :
    (b.add kind position).2.document.kind x = if x = b.document.size then kind else b.document.kind x := by
  rw [document_add, kind_append, kind_create]

lemma position_add (b : Builder) (kind : Kind) (position : Position) (x : Nat) :
    (b.add kind position).2.document.position x = if x = b.document.size then position else b.document.position x := by
  rw [document_add, position_append, position_create]

lemma size_add (b : Builder) (kind : Kind) (position : Position) :
    (b.add kind position).2.document.size = b.document.size + 1 := by
  rw [document_add, size_append, size_create]

def siteOf (b : Builder) : Token → Position
  | .startTag name _ _ => (b.seek ("<" ++ name)).1
  | .endTag name => (b.seek ("</" ++ name)).1
  | .comment _ => (b.seek "<!--").1
  | .doctype _ => (b.seek "<!").1
  | _ => b.here

lemma take_endTag (b : Builder) (name : String) :
    b.take (.endTag name) = if b.opened.head?.bind b.document.tag? = some name then
        .ok { (b.seek ("</" ++ name)).2 with opened := b.opened.tail }
      else .error (b.refuse (.endTag ((b.opened.head?.bind b.document.tag?).getD "none") name)
        (b.siteOf (.endTag name))) := rfl

end Builder

structure Represents (b : Builder) (kids : Nat → List Nat) (nest : List Layer) : Prop where
  linked : b.document.Linked kids
  rising : ∀ p, ∀ c ∈ kids p, p < c
  stands : b.document.Stands kids (b.opened ++ [root]) [] (b.opened ++ [root]) nest

namespace Represents

variable {b : Builder} {kids : Nat → List Nat} {nest : List Layer}

lemma new (source file : String) : Represents (Builder.new source file) (fun _ => []) [⟨.document, {}, []⟩] where
  linked := Linked.new file
  rising := fun p c hc => by cases hc
  stands := .cons rfl rfl nofun rfl rfl (by simp [Builder.new, Document.new, Document.size, Document.root]) (.nil _)

lemma closed_kids (h : Represents b kids nest) {x : Nat} (hx : x ∉ b.opened ++ [root]) :
    ∀ y ∈ kids x, y ∉ b.opened ++ [root] := by
  intro y hy hopen
  rcases h.stands.mem_kids hopen with ⟨x', hx', hy'⟩ | hlast
  · rw [h.linked.parent_unique hy hy'] at hx
    exact hx hx'
  · rw [getLast?_concat] at hlast
    cases hlast
    exact Nat.not_lt_zero _ (h.rising x _ hy)

section

variable (h : Represents b kids nest) (kind : Kind) (position : Position)

include h

lemma current_lt : b.current < b.document.size := by
  obtain ⟨rest, hrest⟩ := b.opens_eq
  exact h.stands.lt_size _ (by rw [hrest]; exact (.head _))

lemma linked_add : (b.add kind position).2.document.Linked (pushKid kids b.current b.document.size) := by
  refine (h.linked.create kind position).append ?_ (by simp) (by rw [links_create, links_of_le (Nat.le_refl _)])
  rw [size_create]
  exact Nat.lt_succ_of_lt h.current_lt

lemma rising_add : ∀ p, ∀ c ∈ pushKid kids b.current b.document.size p, p < c := by
  intro p c hc
  unfold pushKid at hc
  split at hc
  · rename_i hp
    rcases mem_append.1 hc with hc | hc
    · exact h.rising p c hc
    · rw [mem_singleton] at hc
      rw [hc, hp]
      exact h.current_lt
  · exact h.rising p c hc

lemma agree_add : Agree b.document (b.add kind position).2.document kids
    (pushKid kids b.current b.document.size)
    (fun x => x < b.document.size ∧ x ∉ b.opened ++ [root]) where
  kind := fun x hx => by rw [b.kind_add, if_neg (Nat.ne_of_lt hx.1)]
  position := fun x hx => by rw [b.position_add, if_neg (Nat.ne_of_lt hx.1)]
  lists := fun x hx => pushKid_of_ne kids (fun heq => by
    obtain ⟨rest, hrest⟩ := b.opens_eq
    exact hx.2 (by rw [hrest, heq]; exact (.head _)))
  closed := fun x hx y hy => ⟨h.linked.inside x y hy, h.closed_kids hx.2 y hy⟩

lemma readsAs_add : ReadsAs (b.add kind position).2.document
    (pushKid kids b.current b.document.size) (.leaf kind position) b.document.size := by
  refine ⟨by rw [b.kind_add, if_pos rfl], by rw [b.position_add, if_pos rfl], ?_⟩
  rw [pushKid_of_ne kids (Nat.ne_of_gt h.current_lt), h.linked.kids_of_le (Nat.le_refl _)]
  rfl

end

variable {inner : Layer} {outer : List Layer}

lemma innermost (h : Represents b kids (inner :: outer)) :
    ∃ rest, b.opened ++ [root] = b.current :: rest ∧
      b.document.ReadAll kids inner.done (kids b.current) ∧
      (∀ c ∈ kids b.current, c ∉ b.opened ++ [root]) ∧ b.document.kind b.current = inner.kind ∧
      b.document.position b.current = inner.position ∧
      b.document.Stands kids (b.opened ++ [root]) [b.current] rest outer := by
  obtain ⟨rest, hrest⟩ := b.opens_eq
  have hstands := h.stands
  rw [hrest] at hstands
  cases hstands with
  | cons hkids hread hout hkind hposition _ hrest' =>
    rw [append_nil] at hkids
    rw [hkids]
    exact ⟨rest, hrest, hread, hrest ▸ hout, hkind, hposition, hrest ▸ hrest'⟩

lemma size_not_mem_opens (h : Represents b kids nest) : b.document.size ∉ b.opened ++ [root] :=
  fun hmem => Nat.lt_irrefl _ (h.stands.lt_size _ hmem)

lemma stands_current (h : Represents b kids (inner :: outer)) (kind : Kind) (position : Position)
    (hopens : ∀ c, c < b.document.size → c ∉ b.opened ++ [root] → c ∉ opens) :
    (b.add kind position).2.document.Stands (pushKid kids b.current b.document.size) opens [b.document.size]
      (b.opened ++ [root]) (inner :: outer) := by
  obtain ⟨rest, hrest, hread, hout, hkind, hposition, hstands⟩ := h.innermost
  have hsame := h.agree_add kind position
  have hlt := h.current_lt
  have hclosed : ∀ c ∈ kids b.current, c < b.document.size ∧ c ∉ b.opened ++ [root] :=
    fun c hc => ⟨h.linked.inside _ c hc, hout c hc⟩
  rw [hrest]
  refine .cons (pushKid_self _ _ _) (hread.mono hsame hclosed)
    (fun c hc => hopens c (hclosed c hc).1 (hclosed c hc).2) ?_ ?_ ?_ ?_
  · rw [b.kind_add, if_neg (Nat.ne_of_lt hlt)]
    exact hkind
  · rw [b.position_add, if_neg (Nat.ne_of_lt hlt)]
    exact hposition
  · rw [b.size_add]
    exact Nat.lt_succ_of_lt hlt
  · refine hstands.mono hsame ?_ (fun c hc => hopens c hc.1 hc.2) (fun x hx => ?_)
      (fun x hx c hc hout => ⟨h.linked.inside x c hc, hout⟩)
    · rw [b.size_add]
      exact Nat.le_succ _
    · have hx' : x < b.document.size := hstands.lt_size x hx
      rw [b.kind_add, b.position_add, if_neg (Nat.ne_of_lt hx'), if_neg (Nat.ne_of_lt hx')]
      exact ⟨rfl, rfl, pushKid_of_ne kids (Nat.ne_of_lt (hstands.lt_inner h.rising _ (.head _) x hx))⟩

lemma add (h : Represents b kids (inner :: outer)) (kind : Kind) (position : Position) :
    Represents (b.add kind position).2 (pushKid kids b.current b.document.size)
      (inner.add (.leaf kind position) :: outer) where
  linked := h.linked_add kind position
  rising := h.rising_add
  stands := (h.stands_current kind position (fun _ _ hc => hc)).absorb (h.readsAs_add kind position) h.size_not_mem_opens

lemma push (h : Represents b kids (inner :: outer)) (kind : Kind) (position : Position) :
    Represents { (b.add kind position).2 with opened := b.document.size :: b.opened }
      (pushKid kids b.current b.document.size) (⟨kind, position, []⟩ :: inner :: outer) where
  linked := h.linked_add kind position
  rising := h.rising_add
  stands := by
    obtain ⟨hkind, hposition, hleaf⟩ := h.readsAs_add kind position
    refine .cons (show _ = [] ++ [] from hleaf) rfl nofun hkind hposition ?_ (h.stands_current kind position (fun c hc hout hmem => ?_))
    · rw [b.size_add]
      exact Nat.lt_succ_self _
    · rcases mem_cons.1 hmem with heq | hmem
      · exact Nat.ne_of_lt hc heq
      · exact hout hmem

lemma pop {around : Layer} {id : Nat}
    (h : Represents b kids (inner :: around :: outer)) (hopened : b.opened = id :: ids) :
    Represents { b with opened := ids } kids (around.add inner.toTree :: outer) where
  linked := h.linked
  rising := h.rising
  stands := by
    obtain ⟨rest, hrest, hread, hout, hkind, hposition, hstands⟩ := h.innermost
    have hopens : b.opened ++ [root] = id :: (ids ++ [root]) := by rw [hopened]; rfl
    obtain ⟨-, rfl⟩ := cons.inj (hopens.symm.trans hrest)
    have hsame : Agree b.document b.document kids kids (fun x => x ∉ b.opened ++ [root]) :=
      ⟨fun _ _ => rfl, fun _ _ => rfl, fun _ _ => rfl, fun x hx => h.closed_kids hx⟩
    have hfewer : ∀ c, c ∉ b.opened ++ [root] → c ∉ ids ++ [root] := by
      intro c hc hmem
      exact hc (by rw [hopens]; exact mem_cons_of_mem _ hmem)
    have hrest' := hstands.mono hsame (Nat.le_refl _) hfewer (fun _ _ => ⟨rfl, rfl, rfl⟩) (fun _ _ _ _ hc => hc)
    exact hrest'.absorb (t := inner.toTree) ⟨hkind, hposition, hread⟩
      (fun hmem => Nat.lt_irrefl _ (hstands.lt_inner h.rising _ (.head _) _ hmem))

lemma extend {ts : List Tree} {existing s : String} {at_ : Position}
    {below : List Tree} {before : List Nat} {last : Nat} (h : Represents b kids (inner :: outer))
    (hkids : kids b.current = before ++ [last]) (hbefore : b.document.ReadAll kids ts before)
    (hlast : b.document.ReadsAs kids (.node (.text existing) at_ below) last) :
    Represents { b with document := b.document.setKind last (.text (existing ++ s)) } kids
      ({ inner with done := ts ++ [.node (.text (existing ++ s)) at_ below] } :: outer) where
  linked := h.linked.setKind last _
  rising := h.rising
  stands := by
    obtain ⟨rest, hrest, hread, hout, hkind, hposition, hstands⟩ := h.innermost
    have hmem : last ∈ kids b.current := by rw [hkids]; simp
    have hsize : last < b.document.size := h.linked.inside _ _ hmem
    have hopen : ∀ x ∈ b.opened ++ [root], x ≠ last := fun x hx heq => hout last hmem (heq ▸ hx)
    -- below the other closed nodes there is nothing that changes
    have hsame : Agree b.document (b.document.setKind last (.text (existing ++ s))) kids kids
        (fun x => x ∉ b.opened ++ [root] ∧ x ≠ last) := by
      refine ⟨fun x hx => ?_, fun x _ => position_setKind _ _ _ _, fun _ _ => rfl, fun x hx y hy => ⟨?_, ?_⟩⟩
      · rw [kind_setKind hsize, if_neg hx.2]
      · exact h.closed_kids hx.1 y hy
      · rintro rfl
        rw [h.linked.parent_unique hy hmem] at hx
        exact hx.1 (by rw [hrest]; exact (.head _))
    have hkind_of_ne : ∀ x, x ≠ last → (b.document.setKind last (.text (existing ++ s))).kind x = b.document.kind x :=
      fun x hx => by rw [kind_setKind hsize, if_neg hx]
    have hnodup := h.linked.nodup b.current
    rw [hkids, nodup_append] at hnodup
    have hbefore' : ∀ x ∈ before, x ∉ b.opened ++ [root] ∧ x ≠ last := fun x hx =>
      ⟨hout x (by rw [hkids]; exact mem_append_left _ hx), hnodup.2.2 x hx last (by simp)⟩
    have hbelow : ∀ y ∈ kids last, y ∉ b.opened ++ [root] ∧ y ≠ last := fun y hy =>
      ⟨h.closed_kids (hout last hmem) y hy, Nat.ne_of_gt (h.rising last y hy)⟩
    obtain ⟨-, hlastPosition, hlastBelow⟩ := hlast
    change Stands _ kids (b.opened ++ [root]) [] (b.opened ++ [root]) _
    have hrest' : Stands (b.document.setKind last (.text (existing ++ s))) kids
        (b.opened ++ [root]) [b.current] rest outer := by
      refine hstands.mono hsame (Nat.le_of_eq (size_setKind _ _ _).symm) (fun c hc => hc.1) (fun x hx => ?_)
        (fun x hx c hc hout' => ⟨hout', ?_⟩)
      · have hxo : x ∈ b.opened ++ [root] := by rw [hrest]; exact mem_cons_of_mem _ hx
        exact ⟨hkind_of_ne x (hopen x hxo), position_setKind _ _ _ _, rfl⟩
      · rintro rfl
        have := hstands.lt_inner h.rising _ (.head _) x hx
        rw [h.linked.parent_unique hc hmem] at this
        exact Nat.lt_irrefl _ this
    rw [hrest] at hopen hout hrest' ⊢
    refine .cons (by rw [append_nil]) ?_ hout ((hkind_of_ne _ (hopen _ (.head _))).trans hkind)
      ((position_setKind _ _ _ _).trans hposition) ?_ hrest'
    · refine readAll_concat.2 ⟨before, last, hkids, hbefore.mono hsame hbefore', ?_, ?_, ?_⟩
      · rw [kind_setKind hsize, if_pos rfl]
      · exact (position_setKind _ _ _ _).trans hlastPosition
      · exact hlastBelow.mono hsame hbelow
    · rw [size_setKind]
      exact h.current_lt

lemma appendText_eq_add (h : Represents b kids nest) {s : String} {position : Position}
    (hlast : ∀ last, (kids b.current).getLast? = some last → (b.document.kind last).text? = none) :
    { b with document := b.document.appendText b.current s position } = (b.add (.text s) position).2 := by
  have hdocument : b.document.appendText b.current s position = (b.add (.text s) position).2.document := by
    rw [appendText, h.linked.last]
    cases hk : (kids b.current).getLast? with
    | none => rfl
    | some last =>
      have hkind := hlast last hk
      simp only [Option.map_some]
      split
      · rename_i existing heq
        simp only [Option.some.injEq, Prod.mk.injEq] at heq
        rw [heq.2] at hkind
        cases hkind
      · rfl
  rw [hdocument]
  rfl

lemma appendText (h : Represents b kids (inner :: outer)) (s : String) (position : Position) :
    ∃ kids', Represents { b with document := b.document.appendText b.current s position } kids'
      ({ inner with done := Tree.appendText s position inner.done } :: outer) := by
  obtain ⟨rest, -, hread, -, -, -, -⟩ := h.innermost
  rcases eq_nil_or_concat' inner.done with hnil | ⟨ts, t, hconcat⟩
  · rw [hnil] at hread
    have hkids : kids b.current = [] := hread
    rw [h.appendText_eq_add (fun last hlast => by rw [hkids] at hlast; cases hlast), hnil]
    have := h.add (.text s) position
    rw [Layer.add, hnil] at this
    exact ⟨_, this⟩
  · rw [hconcat] at hread
    obtain ⟨before, last, hkids, hbefore, hlast⟩ := readAll_concat.1 hread
    obtain ⟨kind, at_, below⟩ := t
    have hkind : b.document.kind last = kind := hlast.1
    have hgetLast : (kids b.current).getLast? = some last := by rw [hkids, getLast?_concat]
    cases htext : kind.text? with
    | none =>
      rw [h.appendText_eq_add (fun l hl => by rw [hgetLast] at hl; cases hl; rw [hkind, htext]), hconcat,
        Tree.appendText_other s position (t := .node kind at_ below) htext, ← hconcat]
      exact ⟨_, h.add (.text s) position⟩
    | some existing =>
      have hexisting : kind = .text existing := by
        cases kind <;> cases htext
        rfl
      subst hexisting
      rw [hconcat, Tree.appendText_text]
      have hdocument : b.document.appendText b.current s position =
          b.document.setKind last (.text (existing ++ s)) := by
        rw [Document.appendText, h.linked.last, hgetLast, Option.map_some, hkind]
      rw [hdocument]
      exact ⟨kids, h.extend hkids hbefore hlast⟩

lemma seek (h : Represents b kids nest) (needle : String) : Represents (b.seek needle).2 kids nest :=
  ⟨h.linked, h.rising, h.stands⟩

lemma exists_innermost (h : Represents b kids nest) : ∃ inner outer, nest = inner :: outer := by
  obtain ⟨rest, hrest⟩ := b.opens_eq
  have hstands := h.stands
  rw [hrest] at hstands
  cases nest with
  | nil => cases hstands
  | cons inner outer => exact ⟨inner, outer, rfl⟩

lemma exists_around {id : Nat}
    (h : Represents b kids (inner :: outer)) (hopened : b.opened = id :: ids) :
    ∃ around rest, outer = around :: rest := by
  obtain ⟨rest, hrest, -, -, -, -, hstands⟩ := h.innermost
  rw [hopened, cons_append] at hrest
  obtain ⟨-, rfl⟩ := cons.inj hrest
  cases outer with
  | nil => simpa using hstands.length_eq
  | cons around rest => exact ⟨around, rest, rfl⟩

lemma length_eq (h : Represents b kids nest) : nest.length = b.opened.length + 1 := by
  rw [← h.stands.length_eq, length_append, length_singleton]

lemma innermost_tag (h : Represents b kids (inner :: outer)) (hdocument : outer = [] → inner.kind = .document) :
    b.opened.head?.bind b.document.tag? = inner.kind.tag? := by
  obtain ⟨rest, hrest, -, -, hkind, -, -⟩ := h.innermost
  cases hopened : b.opened with
  | nil =>
    have hlength := h.length_eq
    rw [hopened, length_cons, length_nil, Nat.add_right_cancel_iff, length_eq_zero_iff] at hlength
    rw [hdocument hlength]
    rfl
  | cons id ids =>
    have hcurrent : b.current = id := by rw [Builder.current, hopened]; rfl
    rw [← hkind, hcurrent]
    rfl

lemma take (h : Represents b kids nest) {t : Token} {b' : Builder} (ht : b.take t = .ok b') :
    ∃ nest' kids', Layer.take (b.siteOf t) t nest = some nest' ∧ Represents b' kids' nest' := by
  obtain ⟨inner, outer, rfl⟩ := h.exists_innermost
  cases t with
  | startTag name attributes selfClosing =>
    cases ht
    by_cases hleaf : ((Builder.elementOf name attributes).isVoid || selfClosing) = true
    · rw [Layer.take, if_pos hleaf, if_pos hleaf]
      exact ⟨_, _, rfl, (h.seek _).add _ _⟩
    · rw [Layer.take, if_neg hleaf, if_neg hleaf]
      exact ⟨_, _, rfl, (h.seek _).push _ _⟩
  | endTag name =>
    rw [Builder.take_endTag] at ht
    split at ht
    · rename_i htag
      obtain ⟨id, ids, hopened⟩ : ∃ id ids, b.opened = id :: ids := by
        cases hb : b.opened with
        | nil => rw [hb] at htag; cases htag
        | cons id ids => exact ⟨id, ids, rfl⟩
      obtain ⟨around, rest, rfl⟩ := h.exists_around hopened
      rw [h.innermost_tag (fun hnil => nomatch hnil)] at htag
      rw [hopened] at ht
      cases ht
      exact ⟨_, _, by rw [Layer.take, if_pos htag], (h.seek ("</" ++ name)).pop hopened⟩
    · cases ht
  | text s =>
    cases ht
    obtain ⟨kids', h'⟩ := h.appendText s b.here
    exact ⟨_, kids', rfl, h'⟩
  | comment s =>
    cases ht
    exact ⟨_, _, rfl, (h.seek "<!--").add _ _⟩
  | doctype name =>
    cases ht
    exact ⟨_, _, rfl, (h.seek "<!").add _ _⟩
  | ignored =>
    cases ht
    exact ⟨_, kids, rfl, h⟩
  | truncated reason => cases ht

lemma close_eq (h : Represents b kids (inner :: outer)) :
    b.close = if outer = [] then .ok b.document
      else .error (b.refuse (.unclosed (inner.kind.tag?.getD "")) inner.position) := by
  have hlength := h.length_eq
  rw [length_cons, Nat.add_right_cancel_iff] at hlength
  rw [Builder.close]
  split
  · rename_i hopened
    rw [hopened, length_nil, length_eq_zero_iff] at hlength
    rw [if_pos hlength]
  · rename_i id ids hopened
    have houter : outer ≠ [] := ne_nil_of_length_pos (by rw [hlength, hopened]; exact Nat.succ_pos _)
    obtain ⟨rest, -, -, -, hkind, hposition, -⟩ := h.innermost
    have hcurrent : b.current = id := by rw [Builder.current, hopened]; rfl
    rw [if_neg houter, ← hposition, ← hkind, hcurrent]
    rfl

lemma toTree_eq {l : Layer} (h : Represents b kids [l]) : b.document.toTree root = l.toTree := by
  obtain ⟨rest, hrest, hread, -, hkind, hposition, -⟩ := h.innermost
  have hsize := h.current_lt
  have hopened : b.opened = [] := length_eq_zero_iff.1 (Nat.succ.inj h.length_eq.symm)
  have hcurrent : b.current = root := by rw [Builder.current, hopened]; rfl
  rw [hcurrent] at hread hkind hposition hsize
  exact treeTo_eq h.linked h.rising _ ⟨hkind, hposition, hread⟩ hsize (Nat.sub_le _ _)

lemma of_close {d : Document} (h : Represents b kids nest) (hd : b.close = .ok d) :
    ∃ l : Layer, nest = [l] ∧ d.toTree root = l.toTree := by
  obtain ⟨inner, outer, rfl⟩ := h.exists_innermost
  rw [h.close_eq] at hd
  split at hd
  · rename_i houter
    subst houter
    cases hd
    exact ⟨inner, rfl, h.toTree_eq⟩
  · cases hd

end Represents

lemma Represents.takeAll {kids : Nat → List Nat} {nest : List Layer} : ∀ {ts : List Token} {b b' : Builder},
    Represents b kids nest → b.takeAll ts = .ok b' →
    ∃ nest' kids', Layer.Takes ts nest nest' ∧ Represents b' kids' nest'
  | [], b, b', h, ht => by
    cases ht
    exact ⟨nest, kids, .nil nest, h⟩
  | t :: ts, b, b', h, ht => by
    obtain ⟨b₁, hb, ht⟩ := exists_ok_of_bind ht
    obtain ⟨nest₁, kids₁, htake, h₁⟩ := h.take hb
    obtain ⟨nest', kids', htakes, h'⟩ := Represents.takeAll h₁ ht
    exact ⟨nest', kids', .cons _ htake htakes, h'⟩

def Document.ofTokens (source file : String) (ts : List Token) : Except Diagnostic Document := do
  let b ← (Builder.new source file).takeAll ts
  b.close

lemma Document.parse_eq (source file : String) :
    parse source file = ofTokens source file (tokens source) := rfl

variable {file source : String} {d : Document}

lemma Document.exists_of_ofTokens {ts : List Token} (h : ofTokens source file ts = .ok d) :
    ∃ b, (Builder.new source file).takeAll ts = .ok b ∧ b.close = .ok d := exists_ok_of_bind h

lemma takes_of_close {ts : List Token} {b : Builder}
    (hb : (Builder.new source file).takeAll ts = .ok b) (hd : b.close = .ok d) :
    ∃ forest, Layer.Takes ts [⟨.document, {}, []⟩] [⟨.document, {}, forest⟩] ∧
      d.toTree root = .node .document {} forest := by
  obtain ⟨nest, kids, htakes, hrep⟩ := (Represents.new source file).takeAll hb
  obtain ⟨⟨kind, position, forest⟩, rfl, htree⟩ := hrep.of_close hd
  have houter := htakes.outermost_eq
  obtain ⟨rfl, rfl⟩ := houter
  exact ⟨forest, htakes, htree⟩

lemma takes_of_parse (h : parse source file = .ok d) :
    ∃ ts, Layer.Takes (tokens source) [⟨.document, {}, []⟩] [⟨.document, {}, ts⟩] ∧
      d.toTree root = .node .document {} ts := by
  obtain ⟨b, hb, hclose⟩ := exists_of_ofTokens h
  exact takes_of_close hb hclose

lemma every_of_parse {Q : Kind → Prop} (h : parse source file = .ok d) (hdocument : Q .document)
    (htext : ∀ s s', Q (.text s) → Q (.text s') → Q (.text (s ++ s')))
    (htokens : ∀ t ∈ tokens source, ∀ k, t.kind? = some k → Q k) : (d.toTree root).Every Q := by
  obtain ⟨ts, htakes, htree⟩ := takes_of_parse h
  have hnest : Layer.Every Q [⟨.document, {}, []⟩] := by
    intro l hl
    rw [mem_singleton.1 hl]
    exact ⟨hdocument, fun t ht => by cases ht⟩
  rw [htree]
  exact Tree.every_node.2 ((htakes.every htext htokens hnest) _ (.head _))

def Kind.attributes : Kind → List Attribute
  | .element e => e.attributes
  | _ => []

lemma name_of_parse (h : parse source file = .ok d) :
    (d.toTree root).Every (fun kind => ∀ a ∈ kind.attributes, a.name = normalName a.rawName) := by
  refine every_of_parse h (fun a ha => nomatch ha) (fun _ _ _ _ a ha => nomatch ha) ?_
  intro t _ kind hkind a ha
  cases t with
  | startTag name written selfClosing =>
    rw [Token.kind?, Option.some.injEq] at hkind
    subst hkind
    obtain ⟨b, -, rfl⟩ := mem_map.1 ha
    rw [Attribute.new]
  | endTag name => cases hkind
  | ignored => cases hkind
  | truncated reason => cases hkind
  | _ => cases hkind; cases ha

end ReactiveTemplate.Markup
