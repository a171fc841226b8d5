import ReactiveTemplate.Proofs.Component.Changes
/-!
# Tables — the tables of a payload fit together

Every number in a payload stands for an entry of its table (`Payload.Consistent`), and a watcher is listed under a
variable exactly if one of its expressions reads it (`Payload.Exact`): each change of binding keeps both.
-/
set_option linter.all false

namespace ReactiveTemplate.Payload
open List

/-! ## The watchers of a variable -/

def listed (number : Nat) (entries : List (Nat × List Nat)) : List Nat :=
  ((entries.find? (fun entry => entry.1 == number)).map (·.2)).getD []

lemma dependentsOf_eq (p : Payload) (number : Nat) : p.dependentsOf number = listed number p.dependents := rfl

variable {i number watcher : Nat} {entries : List (Nat × List Nat)}

lemma mem_listed (h : watcher ∈ listed number entries) : ∃ entry ∈ entries, entry.1 = number ∧ watcher ∈ entry.2 := by
  unfold listed at h
  cases hfind : entries.find? (fun entry => entry.1 == number) with
  | none =>
    rw [hfind] at h
    simp at h
  | some entry =>
    rw [hfind] at h
    exact ⟨entry, mem_of_find?_eq_some hfind, by simpa using find?_some hfind, h⟩

lemma mem_listed_addDependent {w : Nat} (entries : List (Nat × List Nat)) :
    w ∈ listed i (addDependent number watcher entries) ↔ w ∈ listed i entries ∨ (i = number ∧ w = watcher) := by
  induction entries with
  | nil =>
    by_cases h : i = number
    · simp [addDependent, listed, h]
    · simp [addDependent, listed, h, Ne.symm h]
  | cons entry rest ih =>
    unfold addDependent
    by_cases hentry : entry.1 = number
    · rw [if_pos (by simpa using hentry)]
      by_cases h : i = number
      · subst h
        by_cases hmem : watcher ∈ entry.2
        · simp [listed, hentry, hmem]
          rintro rfl
          exact hmem
        · simp [listed, hentry, hmem]
      · have hne : entry.1 ≠ i := fun heq => h (heq.symm.trans hentry)
        simp [listed, h, Ne.symm h, hne]
    · rw [if_neg (by simpa using hentry)]
      by_cases h : entry.1 = i
      · have hne : i ≠ number := fun heq => hentry (h.trans heq)
        simp [listed, h, hne]
      · have hskip : ∀ more, listed i (entry :: more) = listed i more := by
          simp [listed, h]
        rw [hskip, hskip]
        exact ih

lemma map_fst_addDependent (number watcher : Nat) (entries : List (Nat × List Nat)) :
    (addDependent number watcher entries).map (·.1) =
      if number ∈ entries.map (·.1) then entries.map (·.1) else entries.map (·.1) ++ [number] := by
  induction entries with
  | nil => rfl
  | cons entry rest ih =>
    unfold addDependent
    by_cases hentry : entry.1 = number
    · simp [hentry]
    · rw [if_neg (by simpa using hentry), map_cons, ih]
      by_cases hmem : number ∈ rest.map (·.1)
      · have hin : number ∈ (entry :: rest).map (·.1) := mem_cons_of_mem _ hmem
        rw [if_pos hmem, if_pos hin, map_cons]
      · have hnot : number ∉ (entry :: rest).map (·.1) := by
          rw [map_cons, mem_cons]
          exact fun h => h.elim (fun heq => hentry heq.symm) hmem
        rw [if_neg hmem, if_neg hnot, map_cons, cons_append]

lemma nodup_addDependent
    (h : (entries.map (·.1)).Nodup) : ((addDependent number watcher entries).map (·.1)).Nodup := by
  rw [map_fst_addDependent]
  split
  · exact h
  · rename_i hnot
    exact nodup_append.2 ⟨h, nodup_singleton _, fun a ha b hb => by
      rw [mem_singleton.1 hb]
      exact fun heq => hnot (heq ▸ ha)⟩

lemma forall_addDependent {P : Nat × List Nat → Prop} (h : ∀ entry ∈ entries, P entry) (hnew : P (number, [watcher]))
    (hmore : ∀ watchers, watcher ∉ watchers → P (number, watchers) → P (number, watchers ++ [watcher])) :
    ∀ entry ∈ addDependent number watcher entries, P entry := by
  induction entries with
  | nil =>
    intro entry hmem
    rw [mem_singleton.1 hmem]
    exact hnew
  | cons first rest ih =>
    have hfirst := h first (.head _)
    have hrest := ih (fun entry hmem => h entry (.tail _ hmem))
    unfold addDependent
    by_cases hkey : first.1 = number
    · rw [if_pos (by simpa using hkey)]
      have hfirst : P (number, first.2) := hkey ▸ hfirst
      intro entry hmem
      rcases mem_cons.1 hmem with rfl | hmem
      · by_cases hin : watcher ∈ first.2
        · rw [if_pos (by simpa using hin)]
          exact hfirst
        · rw [if_neg (by simpa using hin)]
          exact hmore first.2 hin hfirst
      · exact h entry (.tail _ hmem)
    · rw [if_neg (by simpa using hkey)]
      intro entry hmem
      rcases mem_cons.1 hmem with rfl | hmem
      · exact hfirst
      · exact hrest entry hmem

/-! ## Numbers in range -/

/-- An entry of the dependents whose numbers stand for something, and that lists no watcher twice. -/
structure EntryFits (p : Payload) (entry : Nat × List Nat) : Prop where
  variable_lt : entry.1 < p.vars.size
  watchers_lt : ∀ watcher ∈ entry.2, watcher < p.watchers.size
  nodup : entry.2.Nodup

structure EventFits (p : Payload) (e : EventBinding) : Prop where
  event_lt : e.event < p.eventNames.size
  element_lt : e.element < p.elements.size
  handler_lt : e.handler < p.handlers.size

/-- **A payload whose tables fit together.** -/
structure Consistent (context : Context) (p : Payload) : Prop where
  watchers : ∀ w ∈ p.watchers.items, w.Fits p
  events : ∀ e ∈ p.events.items, p.EventFits e
  references : ∀ r ∈ p.references, r.2 < p.elements.size
  keys : (p.dependents.map (·.1)).Nodup
  dependents : ∀ entry ∈ p.dependents, p.EntryFits entry
  handlers : ∀ h ∈ p.handlers.items, Handler.Numbered context p.vars h

variable {context : Context} {p q : Payload}

lemma Extends.entryFits (h : p.Extends q) {entry : Nat × List Nat} (hentry : p.EntryFits entry) : q.EntryFits entry :=
  ⟨h.vars.lt_size hentry.variable_lt, fun w hw => h.watchers.lt_size (hentry.watchers_lt w hw), hentry.nodup⟩

lemma Extends.eventFits (h : p.Extends q) {e : EventBinding} (he : p.EventFits e) : q.EventFits e :=
  ⟨h.eventNames.lt_size he.event_lt, h.elements.lt_size he.element_lt, h.handlers.lt_size he.handler_lt⟩

lemma Consistent.extend (hp : p.Consistent context) (h : p.Extends q)
    (hwatchers : ∀ w ∈ q.watchers.items, w ∈ p.watchers.items ∨ w.Fits q)
    (hevents : ∀ e ∈ q.events.items, e ∈ p.events.items ∨ q.EventFits e) (hkeys : (q.dependents.map (·.1)).Nodup)
    (hdependents : ∀ entry ∈ q.dependents, q.EntryFits entry)
    (hhandlers : ∀ h ∈ q.handlers.items, h ∈ p.handlers.items ∨ Handler.Numbered context q.vars h) :
    q.Consistent context where
  watchers w hw := (hwatchers w hw).elim (fun hold => h.fits (hp.watchers w hold)) id
  events e he := (hevents e he).elim (fun hold => h.eventFits (hp.events e hold)) id
  references r hr := h.elements.lt_size (hp.references r (h.references ▸ hr))
  keys := hkeys
  dependents := hdependents
  handlers text ht := (hhandlers text ht).elim (fun hold => (hp.handlers text hold).mono h.vars) id

lemma link_entries (name : String) (hkeys : (p.dependents.map (·.1)).Nodup)
    (hentries : ∀ entry ∈ p.dependents, p.EntryFits entry) (hwatcher : watcher < p.watchers.size) :
    ((p.link name watcher).2.dependents.map (·.1)).Nodup ∧
      ∀ entry ∈ (p.link name watcher).2.dependents, (p.link name watcher).2.EntryFits entry := by
  refine ⟨nodup_addDependent hkeys, forall_addDependent ?_ ?_ ?_⟩
  · intro entry hmem
    have hentry := hentries entry hmem
    exact ⟨(p.vars.extends_insert name).lt_size hentry.variable_lt, hentry.watchers_lt, hentry.nodup⟩
  · exact ⟨p.vars.fst_insert_lt name, fun w hw => mem_singleton.1 hw ▸ hwatcher, nodup_singleton watcher⟩
  · intro watchers hnot hfits
    refine ⟨hfits.variable_lt, fun w hw => ?_, ?_⟩
    · rcases mem_append.1 hw with hw | hw
      · exact hfits.watchers_lt w hw
      · rw [mem_singleton.1 hw]
        exact hwatcher
    · exact nodup_append.2 ⟨hfits.nodup, nodup_singleton _, fun a ha b hb => by
        rw [mem_singleton.1 hb]
        exact fun heq => hnot (heq ▸ ha)⟩

lemma foldl_link_entries (watcher : Nat) (names : List String) : ∀ {p : Payload}, (p.dependents.map (·.1)).Nodup →
    (∀ entry ∈ p.dependents, p.EntryFits entry) → watcher < p.watchers.size →
    ((names.foldl (fun q name => (q.link name watcher).2) p).dependents.map (·.1)).Nodup ∧
      ∀ entry ∈ (names.foldl (fun q name => (q.link name watcher).2) p).dependents,
        (names.foldl (fun q name => (q.link name watcher).2) p).EntryFits entry := by
  induction names with
  | nil => exact fun hkeys hentries _ => ⟨hkeys, hentries⟩
  | cons name names ih =>
    intro p hkeys hentries hwatcher
    obtain ⟨hkeys', hentries'⟩ := link_entries name hkeys hentries hwatcher
    exact ih hkeys' hentries' hwatcher

lemma Consistent.change (hp : p.Consistent context) (h : Change context p q) : q.Consistent context := by
  have hext := h.extends
  have hentries : ∀ entry ∈ p.dependents, q.EntryFits entry := fun entry hmem => hext.entryFits (hp.dependents entry hmem)
  cases h with
  | element handle =>
    exact hp.extend hext (fun _ => .inl) (fun _ => .inl) hp.keys hentries (fun _ => .inl)
  | attr name =>
    exact hp.extend hext (fun _ => .inl) (fun _ => .inl) hp.keys hentries (fun _ => .inl)
  | expression isEscaped hsource =>
    exact hp.extend hext (fun _ => .inl) (fun _ => .inl) hp.keys hentries (fun _ => .inl)
  | @watch watcher names hfits hnames =>
    have hgrown : (p.watched watcher names).watchers = (p.watchers.insert watcher).2 ∧
        (p.watched watcher names).events = p.events ∧ (p.watched watcher names).handlers = p.handlers := by
      rw [watched, foldl_link]
      exact ⟨rfl, rfl, rfl⟩
    obtain ⟨hwatchers, hevents, hhandlers⟩ := hgrown
    have hlinked := foldl_link_entries (p.watchers.insert watcher).1 names
      (p := { p with watchers := (p.watchers.insert watcher).2 }) hp.keys
      (fun entry hmem => ⟨(hp.dependents entry hmem).variable_lt,
        fun w hw => (p.watchers.extends_insert watcher).lt_size ((hp.dependents entry hmem).watchers_lt w hw),
        (hp.dependents entry hmem).nodup⟩)
      (p.watchers.fst_insert_lt watcher)
    refine hp.extend hext (fun w hw => ?_) (fun e he => .inl (hevents ▸ he)) hlinked.1 hlinked.2
      (fun text ht => .inl (hhandlers ▸ ht))
    rw [hwatchers, IndexedSet.mem_insert] at hw
    rcases hw with hw | rfl
    · exact .inl hw
    · exact .inr (hext.fits hfits)
  | @event value handler vars name element helement hhandler =>
    obtain ⟨-, hnumbered⟩ := Handler.numbered_of_ofValue hhandler
    refine hp.extend hext (fun _ => .inl) (fun e he => ?_) hp.keys hentries (fun text ht => ?_)
    · rcases IndexedSet.mem_insert.1 he with he | rfl
      · exact .inl he
      · exact .inr ⟨p.eventNames.fst_insert_lt name, helement, p.handlers.fst_insert_lt handler⟩
    · rcases IndexedSet.mem_insert.1 ht with ht | rfl
      · exact .inl ht
      · exact .inr hnumbered

lemma Consistent.changes (hp : p.Consistent context) (h : Changes context p q) : q.Consistent context := by
  induction h with
  | refl => exact hp
  | tail _ hstep ih => exact ih.change hstep

/-! ## Exactly the watchers that read a variable -/

/-- **A payload that lists a watcher under a variable exactly if the watcher needs it**, and gives every variable that a
watcher needs a number. -/
structure Exact (context : Context) (p : Payload) : Prop where
  vars : p.vars.items.Nodup
  watchers : p.watchers.items.Nodup
  listed : ∀ {i : Nat} {name : String} {number : Nat} {w : Watcher}, p.vars.get? i = some name →
    p.watchers.get? number = some w → (number ∈ p.dependentsOf i ↔ p.Needs context w name)
  numbered : ∀ {w : Watcher} {name : String}, w ∈ p.watchers.items → p.Needs context w name → name ∈ p.vars.items

lemma Extends.needs_iff (h : p.Extends q) {w : Watcher} (hw : w.Fits p) {name : String} :
    q.Needs context w name ↔ p.Needs context w name := by
  have hreads : ∀ number ∈ w.expressions, (q.Reads number name ↔ p.Reads number name) :=
    fun number hn => h.reads_iff (hw.expressions number hn) name
  constructor
  · rintro ⟨hname, number, hn, hread⟩
    exact ⟨hname, number, hn, (hreads number hn).1 hread⟩
  · rintro ⟨hname, number, hn, hread⟩
    exact ⟨hname, number, hn, (hreads number hn).2 hread⟩

lemma Consistent.lt_of_mem (hp : p.Consistent context) (h : number ∈ p.dependentsOf i) :
    i < p.vars.size ∧ number < p.watchers.size := by
  obtain ⟨entry, hmem, rfl, hnumber⟩ := mem_listed h
  exact ⟨(hp.dependents entry hmem).variable_lt, (hp.dependents entry hmem).watchers_lt number hnumber⟩

lemma Exact.not_needs (hp : p.Exact context) (hvars : p.vars.Extends q.vars) (hq : q.vars.items.Nodup)
    {name : String} (hi : ¬i < p.vars.size) (hget : q.vars.get? i = some name) {w : Watcher}
    (hw : w ∈ p.watchers.items) : ¬p.Needs context w name := by
  intro hneeds
  obtain ⟨j, hj, heq⟩ := getElem_of_mem (hp.numbered hw hneeds)
  have hold : p.vars.get? j = some name := List.getElem?_eq_some_iff.2 ⟨hj, heq⟩
  exact hi (IndexedSet.get?_inj hq (hvars.get? hold) hget ▸ hj)

lemma Exact.extend (hcons : p.Consistent context) (hp : p.Exact context) (h : p.Extends q)
    (hvars : q.vars.items.Nodup) (hwatchers : q.watchers = p.watchers) (hdependents : q.dependents = p.dependents) :
    q.Exact context where
  vars := hvars
  watchers := hwatchers ▸ hp.watchers
  listed {i name number w} hi hnumber := by
    rw [hwatchers] at hnumber
    have hw := IndexedSet.mem_of_get? hnumber
    rw [dependentsOf_eq, hdependents, h.needs_iff (hcons.watchers w hw)]
    by_cases hlt : i < p.vars.size
    · exact hp.listed ((h.vars.get?_eq hlt).symm.trans hi) hnumber
    · exact iff_of_false (fun hmem => hlt (hcons.lt_of_mem hmem).1) (hp.not_needs h.vars hvars hlt hi hw)
  numbered {w name} hw hneeds := by
    rw [hwatchers] at hw
    exact h.vars.subset (hp.numbered hw ((h.needs_iff (hcons.watchers w hw)).1 hneeds))

lemma mem_dependentsOf_foldl_link (watcher i number : Nat) (names : List String) : ∀ {p : Payload},
    p.vars.items.Nodup →
    (number ∈ (names.foldl (fun q name => (q.link name watcher).2) p).dependentsOf i ↔
      number ∈ p.dependentsOf i ∨
        (number = watcher ∧ ∃ name ∈ names, (p.vars.insertAll names).get? i = some name)) := by
  induction names with
  | nil => simp
  | cons name names ih =>
    intro p hvars
    have hlater : (p.vars.insert name).2.Extends (p.vars.insertAll (name :: names)) :=
      IndexedSet.extends_insertAll names _
    have hnumber : i = (p.vars.insert name).1 ↔ (p.vars.insertAll (name :: names)).get? i = some name := by
      have hget := hlater.get? (p.vars.get?_insert name)
      constructor
      · rintro rfl
        exact hget
      · exact fun hi => IndexedSet.get?_inj (IndexedSet.nodup_insertAll _ hvars) hi hget
    have hlink : number ∈ (p.link name watcher).2.dependentsOf i ↔
        number ∈ p.dependentsOf i ∨ (i = (p.vars.insert name).1 ∧ number = watcher) := mem_listed_addDependent _
    rw [foldl_cons, ih (IndexedSet.nodup_insert hvars name), hlink, hnumber, or_assoc]
    have hsame : (p.link name watcher).2.vars.insertAll names = p.vars.insertAll (name :: names) := rfl
    rw [hsame]
    simp only [mem_cons, exists_eq_or_imp]
    rw [and_comm, ← and_or_left]

lemma Exact.watch (hcons : p.Consistent context) (hp : p.Exact context) {watcher : Watcher} {names : List String}
    (hfits : watcher.Fits p) (hnames : ∀ name, name ∈ names ↔ p.Needs context watcher name) :
    (p.watched watcher names).Exact context := by
  have hvars : (p.watched watcher names).vars = p.vars.insertAll names := by
    rw [watched, foldl_link]
  have hwatchers : (p.watched watcher names).watchers = (p.watchers.insert watcher).2 := by
    rw [watched, foldl_link]
  have hext : p.Extends (p.watched watcher names) := (Change.watch hfits hnames).extends
  have hnodup : (p.watched watcher names).vars.items.Nodup := hvars ▸ IndexedSet.nodup_insertAll names hp.vars
  have hnew := p.watchers.get?_insert watcher
  refine ⟨hnodup, hwatchers ▸ IndexedSet.nodup_insert hp.watchers watcher, ?_, ?_⟩
  · intro i name number w hi hnumber
    rw [hwatchers] at hnumber
    have hmem : number ∈ (p.watched watcher names).dependentsOf i ↔
        number ∈ p.dependentsOf i ∨ (number = (p.watchers.insert watcher).1 ∧ name ∈ names) := by
      have hlink := mem_dependentsOf_foldl_link (p.watchers.insert watcher).1 i number
        names (p := { p with watchers := (p.watchers.insert watcher).2 }) hp.vars
      rw [hvars] at hi
      simp only [hi, Option.some.injEq, exists_eq_right'] at hlink
      exact hlink
    rw [hmem]
    -- The watcher that was entered is listed under the names; any other one is listed as before.
    by_cases hthis : number = (p.watchers.insert watcher).1
    · obtain rfl : watcher = w := Option.some.inj (hnew.symm.trans (hthis ▸ hnumber))
      rw [hext.needs_iff hfits, ← hnames name]
      refine ⟨fun h => h.elim (fun hold => ?_) (·.2), fun h => .inr ⟨hthis, h⟩⟩
      obtain ⟨hlt, hlt'⟩ := hcons.lt_of_mem hold
      have hold' := (p.watchers.extends_insert watcher).get?_eq hlt'
      exact (hnames name).2 ((hp.listed ((hext.vars.get?_eq hlt).symm.trans hi) (hold'.symm.trans hnumber)).1 hold)
    · have hlt : number < p.watchers.size := by
        rcases p.watchers.insert_cases watcher with ⟨j, heq, -⟩ | ⟨-, heq⟩
        · rw [heq] at hnumber
          exact IndexedSet.lt_size_of_get? hnumber
        · rw [heq] at hnumber hthis
          have hle := IndexedSet.lt_size_of_get? hnumber
          simp only [IndexedSet.size, length_append, length_singleton] at hle hthis ⊢
          omega
      have hold := ((p.watchers.extends_insert watcher).get?_eq hlt).symm.trans hnumber
      have hw := IndexedSet.mem_of_get? hold
      rw [hext.needs_iff (hcons.watchers w hw)]
      refine Iff.trans ⟨fun h => h.elim id (fun h => absurd h.1 hthis), .inl⟩ ?_
      by_cases hlt : i < p.vars.size
      · exact hp.listed ((hext.vars.get?_eq hlt).symm.trans hi) hold
      · exact iff_of_false (fun hmem => hlt (hcons.lt_of_mem hmem).1) (hp.not_needs hext.vars hnodup hlt hi hw)
  · intro w name hw hneeds
    rw [hwatchers, IndexedSet.mem_insert] at hw
    rcases hw with hw | rfl
    · exact hext.vars.subset (hp.numbered hw ((hext.needs_iff (hcons.watchers w hw)).1 hneeds))
    · rw [hvars]
      exact IndexedSet.mem_insertAll.2 (.inr ((hnames name).2 ((hext.needs_iff hfits).1 hneeds)))

lemma Exact.change (hcons : p.Consistent context) (hp : p.Exact context) (h : Change context p q) :
    q.Exact context := by
  have hext := h.extends
  cases h with
  | element handle => exact hp.extend hcons hext hp.vars rfl rfl
  | attr name => exact hp.extend hcons hext hp.vars rfl rfl
  | expression isEscaped hsource => exact hp.extend hcons hext hp.vars rfl rfl
  | watch hfits hnames => exact hp.watch hcons hfits hnames
  | event name helement hhandler => exact hp.extend hcons hext (Handler.nodup_of_ofValue hhandler hp.vars) rfl rfl

lemma Exact.changes (hcons : p.Consistent context) (hp : p.Exact context) (h : Changes context p q) :
    q.Exact context := by
  induction h with
  | refl => exact hp
  | tail hsteps hstep ih => exact ih.change (hcons.changes hsteps) hstep

end ReactiveTemplate.Payload
