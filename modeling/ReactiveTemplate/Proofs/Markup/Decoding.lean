import ReactiveTemplate.Markup.Escape
import ReactiveTemplate.Markup.Reference
import Mathlib.Data.List.Basic
import Mathlib.Data.List.TakeDrop
/-!
# Decoding — escaped texts and their references

Escaping a text writes some of its characters as references, and reading the references gives the text back
(`Escapes.decode_flatMap`): no name of the table goes on behind one of the names that are written, so each of them is
the longest one where it stands.
-/
set_option linter.all false

namespace ReactiveTemplate.Markup.Reference
open List

variable {found : String × List Nat}

/-! ## The table of names -/

def writtenNames : List (String × List Nat) :=
  [("amp;", [0x26]), ("lt;", [0x3C]), ("gt;", [0x3E]), ("quot;", [0x22])]

def bytes (name : String) : List UInt8 := name.toByteArray.data.toList

lemma bytes_eq (name : String) : bytes name = name.toList.flatMap String.utf8EncodeChar := by
  rw [bytes, ← String.utf8Encode_toList, utf8Encode, data_toByteArray]

lemma prefix_bytes {a b : String} (h : a.toList <+: b.toList) : bytes a <+: bytes b := by
  obtain ⟨rest, hrest⟩ := h
  rw [bytes_eq, bytes_eq, ← hrest, flatMap_append]
  exact prefix_append _ _

/-- The entries of the table, in one pass: no name goes on behind a written one, and every number is a character. -/
lemma all_named : named.all (fun entry =>
    writtenNames.all (fun written => !(bytes written.1).isPrefixOf (bytes entry.1) || entry == written) &&
      entry.2.all (fun p => Nat.blt 0 p && (Nat.blt p 0xD800 || Nat.blt 0xDFFF p && Nat.blt p 0x110000))) = true := by
  decide +kernel

variable {written : String × List Nat} {cs : List Char}

lemma eq_of_prefix_name {entry : String × List Nat} (hwritten : written ∈ writtenNames) (hentry : entry ∈ named)
    (h : written.1.toList <+: entry.1.toList) : entry = written := by
  have hall := all_eq_true.1 (Bool.and_eq_true_iff.1 (all_eq_true.1 all_named entry hentry)).1 written hwritten
  rw [List.isPrefixOf_iff_prefix.2 (prefix_bytes h)] at hall
  simpa using hall

lemma mem_named (h : written ∈ writtenNames) : written ∈ named := by
  have hloose : ∀ written ∈ writtenNames, ∃ entry ∈ spread looseNamesFrom, (entry.1 ++ ";", entry.2) = written := by
    decide +kernel
  obtain ⟨entry, hentry, rfl⟩ := hloose written h
  refine mem_append_left _ (mem_map.2 ⟨entry, ?_, rfl⟩)
  exact mem_append_left _ (mem_append_right _ hentry)

lemma ofNat_ne_of_named {p : Nat} (h : found ∈ named) (hp : p ∈ found.2) : Char.ofNat p ≠ '\x00' := by
  have hall := all_eq_true.1 (Bool.and_eq_true_iff.1 (all_eq_true.1 all_named found h)).2 p hp
  simp only [Bool.and_eq_true, Bool.or_eq_true, Nat.blt_eq] at hall
  have hvalid : p.isValidChar := hall.2
  intro hnul
  have hzero := congrArg Char.toNat hnul
  rw [Char.ofNat, dif_pos hvalid] at hzero
  exact absurd hzero (Nat.ne_of_gt hall.1)

/-! ## The longest name -/

def better (cs : List Char) (best : Option (String × List Nat)) (entry : String × List Nat) :
    Option (String × List Nat) :=
  if entry.1.toList.isPrefixOf cs then
    match best with
    | some (name, _) => if name.length < entry.1.length then some entry else best
    | none => some entry
  else best

lemma longest?_eq (cs : List Char) : longest? cs = named.foldl (better cs) none := rfl

lemma better_cases (cs : List Char) (best : Option (String × List Nat)) (entry : String × List Nat) :
    better cs best entry = best ∨ better cs best entry = some entry := by
  unfold better
  split
  · split
    · split
      · exact .inr rfl
      · exact .inl rfl
    · exact .inr rfl
  · exact .inl rfl

lemma mem_of_foldl_better {cs : List Char} : ∀ (entries : List (String × List Nat))
    (best : Option (String × List Nat)), entries.foldl (better cs) best = some found → best = some found ∨ found ∈ entries
  | [], best, h => .inl h
  | entry :: entries, best, h => by
    rcases mem_of_foldl_better entries _ h with hbest | hmem
    · rcases better_cases cs best entry with heq | heq
      · exact .inl (heq ▸ hbest)
      · rw [heq] at hbest
        cases hbest
        exact .inr (.head _)
    · exact .inr (.tail _ hmem)

lemma foldl_better {cs : List Char} (hfound : found.1.toList <+: cs) :
    ∀ (entries : List (String × List Nat)) (best : Option (String × List Nat)),
      (∀ entry ∈ entries, entry.1.toList <+: cs → entry = found ∨ entry.1.length < found.1.length) →
      (∀ b, best = some b → b = found ∨ b.1.length < found.1.length) → best = some found ∨ found ∈ entries →
      entries.foldl (better cs) best = some found
  | [], best, _, _, hmem => hmem.resolve_right not_mem_nil
  | entry :: entries, best, hall, hbest, hmem => by
    have hentry := hall entry (.head _)
    refine foldl_better hfound entries _ (fun e he => hall e (.tail _ he)) (fun b hb => ?_) ?_
    · rcases better_cases cs best entry with heq | heq
      · exact hbest b (heq ▸ hb)
      · rw [heq] at hb
        cases hb
        by_cases hpre : entry.1.toList <+: cs
        · exact hentry hpre
        · unfold better at heq
          rw [if_neg (fun h => hpre (List.isPrefixOf_iff_prefix.1 h))] at heq
          exact hbest entry heq
    · by_cases hself : entry = found
      · subst hself
        left
        unfold better
        rw [if_pos (List.isPrefixOf_iff_prefix.2 hfound)]
        cases best with
        | none => rfl
        | some b =>
          rcases hbest b rfl with rfl | hlt
          · exact if_neg (Nat.lt_irrefl _)
          · exact if_pos hlt
      · rcases hmem with rfl | hmem
        · left
          unfold better
          split
          · rename_i hpre
            rcases hentry (List.isPrefixOf_iff_prefix.1 hpre) with heq | hlt
            · exact absurd heq hself
            · exact if_neg (Nat.lt_asymm hlt)
          · rfl
        · exact .inr ((mem_cons.1 hmem).resolve_left (Ne.symm hself))

lemma longest?_written (h : written ∈ writtenNames) (rest : List Char) :
    longest? (written.1.toList ++ rest) = some written := by
  have hpre : written.1.toList <+: written.1.toList ++ rest := prefix_append _ _
  refine foldl_better hpre _ _ (fun entry hentry hstands => ?_) nofun (.inr (mem_named h))
  rcases prefix_or_prefix_of_prefix hpre hstands with hlonger | hshorter
  · exact .inl (eq_of_prefix_name h hentry hlonger)
  · by_cases hlength : entry.1.toList.length = written.1.toList.length
    · exact .inl (eq_of_prefix_name h hentry (hshorter.eq_of_length hlength ▸ prefix_refl _))
    · right
      exact Nat.lt_of_le_of_ne hshorter.length_le hlength

/-! ## Escaped texts -/

def Escapes (f : Char → List Char) : Prop :=
  ∀ c, (f c = [c] ∧ c ≠ '&') ∨
    ∃ written ∈ writtenNames, f c = '&' :: written.1.toList ∧ written.2.map Char.ofNat = [c]

lemma escapes_text : Escapes escapeTextChar := by
  intro c
  unfold escapeTextChar
  split
  · rename_i hc
    exact .inr ⟨("amp;", [0x26]), by decide, rfl, hc ▸ rfl⟩
  · rename_i hamp
    split
    · rename_i hc
      exact .inr ⟨("lt;", [0x3C]), by decide, rfl, hc ▸ rfl⟩
    · split
      · rename_i hc
        exact .inr ⟨("gt;", [0x3E]), by decide, rfl, hc ▸ rfl⟩
      · exact .inl ⟨rfl, hamp⟩

lemma escapes_value : Escapes escapeValueChar := by
  intro c
  unfold escapeValueChar
  split
  · rename_i hc
    exact .inr ⟨("amp;", [0x26]), by decide, rfl, hc ▸ rfl⟩
  · rename_i hamp
    split
    · rename_i hc
      exact .inr ⟨("quot;", [0x22]), by decide, rfl, hc ▸ rfl⟩
    · exact .inl ⟨rfl, hamp⟩

lemma spelling_of_written : ∀ written ∈ writtenNames, written.1.toList ≠ [] ∧ written.1.toList.head? ≠ some '#' ∧
    '&' ∉ written.1.toList ∧ written.1.toList.getLast? = some ';' := by
  decide +kernel

lemma read?_of_longest? (inValue : Bool) (hhash : cs.head? ≠ some '#')
    (hfound : longest? cs = some found) (hlast : found.1.toList.getLast? = some ';') :
    read? inValue cs = some (found.2.map Char.ofNat, cs.drop found.1.length) := by
  unfold read?
  rw [hfound]
  split
  · exact absurd rfl hhash
  · simp [hlast]

lemma read?_written (inValue : Bool) (h : written ∈ writtenNames) (rest : List Char) :
    read? inValue (written.1.toList ++ rest) = some (written.2.map Char.ofNat, rest) := by
  obtain ⟨hne, hhash, -, hlast⟩ := spelling_of_written written h
  have hhead : (written.1.toList ++ rest).head? ≠ some '#' := by rwa [head?_append_of_ne_nil _ hne]
  rw [read?_of_longest? inValue hhead (longest?_written h rest) hlast, ← String.length_toList, drop_left]

namespace Escapes

variable {f : Char → List Char} (hf : Escapes f)

include hf

lemma decodeWithin_flatMap (inValue : Bool) : ∀ (cs : List Char) (fuel : Nat), (cs.flatMap f).length ≤ fuel →
    decodeWithin inValue fuel (cs.flatMap f) = cs
  | [], fuel, _ => by cases fuel <;> rfl
  | c :: cs, fuel, hfuel => by
    rw [flatMap_cons] at hfuel ⊢
    rcases hf c with ⟨hc, hamp⟩ | ⟨written, hwritten, hc, hpoints⟩
    · rw [hc, singleton_append] at hfuel ⊢
      obtain ⟨n, rfl⟩ : ∃ n, fuel = n + 1 := Nat.exists_eq_add_one_of_ne_zero (by rintro rfl; simp at hfuel)
      rw [decodeWithin, if_neg hamp, decodeWithin_flatMap inValue cs n (Nat.le_of_succ_le_succ hfuel)]
    · rw [hc, cons_append, length_cons, length_append] at hfuel
      rw [hc, cons_append]
      obtain ⟨n, rfl⟩ : ∃ n, fuel = n + 1 := Nat.exists_eq_add_one_of_ne_zero (by rintro rfl; simp at hfuel)
      rw [decodeWithin, read?_written inValue hwritten, hpoints]
      show [c] ++ decodeWithin inValue n (cs.flatMap f) = _
      rw [decodeWithin_flatMap inValue cs n (by omega), singleton_append]

lemma decode_flatMap (inValue : Bool) (cs : List Char) : decode inValue (cs.flatMap f) = cs :=
  hf.decodeWithin_flatMap inValue cs _ (Nat.le_succ _)

end Escapes

/-! ## The end of an escaped text -/

lemma infix_of_infix_append {x y : Char} {a b : List Char} (hx : x ∉ a) (h : [x, y] <:+: a ++ b) : [x, y] <:+: b := by
  induction a with
  | nil => exact h
  | cons c a ih =>
    rw [mem_cons, not_or] at hx
    rw [cons_append, infix_cons_iff] at h
    rcases h with h | h
    · exact absurd (cons_prefix_cons.1 h).1 hx.1
    · exact ih hx.2 h

lemma Escapes.not_infix {f : Char → List Char} (hf : Escapes f) (cs : List Char) :
    ¬ ['&', '#'] <:+: cs.flatMap f := by
  induction cs with
  | nil => simp
  | cons c cs ih =>
    rw [flatMap_cons]
    intro h
    rcases hf c with ⟨hc, hamp⟩ | ⟨written, hwritten, hc, -⟩
    · rw [hc] at h
      exact ih (infix_of_infix_append (by simpa using Ne.symm hamp) h)
    · obtain ⟨hne, hhash, hmem, -⟩ := spelling_of_written written hwritten
      rw [hc, cons_append, infix_cons_iff] at h
      rcases h with h | h
      · have hhead : (written.1.toList ++ cs.flatMap f).head? = some '#' := by
          obtain ⟨rest, hrest⟩ := (cons_prefix_cons.1 h).2
          rw [← hrest]
          rfl
        rw [head?_append_of_ne_nil _ hne] at hhead
        exact hhash hhead
      · exact ih (infix_of_infix_append hmem h)

lemma infix_of_endsInNumber {base : Nat} {mark back : List Char} (h : endsInNumber base mark back = true) :
    ['#', '&'] <:+: back := by
  unfold endsInNumber at h
  rw [span_eq_takeWhile_dropWhile, Bool.and_eq_true, isPrefixOf_iff_prefix] at h
  obtain ⟨rest, hrest⟩ := h.2
  exact List.IsInfix.trans ⟨mark, rest, hrest⟩ (dropWhile_suffix _).isInfix

lemma cutShort?_eq_none (h : ¬ ['&', '#'] <:+: cs) : cutShort? cs = none := by
  have hback : ¬ ['#', '&'] <:+: cs.reverse := by
    rwa [← reverse_infix, reverse_reverse]
  unfold cutShort?
  rw [if_neg (fun hpre => hback (List.isPrefixOf_iff_prefix.1 hpre).isInfix), if_neg]
  simp only [Bool.or_eq_true, not_or]
  exact ⟨⟨fun h => hback (infix_of_endsInNumber h), fun h => hback (infix_of_endsInNumber h)⟩,
    fun h => hback (infix_of_endsInNumber h)⟩

/-! ## NUL -/

lemma ofNat_ne {n : Nat} (hzero : n ≠ 0) (hvalid : n.isValidChar) : Char.ofNat n ≠ '\x00' := by
  intro h
  rw [Char.ofNat, dif_pos hvalid] at h
  exact hzero (congrArg Char.toNat h)

lemma numbered_ne (n : Nat) : numbered n ≠ '\x00' := by
  unfold numbered
  split
  · decide
  · rename_i hn
    simp only [Bool.or_eq_true, decide_eq_true_eq, Bool.and_eq_true, not_or] at hn
    obtain ⟨⟨hzero, hmax⟩, hsurrogate⟩ := hn
    have hvalid : n.isValidChar := by
      omega
    split
    · cases hc : controls[n - 0x80]? with
      | none => exact ofNat_ne hzero hvalid
      | some p =>
        have hall : ∀ p ∈ controls, Char.ofNat p ≠ '\x00' := by decide
        exact hall p (mem_of_getElem? hc)
    · exact ofNat_ne hzero hvalid

lemma dropSemicolon_suffix (cs : List Char) : dropSemicolon cs <:+ cs := by
  unfold dropSemicolon
  split
  · exact suffix_cons _ _
  · exact suffix_refl _

lemma numeric?_spec {out rest : List Char} (h : numeric? cs = some (out, rest)) : '\x00' ∉ out ∧ rest <:+ cs := by
  unfold numeric? at h
  split at h
  rename_i base body hbase
  have hbody : body <:+ cs := by
    split at hbase <;> cases hbase
    · exact suffix_cons _ _
    · exact suffix_cons _ _
    · exact suffix_refl _
  simp only [span_eq_takeWhile_dropWhile] at h
  split at h
  · cases h
  · cases h
    refine ⟨by simpa using Ne.symm (numbered_ne _), ?_⟩
    exact (dropSemicolon_suffix _).trans ((dropWhile_suffix _).trans hbody)

lemma read?_spec {inValue : Bool} {out rest : List Char} (h : read? inValue cs = some (out, rest)) :
    '\x00' ∉ out ∧ rest <:+ cs := by
  unfold read? at h
  generalize hfound : longest? cs = found at h
  split at h
  · obtain ⟨hout, hrest⟩ := numeric?_spec h
    exact ⟨hout, hrest.trans (suffix_cons _ _)⟩
  · split at h
    · cases h
    · dsimp only at h
      split at h
      · cases h
      · cases h
        have hmem := (mem_of_foldl_better _ _ hfound).resolve_left nofun
        refine ⟨fun hnul => ?_, drop_suffix _ _⟩
        obtain ⟨p, hp, hpnul⟩ := mem_map.1 hnul
        exact ofNat_ne_of_named hmem hp hpnul

lemma not_mem_decode {inValue : Bool} (h : '\x00' ∉ cs) : '\x00' ∉ decode inValue cs := by
  suffices hall : ∀ (fuel : Nat) (cs : List Char), '\x00' ∉ cs → '\x00' ∉ decodeWithin inValue fuel cs from hall _ cs h
  intro fuel
  induction fuel with
  | zero => exact fun _ _ => not_mem_nil
  | succ fuel ih =>
    intro cs hcs
    cases cs with
    | nil => exact not_mem_nil
    | cons c cs =>
      rw [mem_cons, not_or] at hcs
      rw [decodeWithin]
      split
      · split
        · rename_i out rest hread
          obtain ⟨hout, hrest⟩ := read?_spec hread
          rw [mem_append, not_or]
          exact ⟨hout, ih rest (fun hmem => hcs.2 (hrest.subset hmem))⟩
        · exact not_mem_cons_of_ne_of_not_mem hcs.1 (ih cs hcs.2)
      · exact not_mem_cons_of_ne_of_not_mem hcs.1 (ih cs hcs.2)

end ReactiveTemplate.Markup.Reference
