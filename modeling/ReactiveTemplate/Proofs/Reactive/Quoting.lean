import ReactiveTemplate.Proofs.Script.Tokens
import ReactiveTemplate.Reactive.Payload
/-!
# Quoting — a quoted text is one string of the script

The reader of strings takes what is written for one character in one step (`readString_quoteChar`), so a quoted text is
read back to its last quote and no further, whatever follows it.
-/
set_option linter.all false

namespace ReactiveTemplate
open List Script

variable {c : Char} {rest : List Char}

lemma readString_quoteChar (fuel : Nat) (acc : List Script.Piece) :
    readString '\'' (fuel + 1) acc (quoteChar c ++ rest) = readString '\'' fuel (.char c :: acc) rest := by
  unfold quoteChar
  split
  · rfl
  · rfl
  · rfl
  · rfl
  · rename_i hbackslash hquote hline hreturn
    rw [singleton_append, readString.eq_4 _ _ _ _ _ (fun h => (hbackslash h).elim), if_neg hquote, if_neg]
    simpa using ⟨hline, hreturn⟩

lemma readString_flatMap : ∀ (cs : List Char) {fuel : Nat} (acc : List Script.Piece), (cs.flatMap quoteChar).length < fuel →
    readString '\'' fuel acc (cs.flatMap quoteChar ++ '\'' :: rest) = some (acc.reverse ++ cs.map .char, rest)
  | [], fuel + 1, acc, _ => by simp [readString]
  | c :: cs, fuel + 1, acc, h => by
    have hpos : 0 < (quoteChar c).length := by
      unfold quoteChar
      split <;> exact Nat.succ_pos _
    rw [flatMap_cons, length_append] at h
    rw [flatMap_cons, append_assoc, readString_quoteChar, readString_flatMap cs _ (by omega)]
    simp

lemma valueOf_chars (cs : List Char) : Piece.valueOf (cs.map .char) = (String.ofList cs, false) := by
  have hlone : (cs.map Piece.char).any Piece.isLone = false := by simp [Piece.isLone]
  simp [Piece.valueOf, hlone, flatMap_map, Piece.plain]

lemma toList_singleQuote (s : String) : (singleQuote s).toList = '\'' :: (s.toList.flatMap quoteChar ++ ['\'']) := by
  simp [singleQuote, Text.flatMap]

/-- A quoted text as a token. -/
def quoted (s : String) : Chunk := ⟨[], (singleQuote s).toList, .string s false⟩

lemma reads_quoted (s : String) (rest : List Char) : (quoted s).Reads rest := by
  have hchars : (quoted s).text ++ rest = '\'' :: (s.toList.flatMap quoteChar ++ '\'' :: rest) := by
    simp [quoted, toList_singleQuote]
  refine ⟨rfl, ?_, ?_⟩
  · rw [hchars]
    rfl
  · rw [hchars]
    change stringLexeme '\'' _ = _
    rw [stringLexeme, readString_flatMap _ _ (by rw [length_append]; omega)]
    simp [valueOf_chars, quoted]

lemma read_quoted (s : String) (rest : List Char) (first opening : Bool) (start : Nat) :
    Cursor.read first opening start ((singleQuote s).toList ++ rest) = (quoted s).stand start rest := by
  have hchars : (quoted s).chars = (singleQuote s).toList := by rw [Chunk.chars, quoted, nil_append]
  rw [← hchars]
  exact read_chunk (reads_quoted s rest)

/-- One of the replacements that make up the quoting of a text. -/
def escaping (plain mark c : Char) : List Char := if c = plain then ['\\', mark] else [c]

/-- No replacement touches what an earlier one wrote. -/
lemma quoteChar_eq (c : Char) : quoteChar c = (escaping '\\' '\\' c).flatMap (fun c =>
    (escaping '\'' '\'' c).flatMap (fun c => (escaping '\n' 'n' c).flatMap (escaping '\r' 'r'))) := by
  unfold quoteChar
  split
  · decide
  · decide
  · decide
  · decide
  · rename_i hbackslash hquote hline hreturn
    simp [escaping, if_neg hbackslash, if_neg hquote, if_neg hline, if_neg hreturn]

/-- A text is quoted by four replacements in a row. The outcome is a single string token from its first character to its
last, with the text as its value, whatever follows; no two texts are quoted alike, and none ends inside another. -/
theorem read_singleQuote (s : String) (rest : List Char) :
    (singleQuote s).toList = '\'' :: ((((s.toList.flatMap (escaping '\\' '\\')).flatMap (escaping '\'' '\'')).flatMap
      (escaping '\n' 'n')).flatMap (escaping '\r' 'r') ++ ['\'']) ∧
    (∀ (first opening : Bool) (start : Nat),
      let c := Cursor.read first opening start ((singleQuote s).toList ++ rest)
      c.token = .string s false ∧ c.start = start ∧ c.stop = start + (singleQuote s).length ∧ c.rest = rest ∧
        c.isFlawed = false) ∧
    (Cursor.ofSource (singleQuote s)).next.token = .finish ∧
    ∀ t rest', (singleQuote t).toList ++ rest' = (singleQuote s).toList ++ rest → t = s ∧ rest' = rest := by
  refine ⟨?_, fun first opening start => ?_, ?_, fun t rest' h => ?_⟩
  · simp only [toList_singleQuote, flatMap_assoc, ← quoteChar_eq]
  · simp [read_quoted, Chunk.stand, quoted, Chunk.size, Chunk.chars, ← String.length_toList]
  · have hsource := read_quoted s [] true false 0
    rw [append_nil] at hsource
    rw [Cursor.ofSource, hsource]
    rfl
  · have heq := congrArg (Cursor.read false false 0) h
    rw [read_quoted, read_quoted] at heq
    exact ⟨(Token.string.inj (congrArg Cursor.token heq)).1, congrArg Cursor.rest heq⟩

end ReactiveTemplate
