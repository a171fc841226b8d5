import Mathlib.Tactic.Lemma
import ReactiveTemplate.Markup.Parse
import ReactiveTemplate.Script.Parse
/-!
# Characters — running the program on the characters of a text

A text is an array of bytes, and every character that is read off it counts its bytes from the start.  The twins below
take the characters as a list, so that a page or a script that is written out can be run by evaluation.
-/

namespace ReactiveTemplate

variable (source : String) {cs : List Char}

namespace Markup

def Document.ofChars (cs : List Char) (file : String) : Except Diagnostic Document := do
  let b : Builder :=
    { lines := .ofSource cs, document := Document.new file, cursor := ⟨0, cs.map Char.toLower⟩ }
  let b ← b.takeAll (({} : Lexer).run (unifyLines (dropMark cs))).finish.done.reverse
  b.close

lemma Document.parse_eq_ofChars (h : source.toList = cs) (file : String) : parse source file = ofChars cs file := by
  subst h
  rw [parse, ofChars, Builder.new, tokens, Text.lower, String.toList_ofList]

end Markup

namespace Script

def Parser.runChars? (p : Parser Node) (cs : List Char) : Option Program :=
  match (ReaderT.run p {}).run (Cursor.read true false 0 cs) with
  | some (n, c) => if c.isFlawed || n.hasStrayDefault then none else some ⟨n, c.comments, c.annotated⟩
  | none => none

def programOfChars? (cs : List Char) : Option Program :=
  match (Parser.program (Grammar.tower (2 * cs.length + 16))).runChars? cs with
  | some program =>
    let exported := program.root.parts.flatMap Node.interfaceNames
    if exported.Nodup then some program else none
  | none => none

def expressionOfChars? (cs : List Char) : Option Node :=
  ((Parser.expression (Grammar.tower (2 * cs.length + 16))).runChars? cs).map (·.root)

lemma parseProgram?_eq_ofChars (h : source.toList = cs) : parseProgram? source = programOfChars? cs := by
  subst h
  rw [programOfChars?, String.length_toList]
  rfl

lemma parseExpression?_eq_ofChars (h : source.toList = cs) : parseExpression? source = expressionOfChars? cs := by
  subst h
  rw [expressionOfChars?, String.length_toList]
  rfl

end Script
end ReactiveTemplate
