import ReactiveTemplate.Text.Word
import ReactiveTemplate.Number.Decimal
/-!
# Token — the tokens of a script

A script is read token by token.  A word keeps whether it was written with escapes, since a keyword may not be.
-/
namespace ReactiveTemplate.Script

inductive Token where
  | word (name : String) (escaped : Bool)
  | privateName (name : String)
  | punct (text : String)
  | number (bits : Nat)
  | bigint (text : String)
  | string (value : String) (lone : Bool)
  /-- A piece of a template up to its end or up to the next expression; `none` where an escape in it is malformed. -/
  | template (raw : String) (cooked : Option String) (isLast : Bool)
  | regex (text : String)
  | hashbang
  | finish
  | malformed
  deriving Repr, DecidableEq, Inhabited

def reservedWords : List String :=
  ["await", "break", "case", "catch", "class", "const", "continue", "debugger", "default", "delete", "do", "else",
   "enum", "export", "extends", "false", "finally", "for", "function", "if", "import", "in", "instanceof", "new",
   "null", "return", "super", "switch", "this", "throw", "true", "try", "typeof", "var", "void", "while", "with",
   "yield"]

def contextualWords : List String :=
  ["abstract", "accessor", "any", "as", "assert", "asserts", "async", "bigint", "boolean", "constructor", "declare",
   "defer", "from", "get", "global", "implements", "infer", "interface", "intrinsic", "is", "keyof", "let", "meta",
   "module", "namespace", "never", "number", "object", "of", "out", "override", "package", "private", "protected",
   "public", "readonly", "require", "satisfies", "set", "source", "static", "string", "symbol", "target", "type",
   "undefined", "unique", "unknown", "using"]

def assignmentOperators : List String :=
  ["=", "+=", "-=", "*=", "/=", "%=", "**=", "<<=", ">>=", ">>>=", "&=", "|=", "^=", "&&=", "||=", "??="]

/-- How tightly an operator between two operands binds; `none` for other tokens. -/
def binaryPrecedence? (operator : String) : Option Nat :=
  match operator with
  | "??" => some 1
  | "||" => some 2
  | "&&" => some 3
  | "|" => some 4
  | "^" => some 5
  | "&" => some 6
  | "==" | "!=" | "===" | "!==" => some 7
  | "<" | ">" | "<=" | ">=" | "instanceof" | "in" => some 8
  | "<<" | ">>" | ">>>" => some 9
  | "+" | "-" => some 10
  | "*" | "/" | "%" => some 11
  | "**" => some 12
  | _ => none

def logicalOperators : List String := ["&&", "||", "??"]

def unaryOperators : List String := ["+", "-", "!", "~", "typeof", "void", "delete"]

def punctuators : List String :=
  [">>>=", "...", "===", "!==", "**=", "<<=", ">>=", ">>>", "&&=", "||=", "??=", "=>", "==", "!=", "<=", ">=", "&&",
   "||", "??", "?.", "++", "--", "+=", "-=", "*=", "/=", "%=", "&=", "|=", "^=", "<<", ">>", "**", "\x7b", "\x7d", "(",
   ")", "[", "]", ";", ",", "<", ">", "+", "-", "*", "/", "%", "&", "|", "^", "!", "~", "?", ":", "=", ".", "@"]

namespace Token

def symbol? : Token → Option String
  | word name false => some name
  | punct text => some text
  | _ => none

def is (t : Token) (symbol : String) : Bool := t.symbol? == some symbol

def isWord : Token → Bool
  | word _ _ => true
  | _ => false

def isPlainWord : Token → Bool
  | word name _ => !reservedWords.contains name
  | _ => false

def isOrdinaryName : Token → Bool
  | word name _ => !reservedWords.contains name && !contextualWords.contains name
  | _ => false

def isLiteral : Token → Bool
  | word name _ => ["null", "true", "false"].contains name
  | number _ | bigint _ | string _ _ => true
  | _ => false

def isNameLiteral : Token → Bool
  | number _ | bigint _ | string _ _ => true
  | _ => false

def isTemplate : Token → Bool
  | template _ _ _ => true
  | _ => false

end Token
end ReactiveTemplate.Script
