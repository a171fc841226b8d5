import ReactiveTemplate.Text.Blank
import ReactiveTemplate.Digest.Bytes
import ReactiveTemplate.Script.Token
/-!
# Lexer — tokens and comments of a script

`skipTrivia` passes over blanks, line ends and comments; `lexeme` reads the token at the start of a text.
-/
namespace ReactiveTemplate.Script

def isLineEnd (c : Char) : Bool := c == '\n' || c == '\r' || c == '\u2028' || c == '\u2029'

def isBlank (c : Char) : Bool := (Text.isBlank c && !isLineEnd c) || c == '\u200b' || c == '\ufeff'

/-! ## Comments -/

structure Comment where
  text : String
  isBlock : Bool
  newlineBefore : Bool
  newlineAfter : Bool := false
  deriving Repr, DecidableEq

inductive Annotation where
  | pure
  | inert
  deriving Repr, DecidableEq

def Comment.annotation? (c : Comment) : Option Annotation :=
  match (c.text.toList.drop 2).dropWhile (fun c => c.isWhitespace || c == '\x0c') with
  | '@' :: rest | '#' :: rest =>
    if "__PURE__".toList.isPrefixOf rest then some .pure
    else if "__NO_SIDE_EFFECTS__".toList.isPrefixOf rest then some .inert
    else none
  | _ => none

structure Trivia where
  newline : Bool := false
  comments : List Comment := []
  annotations : List Annotation := []
  size : Nat := 0
  rest : List Char := []
  isSound : Bool := true
  deriving Repr, DecidableEq

namespace Trivia

inductive Mode where
  | blank
  | line (text : List Char)
  | block (text : List Char)
  deriving Repr, DecidableEq

/-- The state of the reader: whether a line ended since the token before, whether one ended anywhere, the comments
that go to the next token, what all comments say about it, and the characters passed. -/
structure Reader where
  sawNewline : Bool
  newline : Bool := false
  pending : List Comment := []
  annotations : List Annotation := []
  size : Nat := 0

namespace Reader

def step (r : Reader) : Reader := { r with size := r.size + 1 }

def followed : List Comment → List Comment
  | [] => []
  | [c] => [{ c with newlineAfter := true }]
  | c :: cs => c :: followed cs

/-- A line end outside comments: comments on the line of the token before stay with that token. -/
def lineEnd (r : Reader) : Reader :=
  { r with sawNewline := true, newline := true, size := r.size + 1
           pending := if r.sawNewline then followed r.pending else [] }

/-- A line comment; on the line of the token before it stays with that token, unless that token opens something. -/
def lineComment (r : Reader) (opening : Bool) (text : List Char) : Reader :=
  let comment : Comment := ⟨String.ofList text.reverse, false, r.sawNewline, true⟩
  { r with sawNewline := true, annotations := r.annotations ++ comment.annotation?.toList
           pending := if !r.sawNewline && !opening then [] else r.pending ++ [comment] }

def blockComment (r : Reader) (text : List Char) : Reader :=
  let comment : Comment := ⟨String.ofList text.reverse, true, r.sawNewline, false⟩
  { r with annotations := r.annotations ++ comment.annotation?.toList, pending := r.pending ++ [comment] }

def done (r : Reader) (rest : List Char) (isSound : Bool) : Trivia :=
  ⟨r.newline, r.pending, r.annotations, r.size, rest, isSound⟩

end Reader

def read (opening : Bool) : Mode → Reader → List Char → Trivia
  | .blank, r, '/' :: '/' :: cs => read opening (.line ['/', '/']) r.step.step cs
  | .blank, r, '/' :: '*' :: cs => read opening (.block ['*', '/']) r.step.step cs
  | .blank, r, c :: cs =>
    if isLineEnd c then read opening .blank r.lineEnd cs
    else if isBlank c then read opening .blank r.step cs
    else r.done (c :: cs) true
  | .blank, r, [] => r.done [] true
  | .line text, r, c :: cs =>
    if isLineEnd c then read opening .blank (r.lineComment opening text).lineEnd cs
    else read opening (.line (c :: text)) r.step cs
  | .line text, r, [] => (r.lineComment opening text).done [] true
  | .block text, r, '*' :: '/' :: cs => read opening .blank (r.step.step.blockComment ('/' :: '*' :: text)) cs
  | .block text, r, c :: cs =>
    read opening (.block (c :: text)) { r.step with newline := r.newline || isLineEnd c } cs
  | .block _, r, [] => r.done [] false

end Trivia

/-- The trivia at the start of a text; `first` says whether no token stands before. -/
def skipTrivia (first opening : Bool) (cs : List Char) : Trivia :=
  Trivia.read opening .blank { sawNewline := first } cs

/-! ## Tokens -/

structure Lexeme where
  token : Token
  rest : List Char
  isSound : Bool := true
  deriving Repr, DecidableEq

def Lexeme.malformed : Lexeme := ⟨.malformed, [], false⟩

def separatorsFit : List Char → Bool
  | [] => true
  | ['_'] => false
  | '_' :: '_' :: _ => false
  | _ :: cs => separatorsFit cs

/-- Digits with underscores between them: the digits, what follows, and whether the underscores stand right. -/
def spanDigits (isDigit : Char → Bool) (cs : List Char) : List Char × List Char × Bool :=
  let (run, rest) := cs.span (fun c => isDigit c || c == '_')
  (run.filter (· != '_'), rest, run.head? != some '_' && separatorsFit run)

/-- Whether a number may end before this text: neither a digit nor a word follows. -/
def endsNumber : List Char → Bool
  | [] => true
  | c :: _ => !(c.isDigit || Text.isWordStart c)

def baseValue (base exact : Nat) (digits : List Char) : Nat :=
  let value :=
    if digits.length ≤ exact then Number.ofDigits base digits
    else digits.foldl (fun n c => Number.roundNat (n * base + (Number.digitIn? base c).getD 0)) 0
  Number.nearestBits value 1

def intLexeme (written : List Char) (bits : Nat) (isSound : Bool) : List Char → Lexeme
  | 'n' :: rest => ⟨.bigint (String.ofList (written ++ ['n'])), rest, isSound && endsNumber rest⟩
  | rest => ⟨.number bits, rest, isSound && endsNumber rest⟩

def baseLexeme (mark : List Char) (base exact : Nat) (cs : List Char) : Lexeme :=
  let (digits, rest, fit) := spanDigits (fun c => (Number.digitIn? base c).isSome) cs
  intLexeme (mark ++ digits) (baseValue base exact digits) (fit && !digits.isEmpty) rest

def decimalBits (cs : List Char) : Nat :=
  match Number.readNumeral cs with
  | some (d, _) => d.magnitudeBits
  | none => 0

/-- An exponent part, if there is one: its text, what follows, and whether it is well formed. -/
def exponentPart (cs : List Char) : List Char × List Char × Bool :=
  match cs with
  | c :: rest =>
    if c = 'e' || c = 'E' then
      let (sign, body) :=
        match rest with
        | '+' :: r => (['+'], r)
        | '-' :: r => (['-'], r)
        | r => ([], r)
      let (digits, after, fit) := spanDigits Char.isDigit body
      (c :: sign ++ digits, after, fit && !digits.isEmpty)
    else ([], cs, true)
  | [] => ([], [], true)

def decimalLexeme (whole : List Char) (isSound : Bool) (cs : List Char) : Lexeme :=
  let (fraction, rest, fit) :=
    match cs with
    | '.' :: r =>
      let (digits, after, fit) := spanDigits Char.isDigit r
      ('.' :: digits, after, fit)
    | r => ([], r, true)
  let (exponent, rest, fit') := exponentPart rest
  ⟨.number (decimalBits (whole ++ fraction ++ exponent)), rest, isSound && fit && fit' && endsNumber rest⟩

/-- A number that starts with zero and another digit: octal, or decimal if a digit exceeds seven. -/
def legacyLexeme (cs : List Char) : Lexeme :=
  let (digits, rest) := cs.span Char.isDigit
  if digits.all (fun c => decide (c < '8')) then
    ⟨.number (baseValue 8 21 (digits.drop 1)), rest, endsNumber rest⟩
  else
    match rest with
    | '.' :: _ => decimalLexeme digits true rest
    | 'e' :: _ => decimalLexeme digits true rest
    | _ => ⟨.number (decimalBits digits), rest, endsNumber rest⟩

def numberLexeme (cs : List Char) : Lexeme :=
  match cs with
  | '0' :: 'x' :: r => baseLexeme ['0', 'x'] 16 16 r
  | '0' :: 'X' :: r => baseLexeme ['0', 'X'] 16 16 r
  | '0' :: 'o' :: r => baseLexeme ['0', 'o'] 8 21 r
  | '0' :: 'O' :: r => baseLexeme ['0', 'O'] 8 21 r
  | '0' :: 'b' :: r => baseLexeme ['0', 'b'] 2 64 r
  | '0' :: 'B' :: r => baseLexeme ['0', 'B'] 2 64 r
  | '0' :: 'n' :: r => ⟨.bigint "0n", r, endsNumber r⟩
  | '0' :: r =>
    if (r.head?.map Char.isDigit).getD false then legacyLexeme cs else decimalLexeme ['0'] true r
  | _ =>
    let (digits, rest, fit) := spanDigits Char.isDigit cs
    match rest with
    | 'n' :: _ => intLexeme digits 0 fit rest
    | _ => decimalLexeme digits fit rest

/-! ### Escapes -/

/-- A piece of a string value: a character, or a surrogate without a partner. -/
inductive Piece where
  | char (c : Char)
  | surrogate (n : Nat)
  deriving Repr, DecidableEq

namespace Piece

def ofPoint (n : Nat) : Piece := if 0xD800 ≤ n && n ≤ 0xDFFF then .surrogate n else .char (Char.ofNat n)

def isLone : Piece → Bool
  | surrogate _ => true
  | char _ => false

def marked : Piece → List Char
  | surrogate n => '\ufffd' :: Digest.hexDigits 4 n
  | char c => if c = '\ufffd' then '\ufffd' :: "fffd".toList else [c]

def plain : Piece → List Char
  | surrogate n => '\ufffd' :: Digest.hexDigits 4 n
  | char c => [c]

def valueOf (pieces : List Piece) : String × Bool :=
  let lone := pieces.any isLone
  (String.ofList (pieces.flatMap (if lone then marked else plain)), lone)

end Piece

def hexNumber? (count : Nat) (cs : List Char) : Option (Nat × List Char) :=
  let digits := cs.take count
  if digits.length = count && digits.all (fun c => (Number.digitIn? 16 c).isSome) then
    some (Number.ofDigits 16 digits, cs.drop count)
  else none

def bracedPoint? (cs : List Char) : Option (Nat × List Char) :=
  let (digits, rest) := cs.span (fun c => (Number.digitIn? 16 c).isSome)
  let n := Number.ofDigits 16 digits
  match rest with
  | '\x7d' :: after => if digits.isEmpty || n > 0x10FFFF then none else some (n, after)
  | _ => none

def unicodeEscape? (cs : List Char) : Option (Piece × List Char) :=
  match cs with
  | '\x7b' :: rest => (bracedPoint? rest).map (fun (n, after) => (Piece.ofPoint n, after))
  | _ =>
    match hexNumber? 4 cs with
    | none => none
    | some (n, rest) =>
      if 0xD800 ≤ n && n ≤ 0xDBFF then
        match rest with
        | '\\' :: 'u' :: more =>
          match hexNumber? 4 more with
          | some (m, after) =>
            if 0xDC00 ≤ m && m ≤ 0xDFFF then
              some (.char (Char.ofNat (0x10000 + (n - 0xD800) * 0x400 + (m - 0xDC00))), after)
            else some (.surrogate n, rest)
          | none => some (.surrogate n, rest)
        | _ => some (.surrogate n, rest)
      else some (Piece.ofPoint n, rest)

def octalEscape (first : Char) (cs : List Char) : Piece × List Char :=
  let isOctal := fun c => (Number.digitIn? 8 c).isSome
  let more := (cs.take (if first ≤ '3' then 2 else 1)).takeWhile isOctal
  (.char (Char.ofNat (Number.ofDigits 8 (first :: more))), cs.drop more.length)

def escape? (inTemplate : Bool) : List Char → Option (List Piece × List Char)
  | [] => none
  | c :: cs =>
    match c with
    | 'n' => some ([.char '\n'], cs)
    | 't' => some ([.char '\t'], cs)
    | 'r' => some ([.char '\r'], cs)
    | 'b' => some ([.char '\x08'], cs)
    | 'f' => some ([.char '\x0c'], cs)
    | 'v' => some ([.char '\x0b'], cs)
    | 'x' => (hexNumber? 2 cs).map (fun (n, rest) => ([Piece.ofPoint n], rest))
    | 'u' => (unicodeEscape? cs).map (fun (p, rest) => ([p], rest))
    | '\r' => some ([], match cs with | '\n' :: rest => rest | rest => rest)
    | _ =>
      if isLineEnd c then some ([], cs)
      else if c.isDigit then
        if c = '0' && !(cs.head?.map Char.isDigit).getD false then some ([.char '\x00'], cs)
        else if inTemplate then none
        else if c < '8' then
          let (p, rest) := octalEscape c cs
          some ([p], rest)
        else some ([.char c], cs)
      else some ([.char c], cs)

/-! ### Strings, templates, expressions and words -/

def readString (quote : Char) : Nat → List Piece → List Char → Option (List Piece × List Char)
  | 0, _, _ => none
  | fuel + 1, acc, cs =>
    match cs with
    | [] => none
    | '\\' :: rest =>
      match escape? false rest with
      | some (pieces, after) => readString quote fuel (pieces.reverse ++ acc) after
      | none => none
    | c :: rest =>
      if c = quote then some (acc.reverse, rest)
      else if c = '\n' || c = '\r' then none
      else readString quote fuel (.char c :: acc) rest

def stringLexeme (quote : Char) (cs : List Char) : Lexeme :=
  match readString quote (cs.length + 1) [] cs with
  | some (pieces, rest) =>
    let (value, lone) := Piece.valueOf pieces
    ⟨.string value lone, rest, true⟩
  | none => .malformed

def unifyLines : List Char → List Char
  | '\r' :: '\n' :: cs => '\n' :: unifyLines cs
  | '\r' :: cs => '\n' :: unifyLines cs
  | c :: cs => c :: unifyLines cs
  | [] => []

/-- A piece of a template behind the backquote or the brace before it: its pieces in reverse, or `none` once an escape
was malformed; the characters as written, in reverse; whether the template ends; what follows. -/
def readTemplate : Nat → Option (List Piece) → List Char → List Char →
    Option (Option (List Piece) × List Char × Bool × List Char)
  | 0, _, _, _ => none
  | fuel + 1, acc, raw, cs =>
    match cs with
    | [] => none
    | '\x60' :: rest => some (acc, raw, true, rest)
    | '$' :: '\x7b' :: rest => some (acc, raw, false, rest)
    | '\\' :: rest =>
      match escape? true rest with
      | some (pieces, after) =>
        let written := rest.take (rest.length - after.length)
        readTemplate fuel (acc.map (pieces.reverse ++ ·)) (written.reverse ++ '\\' :: raw) after
      | none =>
        match rest with
        | [] => none
        | c :: after => readTemplate fuel none (c :: '\\' :: raw) after
    | '\r' :: '\n' :: rest => readTemplate fuel (acc.map (.char '\n' :: ·)) ('\n' :: raw) rest
    | '\r' :: rest => readTemplate fuel (acc.map (.char '\n' :: ·)) ('\n' :: raw) rest
    | c :: rest => readTemplate fuel (acc.map (.char c :: ·)) (c :: raw) rest

def templateLexeme (cs : List Char) : Lexeme :=
  match readTemplate (cs.length + 1) (some []) [] cs with
  | some (acc, raw, isLast, rest) =>
    let raw := String.ofList (unifyLines raw.reverse)
    ⟨.template raw (acc.map (fun pieces => (Piece.valueOf pieces.reverse).1)) isLast, rest, true⟩
  | none => .malformed

/-- The body of a regular expression behind its opening slash, in reverse; a slash in a class does not end it. -/
def readRegex : Bool → List Char → List Char → Option (List Char × List Char)
  | _, _, [] => none
  | inClass, acc, '\\' :: c :: cs => if isLineEnd c then none else readRegex inClass (c :: '\\' :: acc) cs
  | inClass, acc, c :: cs =>
    if isLineEnd c then none
    else if c = '/' && !inClass then some (acc, cs)
    else if c = '[' then readRegex true (c :: acc) cs
    else if c = ']' then readRegex false (c :: acc) cs
    else readRegex inClass (c :: acc) cs

def regexFlags : List Char := "dgimsuvy".toList

def regexLexeme (cs : List Char) : Lexeme :=
  match readRegex false [] cs with
  | some (body, rest) =>
    let (flags, after) := rest.span (fun c => c.isAlphanum || c == '$' || c == '_')
    let text := String.ofList ('/' :: body.reverse ++ '/' :: flags)
    ⟨.regex text, after, flags.all regexFlags.contains && flags.eraseDups.length == flags.length⟩
  | none => .malformed

/-- The character at the start of a text as part of a word: the character itself, or one written as an escape. -/
def wordChar? (cs : List Char) : Option (Char × Bool × List Char) :=
  match cs with
  | '\\' :: 'u' :: rest =>
    match unicodeEscape? rest with
    | some (.char c, after) => some (c, true, after)
    | _ => none
  | '\\' :: _ => none
  | c :: rest => some (c, false, rest)
  | [] => none

/-- The rest of a word, what was read so far in reverse; `none` if an escape in it is malformed. -/
def readWord : Nat → List Char → Bool → List Char → Option (String × Bool × List Char)
  | 0, _, _, _ => none
  | fuel + 1, acc, escaped, cs =>
    match wordChar? cs with
    | none => if cs.isEmpty then some (String.ofList acc.reverse, escaped, cs) else none
    | some (c, byEscape, rest) =>
      let fits := if acc.isEmpty then Text.isWordStart c else Text.isWordPart c
      if fits then readWord fuel (c :: acc) (escaped || byEscape) rest
      else if byEscape || acc.isEmpty then none
      else some (String.ofList acc.reverse, escaped, cs)

def wordLexeme (cs : List Char) : Lexeme :=
  match readWord (cs.length + 1) [] false cs with
  | some (name, escaped, rest) => ⟨.word name escaped, rest, true⟩
  | none => .malformed

def privateLexeme (cs : List Char) : Lexeme :=
  match readWord (cs.length + 1) [] false cs with
  | some (name, _, rest) => ⟨.privateName name, rest, !name.isEmpty⟩
  | none => .malformed

/-- The punctuator at the start of a text; a `?` before a number is no part of `?.`. -/
def punctLexeme (cs : List Char) : Lexeme :=
  let hit := punctuators.findSome? (fun p => (p.toList.isPrefixOf? cs).map (fun rest => (p, rest)))
  match hit with
  | some ("?.", c :: rest) => if c.isDigit then ⟨.punct "?", '.' :: c :: rest, true⟩ else ⟨.punct "?.", c :: rest, true⟩
  | some (p, rest) => ⟨.punct p, rest, true⟩
  | none => .malformed

/-- The token at the start of a text without trivia in front; `first` says whether the text is the whole script. -/
def lexeme (first : Bool) (cs : List Char) : Lexeme :=
  match cs with
  | [] => ⟨.finish, [], true⟩
  | '#' :: '!' :: rest => if first then ⟨.hashbang, rest.dropWhile (fun c => !isLineEnd c), true⟩ else .malformed
  | '#' :: rest => privateLexeme rest
  | '"' :: rest => stringLexeme '"' rest
  | '\'' :: rest => stringLexeme '\'' rest
  | '\x60' :: rest => templateLexeme rest
  | '.' :: d :: _ => if d.isDigit then decimalLexeme [] true cs else punctLexeme cs
  | c :: _ =>
    if c.isDigit then numberLexeme cs
    else if c = '\\' || Text.isWordStart c then wordLexeme cs
    else punctLexeme cs

end ReactiveTemplate.Script
