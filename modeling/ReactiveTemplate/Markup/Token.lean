import ReactiveTemplate.Markup.Reference
/-!
# Token — the tags, texts and comments of an HTML source

`tokens` cuts a source into start tags, end tags, texts, comments and doctypes.
-/
namespace ReactiveTemplate.Markup

inductive Token where
  | startTag (name : String) (attributes : List (String × String)) (selfClosing : Bool)
  | endTag (name : String)
  | text (s : String)
  | comment (s : String)
  | doctype (name : Option String)
  /-- A NUL in text, or a tag without a name: it stands for nothing and is passed over. -/
  | ignored
  | truncated (reason : String)
  deriving Repr, DecidableEq

namespace Lexer

inductive Content where
  | normal
  /-- References are replaced, and only the end tag of the element ends the text. -/
  | escapable
  | verbatim
  | script
  deriving Repr, DecidableEq, Inhabited

/-- How deep a script text stands in comments: `twice` is a script tag inside a comment. -/
inductive Escape where
  | none
  | once
  | twice
  deriving Repr, DecidableEq, Inhabited

/-- A tag that is being read; its name is in reverse, its attribute values are not decoded. -/
structure Draft where
  closing : Bool
  name : List Char
  attributes : List (String × List Char) := []
  deriving Repr, DecidableEq

inductive Quote where
  | double
  | single
  | blank
  deriving Repr, DecidableEq

inductive DoctypePart where
  | name (seen : List Char)
  | keyword (isPublic : Bool)
  | beforeIdentifier (isPublic : Bool)
  | identifier (isPublic : Bool) (quote : Char)
  | behindIdentifier (isPublic : Bool)
  | between
  | bogus
  deriving Repr, DecidableEq

inductive State where
  | content (escape : Escape)
  | tagOpen
  | endTagOpen
  | tagName (tag : Draft)
  | beforeName (tag : Draft)
  | name (tag : Draft) (name : List Char)
  | afterName (tag : Draft) (name : List Char)
  | beforeValue (tag : Draft) (name : List Char)
  | value (quote : Quote) (tag : Draft) (name value : List Char)
  | afterValue (tag : Draft)
  | selfClosing (tag : Draft)
  | rawLessThan (escape : Escape)
  | rawEndTagOpen (escape : Escape)
  | rawEndTagName (escape : Escape) (letters : List Char)
  | escapeStart
  | escapeStartDash
  | escapedDash (escape : Escape)
  | escapedDashDash (escape : Escape)
  | twiceStart (letters : List Char)
  | twiceEnd (letters : List Char)
  | markupDeclaration (seen : List Char)
  | bogusComment (text : List Char)
  | commentStart
  | commentStartDash
  | comment (text : List Char)
  | commentEndDash (text : List Char)
  | commentEnd (text : List Char)
  | commentEndBang (text : List Char)
  | doctype
  | beforeDoctypeName
  | doctypeName (name : List Char)
  | behindDoctypeName (name : Option (List Char)) (part : DoctypePart)
  deriving Repr, DecidableEq

end Lexer

/-- The reader: where it stands, how it reads text, the text not yet handed out, in reverse, the name of the last start
tag, and the tokens handed out, in reverse. -/
structure Lexer where
  state : Lexer.State := .content .none
  content : Lexer.Content := .normal
  pending : List Char := []
  lastStart : String := ""
  done : List Token := []
  deriving Repr, DecidableEq

namespace Lexer

def isSpace (c : Char) : Bool := c == '\t' || c == '\n' || c == '\x0c' || c == ' '

def shown (c : Char) : Char := if c = '\x00' then '\ufffd' else c

def Content.decode : Content → List Char → List Char
  | .normal, cs | .escapable, cs => Reference.decode false cs
  | _, cs => cs

def contentOf (tag : String) : Content :=
  if tag = "script" then .script
  else if tag = "style" then .verbatim
  else if tag = "textarea" || tag = "title" then .escapable
  else .normal

def goto (l : Lexer) (state : State) : Lexer := { l with state := state }

def push (l : Lexer) (c : Char) : Lexer := { l with pending := c :: l.pending }

def pushAll (l : Lexer) (cs : List Char) : Lexer := { l with pending := cs.reverse ++ l.pending }

def flush (l : Lexer) : Lexer :=
  match l.content.decode l.pending.reverse with
  | [] => { l with pending := [] }
  | cs => { l with pending := [], done := .text (String.ofList cs) :: l.done }

def emit (l : Lexer) (t : Token) : Lexer :=
  let l := l.flush
  { l with state := .content .none, done := t :: l.done }

def Draft.add (tag : Draft) (name value : List Char) : Draft :=
  let name := String.ofList name.reverse
  if tag.attributes.any (fun a => a.1 == name) then tag
  else { tag with attributes := tag.attributes ++ [(name, value.reverse)] }

def emitTag (l : Lexer) (tag : Draft) (selfClosing : Bool) : Lexer :=
  let name := String.ofList tag.name.reverse
  if tag.closing then { l.emit (.endTag name) with content := .normal }
  else
    let attributes := tag.attributes.map (fun a => (a.1, String.ofList (Reference.decode true a.2)))
    { l.emit (.startTag name attributes selfClosing) with
      content := if selfClosing then .normal else contentOf name
      lastStart := name }

/-! ## Text -/

def stepContent (l : Lexer) (escape : Escape) (c : Char) : Lexer :=
  match l.content, escape with
  | .normal, _ =>
    if c = '<' then l.goto .tagOpen
    else if c = '\x00' then l.emit .ignored
    else (l.push c).goto (.content .none)
  | _, .none => if c = '<' then l.goto (.rawLessThan .none) else (l.push (shown c)).goto (.content .none)
  | _, .once =>
    if c = '-' then (l.push c).goto (.escapedDash .once)
    else if c = '<' then l.goto (.rawLessThan .once)
    else (l.push (shown c)).goto (.content .once)
  | _, .twice =>
    if c = '-' then (l.push c).goto (.escapedDash .twice)
    else if c = '<' then (l.push c).goto (.rawLessThan .twice)
    else (l.push (shown c)).goto (.content .twice)

def stepRawLessThan (l : Lexer) (escape : Escape) (c : Char) : Lexer :=
  match escape with
  | .none =>
    if c = '/' then l.goto (.rawEndTagOpen .none)
    else if c = '!' && l.content == .script then (l.pushAll ['<', '!']).goto .escapeStart
    else (l.push '<').stepContent .none c
  | .once =>
    if c = '/' then l.goto (.rawEndTagOpen .once)
    else if c.isAlpha then (l.pushAll ['<', c]).goto (.twiceStart [c.toLower])
    else (l.push '<').stepContent .once c
  | .twice => if c = '/' then (l.push c).goto (.twiceEnd []) else l.stepContent .twice c

def stepRawEndTagName (l : Lexer) (escape : Escape) (letters : List Char) (c : Char) : Lexer :=
  let name := letters.map Char.toLower
  let tag : Draft := ⟨true, name, []⟩
  let fits := String.ofList name.reverse == l.lastStart
  if fits && isSpace c then l.goto (.beforeName tag)
  else if fits && c = '/' then l.goto (.selfClosing tag)
  else if fits && c = '>' then l.emitTag tag false
  else if c.isAlpha then l.goto (.rawEndTagName escape (c :: letters))
  else (l.pushAll ('<' :: '/' :: letters.reverse)).stepContent escape c

def stepEscapedDash (l : Lexer) (twoDashes : Bool) (escape : Escape) (c : Char) : Lexer :=
  if c = '-' then (l.push c).goto (.escapedDashDash escape)
  else if c = '<' then (if escape = .twice then l.push c else l).goto (.rawLessThan escape)
  else if twoDashes && c = '>' then (l.push c).goto (.content .none)
  else (l.push (shown c)).goto (.content escape)

def endsWord (c : Char) : Bool := isSpace c || c == '/' || c == '>'

def stepTwice (l : Lexer) (starts : Bool) (letters : List Char) (c : Char) : Lexer :=
  let inside : Escape := if starts then .twice else .once
  let outside : Escape := if starts then .once else .twice
  if endsWord c then
    (l.push c).goto (.content (if letters.reverse = "script".toList then inside else outside))
  else if c.isAlpha then
    (l.push c).goto (if starts then .twiceStart (c.toLower :: letters) else .twiceEnd (c.toLower :: letters))
  else l.stepContent outside c

/-! ## Tags -/

def stepTagOpen (l : Lexer) (c : Char) : Lexer :=
  if c = '!' then l.goto (.markupDeclaration [])
  else if c = '/' then l.goto .endTagOpen
  else if c = '?' then l.goto (.bogusComment ['?'])
  else if c.isAlpha then l.goto (.tagName ⟨false, [c.toLower], []⟩)
  else (l.push '<').stepContent .none c

def stepEndTagOpen (l : Lexer) (c : Char) : Lexer :=
  if c = '>' then l.emit .ignored
  else if c.isAlpha then l.goto (.tagName ⟨true, [c.toLower], []⟩)
  else l.goto (.bogusComment [shown c])

def stepTagName (l : Lexer) (tag : Draft) (c : Char) : Lexer :=
  if isSpace c then l.goto (.beforeName tag)
  else if c = '/' then l.goto (.selfClosing tag)
  else if c = '>' then l.emitTag tag false
  else l.goto (.tagName { tag with name := (shown c).toLower :: tag.name })

def stepBeforeName (l : Lexer) (tag : Draft) (c : Char) : Lexer :=
  if isSpace c then l.goto (.beforeName tag)
  else if c = '/' then l.goto (.selfClosing tag)
  else if c = '>' then l.emitTag tag false
  else l.goto (.name tag [(shown c).toLower])

def stepName (l : Lexer) (tag : Draft) (name : List Char) (c : Char) : Lexer :=
  if isSpace c then l.goto (.afterName tag name)
  else if c = '/' then l.goto (.selfClosing (tag.add name []))
  else if c = '=' then l.goto (.beforeValue tag name)
  else if c = '>' then l.emitTag (tag.add name []) false
  else l.goto (.name tag ((shown c).toLower :: name))

def stepAfterName (l : Lexer) (tag : Draft) (name : List Char) (c : Char) : Lexer :=
  if isSpace c then l.goto (.afterName tag name)
  else if c = '/' then l.goto (.selfClosing (tag.add name []))
  else if c = '=' then l.goto (.beforeValue tag name)
  else if c = '>' then l.emitTag (tag.add name []) false
  else l.goto (.name (tag.add name []) [(shown c).toLower])

def stepValue (l : Lexer) (quote : Quote) (tag : Draft) (name value : List Char) (c : Char) : Lexer :=
  match quote with
  | .double =>
    if c = '"' then l.goto (.afterValue (tag.add name value)) else l.goto (.value quote tag name (shown c :: value))
  | .single =>
    if c = '\'' then l.goto (.afterValue (tag.add name value)) else l.goto (.value quote tag name (shown c :: value))
  | .blank =>
    if isSpace c then l.goto (.beforeName (tag.add name value))
    else if c = '>' then l.emitTag (tag.add name value) false
    else l.goto (.value quote tag name (shown c :: value))

def stepBeforeValue (l : Lexer) (tag : Draft) (name : List Char) (c : Char) : Lexer :=
  if isSpace c then l.goto (.beforeValue tag name)
  else if c = '"' then l.goto (.value .double tag name [])
  else if c = '\'' then l.goto (.value .single tag name [])
  else if c = '>' then l.emitTag (tag.add name []) false
  else l.stepValue .blank tag name [] c

def stepAfterValue (l : Lexer) (tag : Draft) (c : Char) : Lexer :=
  l.stepBeforeName tag c

def stepSelfClosing (l : Lexer) (tag : Draft) (c : Char) : Lexer :=
  if c = '>' then l.emitTag tag true else l.stepBeforeName tag c

/-! ## Comments and doctypes -/

def emitComment (l : Lexer) (text : List Char) : Lexer := l.emit (.comment (String.ofList text.reverse))

def emitDoctype (l : Lexer) (name : Option (List Char)) : Lexer :=
  l.emit (.doctype (name.map (fun n => String.ofList n.reverse)))

def stepBogusComment (l : Lexer) (text : List Char) (c : Char) : Lexer :=
  if c = '>' then l.emitComment text else l.goto (.bogusComment (shown c :: text))

/-- Behind `<!`: two dashes or the word `doctype` in any case, of which `seen` has been read, in reverse. -/
def stepMarkupDeclaration (l : Lexer) (seen : List Char) (c : Char) : Lexer :=
  let now := (c :: seen).reverse
  let lowered := now.map Char.toLower
  if now = ['-', '-'] then l.goto .commentStart
  else if lowered = "doctype".toList then l.goto .doctype
  else if now.isPrefixOf ['-', '-'] || lowered.isPrefixOf "doctype".toList then l.goto (.markupDeclaration (c :: seen))
  else l.stepBogusComment seen c

def stepComment (l : Lexer) (text : List Char) (c : Char) : Lexer :=
  if c = '-' then l.goto (.commentEndDash text) else l.goto (.comment (shown c :: text))

def stepCommentStart (l : Lexer) (c : Char) : Lexer :=
  if c = '-' then l.goto .commentStartDash
  else if c = '>' then l.emitComment []
  else l.goto (.comment [shown c])

def stepCommentStartDash (l : Lexer) (c : Char) : Lexer :=
  if c = '-' then l.goto (.commentEnd [])
  else if c = '>' then l.emitComment []
  else l.goto (.comment [shown c, '-'])

def stepCommentEndDash (l : Lexer) (text : List Char) (c : Char) : Lexer :=
  if c = '-' then l.goto (.commentEnd text) else l.goto (.comment (shown c :: '-' :: text))

def stepCommentEnd (l : Lexer) (text : List Char) (c : Char) : Lexer :=
  if c = '>' then l.emitComment text
  else if c = '!' then l.goto (.commentEndBang text)
  else if c = '-' then l.goto (.commentEnd ('-' :: text))
  else l.goto (.comment (shown c :: '-' :: '-' :: text))

def stepCommentEndBang (l : Lexer) (text : List Char) (c : Char) : Lexer :=
  if c = '-' then l.goto (.commentEndDash ('!' :: '-' :: '-' :: text))
  else if c = '>' then l.emitComment text
  else l.goto (.comment (shown c :: '!' :: '-' :: '-' :: text))

def stepBeforeDoctypeName (l : Lexer) (c : Char) : Lexer :=
  if isSpace c then l.goto .beforeDoctypeName
  else if c = '>' then l.emitDoctype none
  else l.goto (.doctypeName [(shown c).toLower])

def stepDoctype (l : Lexer) (c : Char) : Lexer :=
  l.stepBeforeDoctypeName c

def stepDoctypeName (l : Lexer) (name : List Char) (c : Char) : Lexer :=
  if isSpace c then l.goto (.behindDoctypeName (some name) (.name []))
  else if c = '>' then l.emitDoctype (some name)
  else l.goto (.doctypeName ((shown c).toLower :: name))

def DoctypePart.next (part : DoctypePart) (c : Char) : DoctypePart :=
  let quoted := c == '"' || c == '\''
  match part with
  | .name seen =>
    let now := (c.toLower :: seen).reverse
    if seen.isEmpty && isSpace c then part
    else if now = "public".toList then .keyword true
    else if now = "system".toList then .keyword false
    else if now.isPrefixOf "public".toList || now.isPrefixOf "system".toList then .name (c.toLower :: seen)
    else .bogus
  | .keyword isPublic =>
    if isSpace c then .beforeIdentifier isPublic else if quoted then .identifier isPublic c else .bogus
  | .beforeIdentifier isPublic => if isSpace c then part else if quoted then .identifier isPublic c else .bogus
  | .identifier isPublic quote => if c = quote then .behindIdentifier isPublic else part
  | .behindIdentifier true => if isSpace c then .between else if quoted then .identifier false c else .bogus
  | .behindIdentifier false => if isSpace c then part else .bogus
  | .between => if isSpace c then part else if quoted then .identifier false c else .bogus
  | .bogus => .bogus

def stepBehindDoctypeName (l : Lexer) (name : Option (List Char)) (part : DoctypePart) (c : Char) : Lexer :=
  if c = '>' then l.emitDoctype name else l.goto (.behindDoctypeName name (part.next c))

/-! ## The reader as a whole -/

def step (l : Lexer) (c : Char) : Lexer :=
  match l.state with
  | .content escape => l.stepContent escape c
  | .tagOpen => l.stepTagOpen c
  | .endTagOpen => l.stepEndTagOpen c
  | .tagName tag => l.stepTagName tag c
  | .beforeName tag => l.stepBeforeName tag c
  | .name tag name => l.stepName tag name c
  | .afterName tag name => l.stepAfterName tag name c
  | .beforeValue tag name => l.stepBeforeValue tag name c
  | .value quote tag name value => l.stepValue quote tag name value c
  | .afterValue tag => l.stepAfterValue tag c
  | .selfClosing tag => l.stepSelfClosing tag c
  | .rawLessThan escape => l.stepRawLessThan escape c
  | .rawEndTagOpen escape =>
    if c.isAlpha then l.goto (.rawEndTagName escape [c]) else (l.pushAll ['<', '/']).stepContent escape c
  | .rawEndTagName escape letters => l.stepRawEndTagName escape letters c
  | .escapeStart => if c = '-' then (l.push c).goto .escapeStartDash else l.stepContent .none c
  | .escapeStartDash => if c = '-' then (l.push c).goto (.escapedDashDash .once) else l.stepContent .none c
  | .escapedDash escape => l.stepEscapedDash false escape c
  | .escapedDashDash escape => l.stepEscapedDash true escape c
  | .twiceStart letters => l.stepTwice true letters c
  | .twiceEnd letters => l.stepTwice false letters c
  | .markupDeclaration seen => l.stepMarkupDeclaration seen c
  | .bogusComment text => l.stepBogusComment text c
  | .commentStart => l.stepCommentStart c
  | .commentStartDash => l.stepCommentStartDash c
  | .comment text => l.stepComment text c
  | .commentEndDash text => l.stepCommentEndDash text c
  | .commentEnd text => l.stepCommentEnd text c
  | .commentEndBang text => l.stepCommentEndBang text c
  | .doctype => l.stepDoctype c
  | .beforeDoctypeName => l.stepBeforeDoctypeName c
  | .doctypeName name => l.stepDoctypeName name c
  | .behindDoctypeName name part => l.stepBehindDoctypeName name part c

def run (l : Lexer) (cs : List Char) : Lexer := cs.foldl step l

def truncate (l : Lexer) (reason : String) : Lexer := l.emit (.truncated reason)

def unexpectedEnd : String := "Unexpected EOF"

/-- The end of the source inside a text: of a numeric reference, or of a comment in a script. -/
def finishContent (l : Lexer) (escape : Escape) : Lexer :=
  let cut :=
    match l.content with
    | .normal | .escapable => Reference.cutShort? l.pending.reverse
    | _ => none
  match escape, cut with
  | .none, some reason => l.truncate reason
  | .none, none => l.flush
  | _, _ => l.truncate unexpectedEnd

def finish (l : Lexer) : Lexer :=
  match l.state with
  | .content escape => l.finishContent escape
  | .rawLessThan .twice => l.finishContent .twice
  | .rawLessThan escape => (l.push '<').finishContent escape
  | .rawEndTagOpen escape => (l.pushAll ['<', '/']).finishContent escape
  | .rawEndTagName escape letters => (l.pushAll ('<' :: '/' :: letters.reverse)).finishContent escape
  | .escapeStart => l.finishContent .once
  | .escapeStartDash => l.finishContent .none
  | .twiceStart _ => l.finishContent .twice
  | .twiceEnd _ => l.finishContent .twice
  | .value _ _ _ value => l.truncate ((Reference.cutShort? value.reverse).getD unexpectedEnd)
  | .markupDeclaration text | .bogusComment text => l.emitComment text
  | .behindDoctypeName name .bogus => l.emitDoctype name
  | .behindDoctypeName name (.name (_ :: _)) => l.emitDoctype name
  | _ => l.truncate unexpectedEnd

end Lexer

def unifyLines : List Char → List Char
  | '\r' :: '\n' :: cs => '\n' :: unifyLines cs
  | '\r' :: cs => '\n' :: unifyLines cs
  | c :: cs => c :: unifyLines cs
  | [] => []

def dropMark : List Char → List Char
  | '\ufeff' :: cs => cs
  | cs => cs

def tokens (source : String) : List Token :=
  (({} : Lexer).run (unifyLines (dropMark source.toList))).finish.done.reverse

end ReactiveTemplate.Markup
