import ReactiveTemplate.Script.Parser.Basic
/-!
# Function — patterns, functions and classes

The readers of what functions and classes are made of: names of properties, patterns with defaults, parameters, bodies
and class members.
-/
namespace ReactiveTemplate.Script.Parser

def expression (g : Grammar) : Parser Node := do
  let start ← position
  let first ← g.assignment
  if ← on "," then
    let items ← repeatFrom [first] (fun items => do
      if ← eat "," then
        let n ← g.assignment
        return .inl (items ++ [n])
      else return .inr items)
    close start .sequence items
  else return first

/-! ## Patterns -/

def propertyKey (g : Grammar) (allowsPrivate : Bool) : Parser (Node × Bool) := do
  if ← eat "[" then
    let key ← allowingIn g.assignment
    expect "]"
    return (key, true)
  match (← get).token with
  | .word _ _ => return (← plainName, false)
  | .privateName _ => if allowsPrivate then return (← privateName, false) else failure
  | _ => return (← nameLiteral, false)

def withDefault (g : Grammar) (start : Nat) (pattern : Node) : Parser Node := do
  if ← eat "=" then
    let fallback ← allowingIn g.assignment
    close start .defaulted [pattern, fallback]
  else return pattern

def patternElement (g : Grammar) : Parser Node := do
  let start ← position
  let p ← g.pattern
  withDefault g start p

def restPattern (g : Grammar) (anyPattern : Bool) : Parser Node := do
  let start ← position
  expect "..."
  let p ← g.pattern
  flawIf (!anyPattern && p.binding?.isNone)
  if ← on "=" then failure
  close start .rest [p]

def hole : Parser Node := do
  let start ← position
  return .node .hole ⟨start, start⟩ []

def arrayPatternElement (g : Grammar) : Parser Node := do
  if ← on "," then hole else patternElement g

def objectPatternProperty (g : Grammar) : Parser Node := do
  let start ← position
  let first := (← get).token
  let (key, computed) ← propertyKey g false
  let isShorthand := !computed && isBinding first && !(← on ":")
  if isShorthand then
    match key.form with
    | .name name =>
      checkBinding (← read) name
      let value ← withDefault g start (.node (.binding name) key.span [])
      close start (.patternProperty true false) [key, value]
    | _ => failure
  else
    expect ":"
    let value ← patternElement g
    close start (.patternProperty false computed) [key, value]

def pattern (g : Grammar) : Parser Node := do
  let start ← position
  if ← eat "[" then
    let items ← delimitedWithRest "]" (arrayPatternElement g) (restPattern g true)
    expect "]"
    close start .arrayPattern items
  else if ← eat "\x7b" then
    let items ← delimitedWithRest "\x7d" (objectPatternProperty g) (restPattern g false)
    expect "\x7d"
    close start .objectPattern items
  else bindingName

/-! ## Functions -/

def parameters (g : Grammar) : Parser Node := do
  let start ← position
  expect "("
  let items ← delimitedWithRest ")" (patternElement g) (restPattern g true)
  expect ")"
  close start .parameters items

def directive? (c : Cursor) (statement : Node) : Option Node :=
  match statement with
  | .node .expression span [.node (.string _ _) _ _] =>
    match c.token with
    | .string _ _ =>
      let written := c.here.take (c.stop - c.start)
      some (.node (.directive (String.ofList ((written.drop 1).take (written.length - 2)))) span [])
    | _ => none
  | _ => none

/-- The statements up to a closing brace or the end of the text; `atHead` where directives may come first. -/
def statementList (g : Grammar) (atHead : Bool) : Parser (List Node) :=
  repeatFrom ([], atHead) (fun ((items, atHead) : List Node × Bool) => do
    let c ← get
    if c.token.is "\x7d" || c.token == .finish then return .inr items
    let n ← g.statement false
    match (if atHead then directive? c n else none) with
    | some d => return .inl (items ++ [d], true)
    | none => return .inl (items ++ [n], false))

def functionMode (isAsync isGenerator : Bool) : Mode where
  isAwait := isAsync
  isYield := isGenerator
  inFunction := true

def functionBody (g : Grammar) : Parser Node := do
  let start ← position
  expect "\x7b"
  let items ← within (fun m => { m with inFunction := true }) (statementList g true)
  expect "\x7d"
  close start .body items

def functionTail (g : Grammar) (start : Nat) (isExpression isAsync isGenerator : Bool) (name : Node) : Parser Node := do
  let (params, body) ← within (fun _ => functionMode isAsync isGenerator) (do
    let params ← parameters g
    let body ← functionBody g
    return (params, body))
  close start (.function isExpression isAsync isGenerator) [name, params, body]

/-- The name of a function; the name of a function expression belongs to the function itself. -/
def functionName (isExpression isAsync isGenerator needsName : Bool) : Parser Node := do
  let start ← position
  if isBinding (← get).token then
    let name ← word
    let outer ← read
    checkBinding (if isExpression then functionMode isAsync isGenerator else outer) name
    close start (.binding name)
  else if needsName then failure
  else absent

def functionFrom (g : Grammar) (start : Nat) (isExpression isAsync needsName : Bool) : Parser Node := do
  expect "function"
  let isGenerator ← eat "*"
  let name ← functionName isExpression isAsync isGenerator needsName
  functionTail g start isExpression isAsync isGenerator name

def onAsyncFunction : Parser Bool := do
  let next ← peek
  return (← on "async") && next.token.is "function" && !next.newline

def checkAccessor (member : Member) (function : Node) : Parser Unit :=
  let items := (function.part 1).parts
  match member with
  | .getter => flawIf (!items.isEmpty)
  | .setter => flawIf (match items with | [p] => p.form == .rest | _ => true)
  | _ => pure ()

def methodFunction (g : Grammar) (isAsync isGenerator : Bool) : Parser Node := do
  functionTail g (← position) true isAsync isGenerator (← absent)

/-! ## Classes -/

def followsModifier (t : Token) : Bool :=
  t.isWord || t.isNameLiteral || ["[", "*", "\x7b", "..."].any t.is ||
    (match t with | .privateName _ => true | _ => false)

def eatModifier (modifier : String) (sameLine : Bool) : Parser Bool := do
  let next ← peek
  if (← on modifier) && followsModifier next.token && !(sameLine && next.newline) then
    advance
    return true
  else return false

def decorators (g : Grammar) : Parser Node := do
  let start ← position
  let items ← repeatFrom [] (fun items => do
    if ← eat "@" then
      let e ← within (fun m => { m with inDecorator := true }) g.leftSide
      return .inl (items ++ [e])
    else return .inr items)
  close start (.decorators []) items

def memberWords : List String :=
  ["static", "accessor", "async", "declare", "readonly", "abstract", "override", "private", "public", "protected"]

def wordsBehind : String → List String
  | "private" | "public" | "protected" =>
    ["private", "public", "protected", "override", "static", "accessor", "readonly", "async"]
  | "static" => ["readonly", "async", "accessor", "override"]
  | "override" => ["override", "readonly", "accessor", "async"]
  | "abstract" => ["abstract", "override", "accessor"]
  | word => [word]

def modifiers : Parser (List String) :=
  repeatFrom [] (fun words => do
    let next ← peek
    match (← get).token.symbol?.filter memberWords.contains with
    | some word =>
      if word == "static" && (next.token.is "\x7b" || words.contains "static") then return .inr words
      else if ← eatModifier word (word != "static") then
        flawIf (words.any (wordsBehind word).contains)
        return .inl (words ++ [word])
      else return .inr words
    | none => return .inr words)

def memberName? (key : Node) (computed : Bool) : Option String :=
  match key.form with
  | .name text => if computed then none else some text
  | .string value _ => if computed then none else some value
  | _ => none

def checkMethodName (key : Node) (computed isStatic : Bool) (isPlain : Bool) : Parser Unit :=
  let name := memberName? key computed
  flawIf ((isStatic && name == some "prototype") || (!isStatic && name == some "constructor" && !isPlain) ||
    key.form == .privateName "constructor")

def checkFieldName (key : Node) (computed isStatic : Bool) : Parser Unit :=
  let name := memberName? key computed
  flawIf ((isStatic && name == some "prototype") || name == some "constructor"
    || key.form == .privateName "constructor")

def methodMember (key : Node) (computed isStatic : Bool) : Member :=
  if !isStatic && memberName? key computed == some "constructor" then .creator else .method

def withWords (marks : Node) (words : List String) : Node := .node (.decorators words) marks.span marks.parts

def checkPrivacy (key : Node) (words : List String) : Parser Unit :=
  flawIf ((match key.form with | .privateName _ => true | _ => false) &&
    words.any ["private", "public", "protected"].contains)

def classAccessor (g : Grammar) (start : Nat) (marks : Node) (words : List String) (member : Member) : Parser Node := do
  let isStatic := words.contains "static"
  let (key, computed) ← propertyKey g true
  checkPrivacy key words
  checkMethodName key computed isStatic false
  flawIf (words.any ["readonly", "async"].contains)
  let function ← methodFunction g false false
  checkAccessor member function
  close start (.method member isStatic computed) [withWords marks words, key, function]

def classMethod (g : Grammar) (start : Nat) (marks : Node) (words : List String) (isGenerator computed : Bool)
    (key : Node) : Parser Node := do
  let isStatic := words.contains "static"
  let isAsync := words.contains "async"
  checkMethodName key computed isStatic (!isAsync && !isGenerator)
  flawIf (words.contains "readonly")
  let function ← methodFunction g isAsync isGenerator
  close start (.method (methodMember key computed isStatic) isStatic computed) [withWords marks words, key, function]

def classField (g : Grammar) (start : Nat) (marks : Node) (words : List String) (computed : Bool) (key : Node) :
    Parser Node := do
  let isStatic := words.contains "static"
  let accessor := words.contains "accessor"
  checkFieldName key computed isStatic
  flawIf (accessor && words.any ["readonly", "declare", "?"].contains)
  let value ← if ← eat "=" then
      within (fun m => { m with allowsIn := true, isAwait := false, isYield := false }) (expression g)
    else absent
  endStatement
  close start (.field isStatic computed accessor) [withWords marks words, key, value]

def classMethodOrField (g : Grammar) (start : Nat) (marks : Node) (words : List String) : Parser Node := do
  let isGenerator ← eat "*"
  let (key, computed) ← propertyKey g true
  checkPrivacy key words
  let words := if ← eat "?" then words ++ ["?"] else words
  if isGenerator || (← on "(") then classMethod g start marks words isGenerator computed key
  else if ← eat "!" then
    flawIf (words.contains "?")
    classField g start marks (words ++ ["!"]) computed key
  else classField g start marks words computed key

def staticBlock (g : Grammar) (start : Nat) : Parser Node := do
  expect "static"
  expect "\x7b"
  let items ← within (fun m => { allowsIn := m.allowsIn }) (statementList g false)
  expect "\x7d"
  close start .staticBlock items

def classMember (g : Grammar) : Parser Node := do
  let start ← position
  let marks ← decorators g
  let words ← modifiers
  let next ← peek
  if (← on "static") && next.token.is "\x7b" then staticBlock g start
  else if ← eatModifier "get" false then classAccessor g start marks words .getter
  else if ← eatModifier "set" false then classAccessor g start marks words .setter
  else classMethodOrField g start marks words

def classMembers (g : Grammar) : Parser (List Node) :=
  repeatFrom [] (fun items => do
    if ← eat ";" then return .inl items
    if ← on "\x7d" then return .inr items
    let n ← classMember g
    return .inl (items ++ [n]))

def dottedName : Parser Node := do
  let start ← position
  let first ← reference
  repeatFrom first (fun n => do
    if ← eat "." then
      let name ← plainName
      return .inl (← close start (.member false) [n, name])
    else return .inr n)

def interfaces : Parser Node := do
  let start ← position
  if ← eat "implements" then
    let first ← dottedName
    let items ← repeatFrom [first] (fun items => do
      if ← eat "," then
        let n ← dottedName
        return .inl (items ++ [n])
      else return .inr items)
    close start .interfaces items
  else absent

def classTail (g : Grammar) (start : Nat) (isExpression : Bool) (marks : Node) : Parser Node := do
  let name ← if isBinding (← get).token && !(← on "implements") then bindingName else absent
  let heritage ← if ← eat "extends" then g.leftSide else absent
  let implemented ← interfaces
  expect "\x7b"
  let members ← classMembers g
  expect "\x7d"
  close start (.classOf isExpression) (marks :: name :: heritage :: implemented :: members)

def classFrom (g : Grammar) (start : Nat) (isExpression : Bool) (marks : Node) : Parser Node := do
  expect "class"
  classTail g start isExpression marks

end ReactiveTemplate.Script.Parser
