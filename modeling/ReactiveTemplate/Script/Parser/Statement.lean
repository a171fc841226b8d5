import ReactiveTemplate.Script.Parser.Expression
/-!
# Statement — statements, declarations and modules
-/
namespace ReactiveTemplate.Script.Parser

/-! ## Declarations -/

def declarator (g : Grammar) : Parser Node := do
  let start ← position
  let p ← g.pattern
  let value ← if ← eat "=" then g.assignment else absent
  close start .declarator [p, value]

def declarators (g : Grammar) (start : Nat) (declared : Declared) : Parser Node := do
  let first ← declarator g
  let items ← repeatFrom [first] (fun items => do
    if ← eat "," then
      let n ← declarator g
      return .inl (items ++ [n])
    else return .inr items)
  close start (.declaration declared) items

def isResource (declaration : Node) : Bool :=
  declaration.form == .declaration .resource || declaration.form == .declaration .asyncResource

def lacksValue (declaration : Node) : Bool :=
  let isConstant := declaration.form == .declaration .constant
  declaration.parts.any (fun d => (d.part 1).isAbsent && (isConstant || (d.part 0).binding?.isNone))

def checkResources (declaration : Node) : Parser Unit :=
  flawIf (isResource declaration && declaration.parts.any (fun d => (d.part 0).binding?.isNone))

def variableStatement (g : Grammar) (start : Nat) (isSingle : Bool) (declared : Declared) : Parser Node := do
  let n ← declarators g start declared
  checkResources n
  flawIf (lacksValue n || (isResource n && n.parts.any (fun d => (d.part 1).isAbsent)))
  flawIf (isSingle && declared != .hoisted)
  endStatement
  close start n.form n.parts

def onUsing : Parser Bool := do
  let next ← peek
  return (← on "using") && !next.newline && isBinding next.token && !next.token.is "await"

def onAwaitUsing : Parser Bool := do
  let next ← peek
  let after := next.next
  return (← on "await") && next.token.is "using" && !next.newline && isBinding after.token && !after.newline

def functionStatement (g : Grammar) (start : Nat) (isSingle isAsync : Bool) : Parser Node := do
  let n ← functionFrom g start false isAsync true
  flawIf (isSingle && (match n.form with | .function _ a b => a || b | _ => false))
  return n

def declaredBy? : String → Option Declared
  | "var" => some .hoisted
  | "let" => some .lexical
  | "const" => some .constant
  | _ => none

/-! ## Simple statements -/

def block (g : Grammar) : Parser Node := do
  let start ← position
  expect "\x7b"
  let items ← statementList g false
  expect "\x7d"
  close start .block items

def condition (g : Grammar) : Parser Node := do
  expect "("
  let e ← expression g
  expect ")"
  return e

def expressionStatement (g : Grammar) : Parser Node := do
  let start ← position
  let e ← expression g
  match e.identifier? with
  | some name =>
    if ← eat ":" then
      let s ← g.statement true
      close start (.labeled name) [s]
    else
      endStatement
      close start .expression [e]
  | none =>
    endStatement
    close start .expression [e]

def letStatement (g : Grammar) (isSingle : Bool) : Parser Node := do
  let start ← position
  let next ← peek
  let symbol := next.token.symbol?.getD ""
  let isOperator := (binaryPrecedence? symbol).isSome && !logicalOperators.contains symbol
  if assignmentOperators.contains symbol || isOperator then
    let e ← g.assignment
    endStatement
    close start .expression [e]
  else if symbol == "." || symbol == "?." || symbol == "(" then
    let e ← expression g
    endStatement
    close start .expression [e]
  else if (isSingle && symbol != "[") || symbol == ";" then
    let e ← reference
    endStatement
    close start .expression [e]
  else
    advance
    variableStatement g start isSingle .lexical

def mayEnd : Parser Bool := do
  let c ← get
  return c.newline || c.token.is ";" || c.token.is "\x7d" || c.token == .finish

def jump (form : Option String → Form) : Parser Node := do
  let start ← position
  advance
  let label ← if ← mayEnd then pure none else do
      let n ← reference
      pure n.identifier?
  endStatement
  close start (form label)

def returnStatement (g : Grammar) : Parser Node := do
  let start ← position
  flawIf (!(← read).inFunction)
  advance
  let value ← if ← mayEnd then absent else allowingIn (expression g)
  endStatement
  close start .returning [value]

def throwStatement (g : Grammar) : Parser Node := do
  let start ← position
  advance
  flawIf (← newline)
  let value ← expression g
  endStatement
  close start .throwing [value]

def branch (g : Grammar) : Parser Node := do
  let start ← position
  advance
  let test ← condition g
  let first ← g.statement true
  let second ← if ← eat "else" then g.statement true else absent
  close start .branch [test, first, second]

def whileLoop (g : Grammar) : Parser Node := do
  let start ← position
  advance
  let test ← condition g
  let body ← g.statement true
  close start .whileLoop [test, body]

def doLoop (g : Grammar) : Parser Node := do
  let start ← position
  advance
  let body ← g.statement true
  expect "while"
  let test ← condition g
  let _ ← eat ";"
  close start .doLoop [body, test]

def withObject (g : Grammar) : Parser Node := do
  let start ← position
  advance
  let object ← condition g
  let body ← g.statement true
  close start .withObject [object, body]

def caseStatements (g : Grammar) : Parser (List Node) :=
  repeatFrom [] (fun items => do
    let c ← get
    if ["case", "default", "\x7d"].any c.token.is || c.token == .finish then return .inr items
    let n ← g.statement false
    return .inl (items ++ [n]))

def switchCase (g : Grammar) : Parser Node := do
  let start ← position
  let test ← if ← eat "default" then absent else do
      expect "case"
      expression g
  expect ":"
  let items ← caseStatements g
  close start .switchCase (test :: items)

def switchOn (g : Grammar) : Parser Node := do
  let start ← position
  advance
  let subject ← condition g
  expect "\x7b"
  let cases ← repeatFrom [] (fun items => do
    if ← on "\x7d" then return .inr items
    let n ← switchCase g
    return .inl (items ++ [n]))
  expect "\x7d"
  close start .switchOn (subject :: cases)

def handler (g : Grammar) : Parser Node := do
  let start ← position
  expect "catch"
  let param ← if ← eat "(" then do
      let p ← g.pattern
      expect ")"
      pure p
    else absent
  let body ← block g
  close start .handler [param, body]

def tryBlock (g : Grammar) : Parser Node := do
  let start ← position
  advance
  let body ← block g
  let caught ← if ← on "catch" then handler g else absent
  let final ← if ← eat "finally" then block g else absent
  flawIf (caught.isAbsent && final.isAbsent)
  close start .tryBlock [body, caught, final]

/-! ## Loops over a head -/

def loopTail (g : Grammar) (start : Nat) (isAwait : Bool) (first : Node) : Parser Node := do
  flawIf (isAwait || (match first.form with | .declaration _ => lacksValue first | _ => false))
  expect ";"
  let test ← if ← on ";" then absent else allowingIn (expression g)
  expect ";"
  let step ← if ← on ")" then absent else allowingIn (expression g)
  expect ")"
  let body ← g.statement true
  close start .loop [first, test, step, body]

def loopInTail (g : Grammar) (start : Nat) (isAwait : Bool) (left : Node) : Parser Node := do
  flawIf isAwait
  expect "in"
  let object ← expression g
  expect ")"
  let body ← g.statement true
  close start .loopIn [left, object, body]

def loopOfTail (g : Grammar) (start : Nat) (isAwait : Bool) (left : Node) : Parser Node := do
  expect "of"
  let object ← g.assignment
  expect ")"
  let body ← g.statement true
  close start (.loopOf isAwait) [left, object, body]

def loopOverDeclared (g : Grammar) (start : Nat) (isAwait : Bool) (declared : Declared) : Parser Node := do
  let inside ← position
  advance
  if declared == .asyncResource then advance
  let left ← within (fun m => { m with allowsIn := false }) (declarators g inside declared)
  checkResources left
  if ← on "in" then
    flawIf (isResource left)
    loopInTail g start isAwait left
  else if ← on "of" then loopOfTail g start isAwait left
  else loopTail g start isAwait left

def loopOverTarget (g : Grammar) (start : Nat) (isAwait : Bool) : Parser Node := do
  let c ← get
  let startsAsyncOf := c.token.is "async" && c.next.token.is "of"
  let startsLet := c.token.is "let"
  let first ← within (fun m => { m with allowsIn := false }) (expression g)
  if ← on "in" then
    let target ← (first.target? true).getM
    loopInTail g start isAwait target
  else if ← on "of" then
    flawIf ((!isAwait && startsAsyncOf) || startsLet)
    let target ← (first.target? true).getM
    loopOfTail g start isAwait target
  else loopTail g start isAwait first

def letDeclares (next : Token) : Bool :=
  next.is "[" || next.is "\x7b" || (next.isWord && !next.is "in")

def loopStatement (g : Grammar) : Parser Node := do
  let start ← position
  advance
  let isAwait ← on "await"
  if isAwait then
    flawIf (!(← read).isAwait)
    advance
  expect "("
  let c ← get
  if c.token.is ";" then loopTail g start isAwait (← absent)
  else if c.token.is "var" then loopOverDeclared g start isAwait .hoisted
  else if c.token.is "const" then loopOverDeclared g start isAwait .constant
  else if c.token.is "let" && letDeclares c.next.token then loopOverDeclared g start isAwait .lexical
  else if (← onUsing) && !c.next.token.is "of" then loopOverDeclared g start isAwait .resource
  else if ← onAwaitUsing then loopOverDeclared g start isAwait .asyncResource
  else loopOverTarget g start isAwait

/-! ## Modules -/

def wordOrString : Parser (InterfaceName × Bool) := do
  match (← get).token with
  | .string value lone =>
    advance
    return (⟨value, true⟩, lone)
  | _ => return (⟨← word, false⟩, false)

def interfaceName : Parser InterfaceName := do
  let (name, lone) ← wordOrString
  flawIf lone
  return name

def importAttribute : Parser ImportAttribute := do
  let (key, _) ← wordOrString
  expect ":"
  let (value, lone) ← stringValue
  return ⟨key, value, lone⟩

def attributes : Parser (Option (String × List ImportAttribute)) := do
  let c ← get
  if c.token.is "with" || (c.token.is "assert" && !c.newline) then
    let keyword ← word
    expect "\x7b"
    let (items, _) ← delimited "\x7d" importAttribute
    flawIf (decide ¬(items.map (·.key.text)).Nodup)
    expect "\x7d"
    return some (keyword, items)
  else return none

def moduleSource : Parser ModuleSource := do
  let (path, lone) ← stringValue
  return ⟨path, lone, ← attributes⟩

def importSpecifier : Parser Node := do
  let start ← position
  let mayStand := isBinding (← get).token
  let imported ← interfaceName
  if ← eat "as" then
    let localName ← bindingName
    close start (.importSpecifier (.named imported) (localName.binding?.getD ""))
  else if mayStand then
    checkBinding (← read) imported.text
    close start (.importSpecifier (.named imported) imported.text)
  else failure

def importSpecifiers : Parser (List Node) := do
  let start ← position
  if ← eat "*" then
    expect "as"
    let localName ← bindingName
    return [← close start (.importSpecifier .everything (localName.binding?.getD ""))]
  else
    expect "\x7b"
    let (items, _) ← delimited "\x7d" importSpecifier
    expect "\x7d"
    return items

def importPhase : Parser (Option String) := do
  let c ← get
  let next := c.next
  let isSource := c.token.is "source" && next.token.isPlainWord && (!next.token.is "from" || next.next.token.is "from")
  if isSource || (c.token.is "defer" && next.token.is "*") then some <$> word else return none

def importDeclaration : Parser Node := do
  let start ← position
  expect "import"
  match (← get).token with
  | .string _ _ =>
    let source ← moduleSource
    endStatement
    close start (.importFrom source none true)
  | _ =>
    let phase ← importPhase
    let inside ← position
    let standard ← if isBinding (← get).token then do
        let n ← bindingName
        pure [← close inside (.importSpecifier .standard (n.binding?.getD ""))]
      else pure []
    let isMore ← if standard.isEmpty then pure true else eat ","
    let more ← if isMore then importSpecifiers else pure []
    expect "from"
    let source ← moduleSource
    endStatement
    close start (.importFrom source phase false) (standard ++ more)

def moduleWords : List String := ["implements", "interface", "package", "private", "protected", "public", "static"]

/-- A name that is exported; one that cannot be a name of the module itself has a part that is left out. -/
def exportSpecifier : Parser Node := do
  let start ← position
  let t := (← get).token
  let localName ← interfaceName
  let exported ← if ← eat "as" then interfaceName else pure localName
  let n ← close start (.exportSpecifier localName exported)
  let isForeign := !t.isPlainWord || moduleWords.contains localName.text
  return if isForeign then .node n.form n.span [Node.absentAt start] else n

def exportNames (start : Nat) : Parser Node := do
  expect "\x7b"
  let (items, _) ← delimited "\x7d" exportSpecifier
  expect "\x7d"
  let declaration ← absent
  let source ← if ← eat "from" then some <$> moduleSource else pure none
  flawIf (source.isNone && items.any (fun n => !n.parts.isEmpty))
  endStatement
  close start (.exportNamed source) (declaration :: items)

/-- A class behind `export` and decorators of its own; whatever token introduces it is passed over. -/
def exportedClass (g : Grammar) (marks : Node) : Parser Node := do
  let start ← position
  flawIf (!marks.isAbsent)
  let own ← decorators g
  advance
  classTail g start false own

def checkDecorated (marks : Node) : Parser Unit := do
  flawIf (!marks.isAbsent && !(← on "class"))

def exportStandard (g : Grammar) (start : Nat) (marks : Node) : Parser Node := do
  let inside ← position
  let declaration ←
    if ← on "@" then exportedClass g marks
    else do
      checkDecorated marks
      if ← on "function" then functionFrom g inside false false false
      else if ← onAsyncFunction then
        advance
        functionFrom g inside false true false
      else if ← on "class" then classFrom g inside false marks
      else
        let e ← g.assignment
        endStatement
        pure e
  close start .exportDefault [declaration]

def exportedDeclaration (g : Grammar) (marks : Node) : Parser Node := do
  let start ← position
  checkDecorated marks
  let c ← get
  match (c.token.symbol?).bind declaredBy? with
  | some declared =>
    advance
    variableStatement g start false declared
  | none =>
    if c.token.is "function" then functionStatement g start false false
    else if ← onAsyncFunction then
      advance
      functionStatement g start false true
    else if c.token.is "class" then classFrom g start false marks
    else failure

/-- An export of a module; decorators in front of it belong to the class that it declares. -/
def exportDeclaration (g : Grammar) (marks : Node) : Parser Node := do
  let start ← position
  expect "export"
  if ← eat "default" then exportStandard g start marks
  else if ← on "@" then
    let declaration ← exportedClass g marks
    close start (.exportNamed none) [declaration]
  else if ← on "*" then
    checkDecorated marks
    advance
    let exported ← if ← eat "as" then some <$> interfaceName else pure none
    expect "from"
    let source ← moduleSource
    endStatement
    close start (.exportAll exported source)
  else if ← on "\x7b" then
    checkDecorated marks
    exportNames start
  else
    let declaration ← exportedDeclaration g marks
    close start (.exportNamed none) [declaration]

/-! ## Statements -/

def decoratedStatement (g : Grammar) (isSingle : Bool) : Parser Node := do
  let start ← position
  let marks ← decorators g
  if ← on "export" then exportDeclaration g marks
  else
    flawIf isSingle
    classFrom g start false marks

def classStatement (g : Grammar) (isSingle : Bool) : Parser Node := do
  flawIf isSingle
  classFrom g (← position) false (← absent)

def wordStatement (g : Grammar) (isSingle : Bool) (name : String) : Parser Node := do
  let start ← position
  match name with
  | "if" => branch g
  | "for" => loopStatement g
  | "do" => doLoop g
  | "while" => whileLoop g
  | "continue" => jump .continueTo
  | "break" => jump .breakFrom
  | "with" => withObject g
  | "switch" => switchOn g
  | "throw" => throwStatement g
  | "try" => tryBlock g
  | "debugger" =>
    advance
    endStatement
    close start .debugger
  | "return" => returnStatement g
  | "class" => classStatement g isSingle
  | "export" => exportDeclaration g (← absent)
  | "var" =>
    advance
    variableStatement g start isSingle .hoisted
  | "const" =>
    advance
    variableStatement g start isSingle .constant
  | "let" => letStatement g isSingle
  | "function" => functionStatement g start isSingle false
  | _ =>
    let next ← peek
    if name == "import" && !next.token.is "." && !next.token.is "(" then importDeclaration
    else if ← onAsyncFunction then
      advance
      functionStatement g start isSingle true
    else if ← onUsing then
      advance
      variableStatement g start isSingle .resource
    else if ← onAwaitUsing then
      advance
      advance
      variableStatement g start isSingle .asyncResource
    else expressionStatement g

def plainStatement (g : Grammar) (isSingle : Bool) : Parser Node := do
  let start ← position
  match (← get).token with
  | .punct "\x7b" => block g
  | .punct ";" =>
    advance
    close start .empty
  | .punct "@" => decoratedStatement g isSingle
  | .word name false => wordStatement g isSingle name
  | _ => expressionStatement g

def statement (g : Grammar) (isSingle : Bool) : Parser Node := do
  let annotations := (← get).annotations
  let n ← plainStatement g isSingle
  annotate annotations n
  return n

end ReactiveTemplate.Script.Parser
