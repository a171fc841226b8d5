import ReactiveTemplate.Script.Parser.Function
/-!
# Expression — operands, operators and arrows

From the inside out: operands (`primary`), members and calls (`leftSide`), operators in front and behind (`unary`,
`update`), operators between operands (`binary`), and assignments, conditions and arrow functions (`assignment`).
-/
namespace ReactiveTemplate.Script.Parser

/-! ## Operands -/

/-- A template from its first piece on; only behind a tag may an escape be malformed. -/
def template (g : Grammar) (tagged : Bool) : Parser Node := do
  let start ← position
  let (quasis, holes) ← repeatFrom ([], []) (fun ((quasis, holes) : List Quasi × List Node) => do
    match (← get).token with
    | .template raw cooked isLast =>
      flawIf (cooked.isNone && !tagged)
      let quasis := quasis ++ [⟨raw, cooked⟩]
      advance
      if isLast then return .inr (quasis, holes)
      let e ← allowingIn (expression g)
      let c ← get
      if c.token.is "\x7d" then
        set (c.reread (templateLexeme (c.here.drop 1)))
        return .inl (quasis, holes ++ [e])
      else failure
    | _ => failure)
  close start (.template quasis) holes

def regex : Parser Node := do
  let start ← position
  modify (fun c => c.reread (regexLexeme (c.here.drop 1)))
  match (← get).token with
  | .regex text =>
    advance
    close start (.regex text)
  | _ => failure

def spread (g : Grammar) : Parser Node := do
  let start ← position
  expect "..."
  let e ← g.assignment
  close start .spread [e]

def spreadable (g : Grammar) : Parser Node := do
  if ← on "..." then spread g else g.assignment

def parenthesized (g : Grammar) : Parser Node := do
  let start ← position
  expect "("
  let inside ← position
  let (items, trailing) ← allowingIn (delimited ")" g.assignment)
  if trailing then failure
  let inner ← match items with
    | [] => failure
    | [e] => pure e
    | es => close inside .sequence es
  expect ")"
  close start .parenthesized [inner]

def array (g : Grammar) : Parser Node := do
  let start ← position
  expect "["
  let (items, trailing) ← allowingIn (delimited "]" (do if ← on "," then hole else spreadable g))
  expect "]"
  close start (.array trailing) items

def objectAccessor (g : Grammar) (start : Nat) (member : Member) : Parser Node := do
  let (key, computed) ← propertyKey g false
  let function ← methodFunction g false false
  checkAccessor member function
  close start (.property member false computed) [key, function]

def objectMember (g : Grammar) (start : Nat) : Parser Node := do
  let isAsync ← eatModifier "async" true
  let isGenerator ← eat "*"
  let first := (← get).token
  let mayBeShort := isReference (← read) first
  let (key, computed) ← propertyKey g false
  if isAsync || isGenerator || (← on "(") then
    let function ← methodFunction g isAsync isGenerator
    close start (.property .method false computed) [key, function]
  else if !computed && mayBeShort && !(← on ":") then
    match key.form with
    | .name name =>
      let value := Node.node (.identifier name) key.span []
      if ← eat "=" then
        let fallback ← g.assignment
        close start (.property .init true false) [key, value, fallback]
      else close start (.property .init true false) [key, value]
    | _ => failure
  else
    expect ":"
    let value ← g.assignment
    close start (.property .init false computed) [key, value]

def objectProperty (g : Grammar) : Parser Node := do
  let start ← position
  if ← on "..." then spread g
  else if ← eatModifier "get" false then objectAccessor g start .getter
  else if ← eatModifier "set" false then objectAccessor g start .setter
  else objectMember g start

def object (g : Grammar) : Parser Node := do
  let start ← position
  expect "\x7b"
  let (items, trailing) ← allowingIn (delimited "\x7d" (objectProperty g))
  expect "\x7d"
  close start (.object trailing) items

def arguments (g : Grammar) : Parser (List Node) := do
  expect "("
  let (items, _) ← allowingIn (delimited ")" (spreadable g))
  expect ")"
  return items

def importCall (g : Grammar) (start : Nat) (phase : Option String) : Parser Node := do
  let items ← arguments g
  if items.any (fun n => n.form == .spread) then failure
  match items with
  | [source] => close start (.importCall phase) [source, ← absent]
  | [source, options] => close start (.importCall phase) [source, options]
  | _ => failure

def importOperand (g : Grammar) : Parser Node := do
  let start ← position
  expect "import"
  if ← eat "." then
    if ← eat "meta" then close start (.metaProperty "import" "meta")
    else if (← on "source") || (← on "defer") then
      let phase ← word
      importCall g start (some phase)
    else failure
  else importCall g start none

def construct (g : Grammar) : Parser Node := do
  let start ← position
  expect "new"
  if ← eat "." then
    if ← eat "target" then close start (.metaProperty "new" "target") else failure
  else
    let callee ← g.callee
    flawIf (match callee.form with | .importCall _ => true | _ => false)
    flawIf (← on "?.")
    let items ← if ← on "(" then arguments g else pure []
    close start .construct (callee :: items)

def constant (form : Form) : Parser Node := do
  let start ← position
  advance
  close start form

def decoratedClass (g : Grammar) (isExpression : Bool) : Parser Node := do
  let start ← position
  let marks ← decorators g
  classFrom g start isExpression marks

def wordOperand (g : Grammar) (name : String) : Parser Node := do
  match name with
  | "function" => functionFrom g (← position) true false false
  | "class" => classFrom g (← position) true (← absent)
  | "this" => constant .thisValue
  | "null" => constant .null
  | "true" => constant (.bool true)
  | "false" => constant (.bool false)
  | "new" => construct g
  | "import" => importOperand g
  | "super" =>
    let n ← constant .superValue
    if ← onAny [".", "[", "("] then return n else failure
  | _ =>
    if ← onAsyncFunction then
      let start ← position
      advance
      functionFrom g start true true false
    else reference

def primary (g : Grammar) : Parser Node := do
  match (← get).token with
  | .word name false => wordOperand g name
  | .word _ true => reference
  | .number bits => constant (.number bits)
  | .bigint text => constant (.bigint text)
  | .string value lone => constant (.string value lone)
  | .template _ _ _ => template g false
  | .punct "/" | .punct "/=" => regex
  | .punct "(" => parenthesized g
  | .punct "[" => array g
  | .punct "\x7b" => object g
  | .punct "@" => decoratedClass g true
  | _ => failure

/-! ## Members and calls -/

def memberTail (start : Nat) (optional : Bool) (object : Node) : Parser Node := do
  let name ← match (← get).token with
    | .privateName _ => privateName
    | _ => plainName
  close start (.member optional) [object, name]

def indexTail (g : Grammar) (start : Nat) (optional : Bool) (object : Node) : Parser Node := do
  expect "["
  let key ← allowingIn (expression g)
  expect "]"
  close start (.index optional) [object, key]

def taggedTail (g : Grammar) (start : Nat) (chained : Bool) (tag : Node) : Parser Node := do
  flawIf chained
  let t ← template g true
  close start .tagged [tag, t]

def members (g : Grammar) (start : Nat) (allowsOptional : Bool) (operand : Node) (chained : Bool) :
    Parser (Node × Bool) :=
  repeatFrom (operand, chained) (fun ((n, chained) : Node × Bool) => do
    let c ← get
    let next := c.next
    if c.token.is "[" && !(← read).inDecorator then
      let n ← indexTail g start false n
      return .inl (n, chained)
    else if c.token.is "." then
      advance
      let n ← memberTail start false n
      return .inl (n, chained)
    else if c.token.isTemplate then
      let n ← taggedTail g start chained n
      return .inl (n, chained)
    else if c.token.is "?." && allowsOptional && !next.token.is "(" then
      advance
      if next.token.is "[" then
        let n ← indexTail g start true n
        return .inl (n, true)
      else if next.token.isTemplate then
        let n ← taggedTail g start true n
        return .inl (n, true)
      else
        let n ← memberTail start true n
        return .inl (n, true)
    else return .inr (n, chained))

/-- The members and calls behind an operand, and whether one of them stands behind `?.`. -/
def calls (g : Grammar) (start : Nat) (operand : Node) : Parser (Node × Bool) :=
  repeatFrom (operand, false) (fun ((n, chained) : Node × Bool) => do
    let (n, chained) ← members g start true n chained
    if ← on "(" then
      let items ← arguments g
      let n ← close start (.call false) (n :: items)
      return .inl (n, chained)
    else if ← eat "?." then
      let items ← arguments g
      let n ← close start (.call true) (n :: items)
      return .inl (n, true)
    else return .inr (n, chained))

def leftSide (g : Grammar) : Parser Node := do
  let start ← position
  let operand ← primary g
  let (n, chained) ← calls g start operand
  if chained then close start .chain [n] else return n

def callee (g : Grammar) : Parser Node := do
  let start ← position
  let operand ← primary g
  return (← members g start false operand false).1

/-! ## Operators -/

def update (g : Grammar) : Parser Node := do
  let start ← position
  let c ← get
  if c.token.is "++" || c.token.is "--" then
    advance
    let operand ← g.unary
    let target ← (operand.target? false).getM
    close start (.update (if c.token.is "++" then "++" else "--") true) [target]
  else
    let operand ← leftSide g
    let c ← get
    if (c.token.is "++" || c.token.is "--") && !c.newline then
      let target ← (operand.target? false).getM
      advance
      close start (.update (if c.token.is "++" then "++" else "--") false) [target]
    else return operand

/-- Whether a word such as `await` is followed on its line by what it could apply to. -/
def hasOperandBehind : Parser Bool := do
  let next ← peek
  return !next.newline && (next.token.isNameLiteral ||
    (next.token.isWord && !next.token.is "in" && !next.token.is "instanceof"))

def unary (g : Grammar) : Parser Node := do
  let start ← position
  match ((← get).token.symbol?).filter unaryOperators.contains with
  | some operator =>
    advance
    let operand ← g.unary
    close start (.unary operator) [operand]
  | none =>
    if ← on "await" then
      let isAwait := (← read).isAwait
      if isAwait || (← hasOperandBehind) then
        flawIf (!isAwait)
        advance
        let operand ← within (fun m => { m with isAwait := true }) g.unary
        close start .awaiting [operand]
      else update g
    else update g

/-- Whether an operand is one of `&&` or `||`, which may stand beside `??` only where a parenthesis comes first. -/
def isAlternative (n : Node) : Bool := n.form == .logical "&&" || n.form == .logical "||"

/-- Whether an operand is one of operators between two that evaluate the second only when it decides. -/
def isLogical (n : Node) : Bool :=
  match n.form with
  | .logical _ => true
  | _ => false

/-- Whether `??` has an operand that it may not have; the first one counts only if the second is simple. -/
def mixesCoalescing (left right : Node) (opens opensRight : Bool) : Bool :=
  if isLogical right then isAlternative right && !opensRight else isAlternative left && !opens

def isUnaryForm (n : Node) : Bool :=
  match n.form with
  | .unary _ | .awaiting => true
  | _ => false

def operation (start : Nat) (operator : String) (left right : Node) (opens opensRight : Bool) : Parser Node := do
  if logicalOperators.contains operator then
    flawIf (operator == "??" && mixesCoalescing left right opens opensRight)
    close start (.logical operator) [left, right]
  else
    flawIf (operator == "**" && isUnaryForm left)
    close start (.binary operator) [left, right]

def privateIn (g : Grammar) (least : Nat) : Parser Node := do
  let start ← position
  let name ← privateName
  expect "in"
  if 8 ≤ least then failure
  let right ← g.binary 8
  close start (.binary "in") [name, right]

/-- The operator that the current token is, with its precedence, if it binds tighter than `least`. -/
def operator? (least : Nat) : Parser (Option (String × Nat)) := do
  let m ← read
  match (← get).token.symbol? with
  | none => return none
  | some operator =>
    match binaryPrecedence? operator with
    | none => return none
    | some p =>
      let binds := if operator == "**" then decide (least ≤ p) else decide (least < p)
      return if binds && (m.allowsIn || operator != "in") then some (operator, p) else none

def binary (g : Grammar) (least : Nat) : Parser Node := do
  let start ← position
  let m ← read
  let c ← get
  let opens ← on "("
  let first ← match c.token with
    | .privateName _ => if m.allowsIn then privateIn g least else failure
    | _ => unary g
  annotate (c.annotations.filter (· == .pure)) first
  repeatFrom first (fun left => do
    match ← operator? least with
    | some (operator, p) =>
      advance
      let opensRight ← on "("
      let right ← g.binary p
      let n ← operation start operator left right opens opensRight
      return .inl n
    | none => return .inr left)

/-! ## Arrows, assignments and conditions -/

/-- How sure it is that a parenthesis opens the parameters of an arrow function. -/
inductive ArrowGuess where
  | sure
  | maybe
  | no
  deriving Repr, DecidableEq

def guessParameters (paren : Cursor) : ArrowGuess :=
  let second := paren.next
  if second.token.is ")" then
    if ["=>", ":", "\x7b"].any second.next.token.is then .sure else .no
  else if second.token.is "[" || second.token.is "\x7b" then .maybe
  else if second.token.is "..." then
    let third := second.next.token
    if third.isOrdinaryName then .sure else if third.isLiteral then .no else .maybe
  else if isBinding second.token || second.token.is "this" then
    let third := second.next
    if third.token.is ":" then .sure
    else if [",", "=", ")"].any third.token.is then .maybe
    else .no
  else .no

def guessArrow (c : Cursor) : ArrowGuess :=
  if c.token.is "(" then guessParameters c
  else if c.token.is "async" then
    let next := c.next
    if next.token.is "(" && !next.newline then guessParameters next else .no
  else .no

/-- The parameters of an arrow function and the arrow; whether it is asynchronous. -/
def arrowHead (g : Grammar) : Parser (Node × Bool) := do
  let isAsync ← eat "async"
  let params ← within (fun m => { m with isAwait := m.isAwait || isAsync }) (parameters g)
  let nl ← newline
  expect "=>"
  flawIf nl
  return (params, isAsync)

def arrowTail (g : Grammar) (start : Nat) (isAsync : Bool) (params : Node) : Parser Node := do
  within (fun m => { m with isAwait := isAsync, isYield := false }) (do
    if ← on "\x7b" then
      let body ← functionBody g
      close start (.arrow isAsync false) [params, body]
    else
      let inside ← position
      let e ← g.assignment
      let statement ← close inside .expression [e]
      let body ← close inside .body [statement]
      close start (.arrow isAsync true) [params, body])

def singleParameter (name : Node) : Node :=
  .node .parameters name.span [.node (.binding (name.identifier?.getD "")) name.span []]

def arrow? (g : Grammar) : Parser (Option Node) := do
  let c ← get
  let head ← match guessArrow c with
    | .sure => some <$> arrowHead g
    | .maybe => (some <$> arrowHead g) <|> pure none
    | .no => pure none
  match head with
  | some (params, isAsync) => some <$> arrowTail g c.start isAsync params
  | none => return none

def asyncArrow? (g : Grammar) : Parser (Option Node) := do
  let c ← get
  let name := c.next
  let arrow := name.next
  if c.token.is "async" && !name.newline && isReference (← read) name.token
      && arrow.token.is "=>" && !arrow.newline then
    advance
    let n ← reference
    expect "=>"
    some <$> arrowTail g c.start true (singleParameter n)
  else return none

def yielding (g : Grammar) : Parser Node := do
  let start ← position
  flawIf (!(← read).isYield)
  expect "yield"
  if ← newline then close start (.yielding false) [← absent]
  else
    let delegate ← eat "*"
    let c ← get
    let isBare := c.token == .finish || [";", "\x7d", ")", "]", ":", ",", "in"].any c.token.is
    if isBare && !delegate then close start (.yielding false) [← absent]
    else
      let e ← within (fun m => { m with isYield := true }) g.assignment
      close start (.yielding delegate) [e]

/-- What may follow operands and operators: an arrow, an assignment or the outcomes of a condition. -/
def assignmentTail (g : Grammar) (start : Nat) (left : Node) : Parser Node := do
  let c ← get
  if left.identifier?.isSome && c.token.is "=>" then
    flawIf c.newline
    advance
    arrowTail g start false (singleParameter left)
  else
    match c.token.symbol?.filter assignmentOperators.contains with
    | some operator =>
      let target ← (left.target? true).getM
      advance
      let value ← g.assignment
      close start (.assign operator) [target, value]
    | none =>
      if ← eat "?" then
        let first ← allowingIn g.assignment
        expect ":"
        let second ← g.assignment
        close start .conditional [left, first, second]
      else return left

def plainAssignment (g : Grammar) : Parser Node := do
  let start ← position
  let isYield := (← read).isYield
  if (← on "yield") && (isYield || (← hasOperandBehind)) then yielding g
  else
    match ← arrow? g with
    | some n => return n
    | none =>
      match ← asyncArrow? g with
      | some n => return n
      | none =>
        let left ← binary g 0
        assignmentTail g start left

def assignment (g : Grammar) : Parser Node := do
  let annotations := (← get).annotations
  let n ← plainAssignment g
  annotate annotations n
  return n

end ReactiveTemplate.Script.Parser
