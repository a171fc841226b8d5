import ReactiveTemplate.Script.Printer.Basic
/-!
# Expression — writing expressions, patterns, functions and classes

Objects with more than one property and arrays with more than two elements take a line for each item.
-/
namespace ReactiveTemplate.Script.Printer

open Writer (text all when listed newline indent deeper grouped braced)

def pureMark : Writer := text "/* @__PURE__ */ "

def inertMark : Writer := text "/* @__NO_SIDE_EFFECTS__ */ "

def value (p : Draft) (s : Setting) : Writer :=
  when (!p.node.isAbsent) (all [text " = ", p.write s])

/-! ## Arrays and objects -/

def brokenItems (items : List Writer) : Writer :=
  all [deeper (Writer.separated (text ",") (items.map (fun item => all [newline, indent, item]))), newline, indent]

def endsInHole (items : List Draft) : Bool := (items.getLast?.map (fun p => p.node.form == .hole)).getD false

def array (items : List Draft) : Writer :=
  let writers := items.map (fun p => p.write (.fresh Level.comma))
  let writers := if endsInHole items then writers.dropLast ++ [text ","] else writers
  all [text "[", if 2 < items.length then brokenItems writers else listed writers, text "]"]

def objectBody (items : List Writer) : Writer :=
  match items with
  | [] => text "\x7b\x7d"
  | [item] => all [text "\x7b ", item, text " \x7d"]
  | items => all [text "\x7b", brokenItems items, text "\x7d"]

def object (start : Nat) (items : List Draft) (s : Setting) : Writer := fun page =>
  let isNoted := page.isNoted start
  let needed := isNoted || page.startsStatement || page.startsArrow
  grouped needed (all [when isNoted (Writer.lead start), objectBody (items.map (fun p => p.write s.inner))]) page

def key (computed : Bool) (p : Draft) : Writer :=
  let written := p.write (.fresh Level.comma)
  if computed then all [text "[", written, text "]"] else written

def isShort (shorthand : Bool) (key value : Node) : Bool :=
  match key.form with
  | .name name => if name == "__proto__" then shorthand else value.bare.identifier? == some name
  | _ => false

/-- Whether a number is infinite, so that it can neither be a key nor be deleted. -/
def isInfinite (n : Node) : Bool :=
  match n.form with
  | .number bits => decide (Number.infinityBits ≤ bits)
  | _ => false

def memberMark (member : Member) (function : Node) : String :=
  let mark :=
    match member with
    | .getter => "get "
    | .setter => "set "
    | _ => ""
  match function.form with
  | .function _ isAsync isGenerator =>
    mark ++ (if isAsync then "async " else "") ++ (if isGenerator then "*" else "")
  | _ => mark

def property (member : Member) (shorthand computed : Bool) (name content : Draft) (s : Setting) : Writer :=
  match member with
  | .init =>
    all [when (!isShort shorthand name.node content.node)
        (all [key (computed || isInfinite name.node) name, text ": "]), content.write (.fresh Level.comma)]
  | _ => all [text (memberMark member content.node), key computed name, content.write s.part]

/-! ## Patterns and targets -/

def isRest (p : Draft) : Bool := p.node.form == .rest || p.node.form == .targetRest

/-- The elements of an array pattern or target; in a pattern a blank stands before what is left over in any case. -/
def elements (isPattern : Bool) (items : List Draft) (s : Setting) : Writer :=
  let rest := items.filter isRest
  let others := items.filter (fun p => !isRest p)
  let comma := !others.isEmpty && (endsInHole others || !rest.isEmpty)
  all [text "[", listed (others.map (fun p => p.write s.inner)), when comma (text ","),
    when (!rest.isEmpty && (isPattern || !others.isEmpty)) (text " "), listed (rest.map (fun p => p.write s.inner)),
    text "]"]

def isShortPattern (key value : Node) : Bool :=
  let bound := if value.form == .defaulted then value.part 0 else value
  match key.form, bound.form with
  | .name name, .binding other => name == other
  | _, _ => false

/-! ## Functions and classes -/

def functionTail (params code : Draft) (s : Setting) : Writer :=
  all [text "(", params.write s.inner, text ") ", code.write s.inner]

def function (isAsync isGenerator : Bool) (name params code : Draft) (s : Setting) : Writer :=
  all [text (if isAsync then "async function" else "function"),
    text (if isGenerator then "* " else if name.node.isAbsent then "" else " "), name.write s.inner,
    functionTail params code (s.underIn Level.lowest)]

def arrow (isAsync isExpression : Bool) (params code : Draft) (s : Setting) : Writer :=
  all [text (if isAsync then "async (" else "("), params.write s.inner, text ") => ",
    if isExpression then all [Writer.startArrow, code.write { s.under Level.comma with isPart := true }]
    else code.write s.inner]

def isPlainDecorator : Node → Bool
  | .node (.identifier _) _ _ | .node (.member _) _ _ => true
  | .node (.call _) _ (callee :: _) => isPlainDecorator callee
  | _ => false

def decorators (items : List Draft) : Writer :=
  all (items.map (fun p => all [text "@", grouped (!isPlainDecorator p.node) (p.write {}), text " "]))

def classText (drafts : List Draft) (s : Setting) : Writer :=
  let name := Draft.pick drafts 1
  let heritage := Draft.pick drafts 2
  let members := drafts.drop 4
  all [(Draft.pick drafts 0).write {}, text "class",
    when (!name.node.isAbsent) (all [text " ", name.write {}]),
    when (!heritage.node.isAbsent) (all [text " extends ", heritage.write (.fresh Level.behind)]),
    (Draft.pick drafts 3).write {}, text " ",
    braced members.isEmpty (all (members.map (fun m =>
      all [Writer.lead m.node.span.start, m.write (s.underIn Level.lowest)])))]

def words (p : Draft) (order : List String) : Writer :=
  match p.node.form with
  | .decorators found => all ((order.filter found.contains).map (fun w => text (w ++ " ")))
  | _ => Writer.none

def suffixes (p : Draft) : Writer :=
  match p.node.form with
  | .decorators found => all ((found.filter ["?", "!"].contains).map text)
  | _ => Writer.none

def privacyWords : List String := ["public", "private", "protected"]

def method (member : Member) (isStatic computed : Bool) (marks name function : Draft) (s : Setting) : Writer :=
  all [marks.write {}, words marks (privacyWords ++ ["abstract"]), when isStatic (text "static "),
    words marks ["override"], text (memberMark member function.node), key computed name, suffixes marks,
    function.write s.part, newline]

def field (isStatic computed accessor : Bool) (marks name content : Draft) : Writer :=
  let before := if accessor then ["abstract"] ++ privacyWords else ["declare"] ++ privacyWords ++ ["abstract"]
  all [marks.write {}, words marks before, when isStatic (text "static "), words marks ["override"],
    if accessor then text "accessor " else words marks ["readonly"], key computed name, suffixes marks,
    value content (.fresh Level.comma), text ";\n"]

/-! ## Operators -/

/-- A unary operator and its operand; signs that would run together are kept apart. -/
def unary (operator : String) (operand : Draft) (s : Setting) : Writer :=
  let isWord := operator.toList.all Char.isAlpha
  let mark :=
    if isWord then text (operator ++ " ")
    else if operator == "+" || operator == "-" then all [Writer.apart operator, Writer.sign operator]
    else text operator
  let guarded := operator == "delete" && isInfinite operand.node
  grouped (decide (Level.front ≤ s.level)) (all [mark, when guarded (text "(0, "),
    operand.write (s.under Level.power), when guarded (text ")")])

def update (operator : String) (isPrefix : Bool) (operand : Draft) (s : Setting) : Writer :=
  let level := if isPrefix then Level.front else Level.behind
  let target := operand.write (s.under Level.lowest)
  all [Writer.apart operator, grouped (decide (level ≤ s.level))
    (if isPrefix then all [text operator, target] else all [target, text operator])]

def needsGroup (operator : String) (operand : Node) : Bool :=
  match operand.bare.form with
  | .logical inner => operator == "??" && inner != "??"
  | _ => false

def isUnary (operand : Node) : Bool :=
  match operand.bare.form with
  | .unary _ => true
  | _ => false

def isPrivateTest (n : Node) : Bool :=
  match n.bare with
  | .node (.binary "in") _ (.node (.privateName _) _ _ :: _) => true
  | _ => false

def leftLevel (operator : String) (operand : Node) : Level :=
  let level := Level.ofOperator operator
  if needsGroup operator operand then Level.front
  else if operator == "**" then (if isUnary operand then Level.construct else level)
  else level - 1

/-- How tightly the right operand of an operator must bind; operators that decide need no parentheses there. -/
def rightLevel (operator : String) (operand : Node) : Level :=
  let level := Level.ofOperator operator
  if needsGroup operator operand then Level.front
  else if operator == "**" || ["&&", "||", "??"].contains operator then level - 1
  else level

def binary (operator : String) (left right : Draft) (s : Setting) : Writer :=
  let needed := decide (Level.ofOperator operator ≤ s.level) || (operator == "in" && s.forbidsIn)
  let s := if needed then { s with forbidsIn := false } else s
  let first :=
    if isPrivateTest left.node then left.write {} else left.write (s.under (leftLevel operator left.node))
  grouped needed (all [first, text (" " ++ operator ++ " "), right.write (s.underIn (rightLevel operator right.node))])

def privateTest (name object : Draft) (s : Setting) : Writer :=
  grouped (decide (Level.comparison ≤ s.level)) (all [name.write {}, text " in ",
    object.write { level := Level.equality, forbidsIn := true }])

/-- An assignment; an object pattern at the start of a statement takes the whole into parentheses. -/
def assign (operator : String) (target content : Draft) (s : Setting) : Writer := fun page =>
  let starts := (page.startsStatement || page.startsArrow) && target.node.form == .objectTarget
  grouped (starts || decide (Level.assign ≤ s.level)) (all [target.write s.inner, text (" " ++ operator ++ " "),
    content.write (s.under Level.comma)]) page

def conditional (test first second : Draft) (s : Setting) : Writer :=
  let needed := decide (Level.conditional ≤ s.level)
  let s := if needed then {} else s
  grouped needed (all [test.write (s.underIn Level.conditional), text " ? ", first.write (.fresh Level.yielding),
    text " : ", second.write (s.underIn Level.yielding)])

/-! ## Members and calls -/

def argumentLine (p : Draft) : Writer :=
  all [Writer.commentBlock p.node.span.start, indent, p.write (.fresh Level.comma)]

def arguments (span : Span) (items : List Draft) : Writer := fun page =>
  let isNoted := page.isNoted (span.stop - 1) || items.any (fun p => page.isNoted p.node.span.start)
  if isNoted then
    all [text "(", deeper (all [Writer.separated (text ",") (items.map argumentLine),
      Writer.commentBlock (span.stop - 1)]), indent, text ")"] page
  else all [text "(", listed (items.map (fun p => p.write (.fresh Level.comma))), text ")"] page

def call (annotated : List Span) (optional : Bool) (span : Span) (callee : Draft) (items : List Draft) (s : Setting) :
    Writer := fun page =>
  let isPure := annotated.contains span
  let needed := decide (Level.construct ≤ s.level) || s.forbidsCall || (isPure && decide (Level.behind ≤ s.level))
  grouped needed (all [when isPure pureMark,
    if page.startsStatement then Writer.startStatement else when page.startsStandard Writer.startStandard,
    callee.write (.fresh Level.behind), when optional (text "?."), arguments span items]) page

def construct (annotated : List Span) (span : Span) (callee : Draft) (items : List Draft) (s : Setting) : Writer :=
  let isPure := annotated.contains span
  let needed := decide (Level.construct ≤ s.level) || (isPure && decide (Level.behind ≤ s.level))
  grouped needed (all [when isPure pureMark, text "new ",
    callee.write { level := Level.construct, forbidsCall := true }, arguments span items])

/-- The source and the options of an import; with comments among them each takes a line. -/
def importCall (phase : Option String) (span : Span) (source options : Draft) (s : Setting) : Writer := fun page =>
  let hasOptions := !options.node.isAbsent
  let isNoted := page.isNoted (span.stop - 1) || page.isNoted source.node.span.start ||
    (hasOptions && page.isNoted options.node.span.start)
  let content :=
    if isNoted then
      deeper (all [argumentLine source,
        when hasOptions (all [text ",", newline, indent, options.write (.fresh Level.comma)]),
        Writer.commentBlock (span.stop - 1)])
    else all [source.write (.fresh Level.comma), when hasOptions (all [text ", ", options.write (.fresh Level.comma)])]
  grouped (decide (Level.construct ≤ s.level) || s.forbidsCall) (all [text "import",
    text ((phase.map ("." ++ ·)).getD ""), text "(", content, text ")"]) page

def objectOf (object : Draft) (s : Setting) : Writer := object.write (s.underCall Level.behind)

def takesDot (n : Node) : Bool :=
  match n.bare.form with
  | .number bits => (Number.compactText bits).toList.all Char.isDigit
  | _ => false

def memberOf (optional : Bool) (object name : Draft) (s : Setting) : Writer :=
  all [objectOf object s, text (if optional then "?." else if takesDot object.node then " ." else "."), name.write {}]

/-- A member between brackets; the word `let` in front of a bracket would declare variables. -/
def indexOf (optional : Bool) (object name : Draft) (s : Setting) : Writer :=
  all [grouped (object.node.bare.identifier? == some "let") (objectOf object s),
    text (if optional then "?.[" else "["), name.write {}, text "]"]

/-- The writer of a whole expression, pattern or part of a function; nothing for statements. -/
def expression (annotated : List Span) (form : Form) (span : Span) (drafts : List Draft) (s : Setting) : Writer :=
  let first := Draft.pick drafts 0
  let second := Draft.pick drafts 1
  let third := Draft.pick drafts 2
  match form with
  | .null => text "null"
  | .bool b => text (if b then "true" else "false")
  | .number bits => text (Number.compactText bits)
  | .bigint written => text (bigintText written)
  | .string content lone => text (quoted content lone)
  | .regex written => text (regexText written)
  | .template quasis =>
    all ([text "\x60"] ++ templatePieces quasis (drafts.map (fun p => p.write {})) ++ [text "\x60"])
  | .tagged => all [first.write (.fresh Level.behind), second.write {}]
  | .identifier title | .name title | .binding title => text title
  | .privateName title => text ("#" ++ title)
  | .thisValue => text "this"
  | .superValue => text "super"
  | .metaProperty object property => text (object ++ "." ++ property)
  | .array _ => array drafts
  | .spread => all [text "...", first.write (.fresh Level.comma)]
  | .object _ => object span.start drafts s
  | .property member shorthand computed => property member shorthand computed first second s
  | .arrow isAsync isExpression =>
    all [when (annotated.contains span) inertMark,
      grouped (decide (Level.assign ≤ s.level) || s.isGrouped) (arrow isAsync isExpression first second s)]
  | .parameters => listed (drafts.map (fun p => p.write s.part))
  | .decorators _ => decorators drafts
  | .interfaces => all [text " implements ", listed (drafts.map (fun p => p.write {}))]
  | .method member isStatic computed => method member isStatic computed first second third s
  | .field isStatic computed accessor => field isStatic computed accessor first second third
  | .unary operator => unary operator first s
  | .update operator isPrefix => update operator isPrefix first s
  | .binary operator =>
    match first.node.form with
    | .privateName _ => privateTest first second s
    | _ => binary operator first second s
  | .logical operator => binary operator first second s
  | .assign operator => assign operator first second s
  | .conditional => conditional first second third s
  | .call optional => call annotated optional span first (drafts.drop 1) s
  | .construct => construct annotated span first (drafts.drop 1) s
  | .member optional => memberOf optional first second s
  | .index optional => indexOf optional first second s
  | .chain => grouped (decide (Level.behind ≤ s.level)) (first.write (s.under s.level))
  | .sequence =>
    grouped (decide (Level.comma ≤ s.level)) (listed (drafts.map (fun p => p.write (s.underIn Level.lowest))))
  | .awaiting =>
    grouped (decide (Level.front ≤ s.level)) (all [text "await ", first.write (s.under Level.power)])
  | .yielding delegate =>
    grouped (decide (Level.assign ≤ s.level)) (all [text (if delegate then "yield*" else "yield"),
      when (!first.node.isAbsent) (all [text " ", first.write (.fresh Level.yielding)])])
  | .importCall phase => importCall phase span first second s
  | .parenthesized => first.write { s with isGrouped := true }
  | .arrayPattern => elements true drafts s
  | .arrayTarget => elements false drafts s
  | .objectPattern =>
    if drafts.isEmpty then text "\x7b\x7d"
    else all [text "\x7b ", listed (drafts.map (fun p => p.write s.inner)), text " \x7d"]
  | .objectTarget => all [text "\x7b", listed (drafts.map (fun p => p.write s.inner)), text "\x7d"]
  | .patternProperty _ computed =>
    all [when (!isShortPattern first.node second.node) (all [key computed first, text ": "]), second.write s.inner]
  | .defaulted =>
    all [first.write s.inner, value second (if s.isPart then s.under Level.comma else .fresh Level.comma)]
  | .targetDefault => all [first.write s.inner, value second (.fresh Level.comma)]
  | .targetShorthand => all [first.write s.inner, value second {}]
  | .targetProperty computed => all [key computed first, text ": ", second.write s.inner]
  | .rest | .targetRest => all [text "...", first.write s.inner]
  | .function _ isAsync isGenerator =>
    if s.isPart then functionTail second third s
    else
      all [when (annotated.contains span) inertMark, fun page =>
        grouped (page.startsStatement || page.startsStandard || s.isGrouped)
          (function isAsync isGenerator first second third s) page]
  | .classOf _ => fun page => grouped (page.startsStatement || page.startsStandard) (classText drafts s) page
  | _ => Writer.none

end ReactiveTemplate.Script.Printer
