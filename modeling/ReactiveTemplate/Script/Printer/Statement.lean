import ReactiveTemplate.Script.Printer.Module
/-!
# Statement — writing statements

Every statement takes its own lines.  A block opens on the line of what it belongs to; any other body that is one
statement follows on the same line.
-/
namespace ReactiveTemplate.Script
namespace Printer

open Writer (text all when listed newline indent deeper grouped braced)

def isBlock (p : Draft) : Bool := p.node.form == .block

/-- Whether a statement ends in a condition without a second branch, which would take an `else` that follows. -/
def takesElse : Node → Bool
  | .node .branch _ (_ :: _ :: second :: _) => second.isAbsent || takesElse second
  | .node .loop _ (_ :: _ :: _ :: code :: _) => takesElse code
  | .node .loopIn _ (_ :: _ :: code :: _) => takesElse code
  | .node (.loopOf _) _ (_ :: _ :: code :: _) => takesElse code
  | .node .whileLoop _ (_ :: code :: _) => takesElse code
  | .node .withObject _ (_ :: code :: _) => takesElse code
  | .node (.labeled _) _ (code :: _) => takesElse code
  | _ => false

def block (items : List Draft) (s : Setting) : Writer :=
  braced items.isEmpty (all (items.map (fun p => p.write s.inner)))

def bodyOf (p : Draft) (s : Setting) : Writer :=
  match p.node.form with
  | .block => all [text " ", p.write s.part, newline]
  | .empty => text ";\n"
  | _ => all [Writer.inline, p.write s.inner]

def elseOf (second : Draft) (s : Setting) : Writer :=
  if second.node.isAbsent then Writer.none
  else if second.node.form == .branch then all [text "else ", second.write s.part]
  else all [text "else", bodyOf second s]

def branch (test first second : Draft) (s : Setting) : Writer :=
  let behind := if second.node.isAbsent then newline else text " "
  let outcome :=
    if isBlock first then all [text " ", first.write s.part, behind]
    else if takesElse first.node then all [text " ", braced false (first.write s.inner), behind]
    else all [bodyOf first s, when (!second.node.isAbsent) indent]
  all [text "if (", test.write {}, text ")", outcome, elseOf second s]

def headPart (p : Draft) : Writer :=
  all [text ";", when (!p.node.isAbsent) (all [text " ", p.write {}])]

def headStart (p : Draft) : Writer :=
  match p.node.form with
  | .declaration _ => p.write { forbidsIn := true, isPart := true }
  | _ => p.write { forbidsIn := true }

/-- What a loop runs over an object with, in its head; the word `async` would start a function there. -/
def headTarget (p : Draft) (s : Setting) : Writer :=
  match p.node.form with
  | .declaration _ => p.write s.part
  | form => grouped (form == .identifier "async") (p.write s.inner)

def doLoop (code test : Draft) (s : Setting) : Writer :=
  let body :=
    match code.node.form with
    | .block => all [text " ", code.write s.part, text " "]
    | .empty => code.write s.inner
    | _ => all [newline, deeper (code.write s.inner), indent]
  all [text "do", body, text "while (", test.write {}, text ");\n"]

def switchCase (test : Draft) (items : List Draft) (s : Setting) : Writer :=
  all [if test.node.isAbsent then text "default" else all [text "case ", test.write {}], text ":",
    match items with
    | [p] => bodyOf p s
    | ps => all [newline, deeper (all (ps.map (fun p => p.write s.inner)))]]

def tryBlock (code caught final : Draft) (s : Setting) : Writer :=
  all [text "try ", code.write s.part, when (!caught.node.isAbsent) (all [text " ", caught.write s.inner]),
    when (!final.node.isAbsent) (all [text " finally ", final.write s.part]), newline]

def handler (start : Nat) (param code : Draft) (s : Setting) : Writer :=
  all [Writer.comments start, text "catch",
    when (!param.node.isAbsent) (all [text " (", param.write s.inner, text ")"]), text " ",
    Writer.comments code.node.span.start, Writer.settle, code.write s.part]

def declaredWord : Declared → String
  | .hoisted => "var"
  | .lexical => "let"
  | .constant => "const"
  | .resource => "using"
  | .asyncResource => "await using"

def variablesOf (declared : Declared) (drafts : List Draft) (s : Setting) : Writer :=
  all [text (declaredWord declared ++ " "), listed (drafts.map (fun p => p.write s.inner))]

def labelText (label : Option String) : String := ((label.map (" " ++ ·)).getD "") ++ ";\n"

/-- Whether a statement is a string in parentheses, which must not become a directive. -/
def isGuardedString (p : Draft) : Bool :=
  match p.node.form, (p.node.part 0).bare.form with
  | .expression, .string _ _ => true
  | _, _ => false

/-- Directives and statements; a string that is the first statement keeps its parentheses, and nothing else. -/
def statements (items : List Draft) (s : Setting) : Writer :=
  match items with
  | [] => Writer.none
  | p :: rest =>
    all ((if isGuardedString p then all [text "(", p.write s.part, text ");\n"] else p.write s.inner) ::
      rest.map (fun p => p.write s.inner))

def functionBody (span : Span) (items : List Draft) (s : Setting) : Writer := fun page =>
  let final := page.notes (span.stop - 1)
  let isShort := items.isEmpty && final.all (fun c => !c.newlineBefore && !c.newlineAfter)
  braced isShort (all [statements items s, Writer.commentList final]) (page.forget (span.stop - 1))

def statement? (form : Form) (drafts : List Draft) (s : Setting) : Option Writer :=
  let first := Draft.pick drafts 0
  let second := Draft.pick drafts 1
  let third := Draft.pick drafts 2
  match form with
  | .block => some (all [block drafts s, newline])
  | .empty => some (text ";\n")
  | .expression => some (all [Writer.startStatement, first.write {}, text ";\n"])
  | .branch => some (branch first second third s)
  | .loop =>
    some (all [text "for (", headStart first, headPart second, headPart third, text ")",
      bodyOf (Draft.pick drafts 3) s])
  | .loopIn =>
    some (all [text "for (", headTarget first { s with forbidsIn := true }, text " in ", second.write {}, text ")",
      bodyOf third s])
  | .loopOf isAwait =>
    some (all [text (if isAwait then "for await (" else "for ("), headTarget first s, text " of ",
      second.write (.fresh Level.comma), text ")", bodyOf third s])
  | .whileLoop => some (all [text "while (", first.write {}, text ")", bodyOf second s])
  | .doLoop => some (doLoop first second s)
  | .continueTo label => some (text ("continue" ++ labelText label))
  | .breakFrom label => some (text ("break" ++ labelText label))
  | .returning =>
    some (all [text "return", when (!first.node.isAbsent) (all [text " ", first.write {}]), text ";\n"])
  | .withObject => some (all [text "with(", first.write {}, text ")", bodyOf second s])
  | .switchOn => some (all [text "switch (", first.write {}, text ") ", block (drafts.drop 1) s, newline])
  | .switchCase => some (switchCase first (drafts.drop 1) s)
  | .labeled label => some (all [text (label ++ ":"), bodyOf first s])
  | .throwing => some (all [text "throw ", first.write {}, text ";\n"])
  | .tryBlock => some (tryBlock first second third s)
  | .debugger => some (text "debugger;\n")
  | .declaration declared => some (all [variablesOf declared drafts s, text ";\n"])
  | .classOf false => some (all [classText drafts s, newline])
  | .importFrom source phase isBare => some (importFrom source phase isBare drafts)
  | .exportNamed source => some (exportNamed source drafts s)
  | .exportDefault => some (exportStandard first s)
  | .exportAll exported source => some (exportAll exported source)
  | _ => none

def statementPart? (form : Form) (drafts : List Draft) (s : Setting) : Option Writer :=
  let first := Draft.pick drafts 0
  match form with
  | .block => some (block drafts s)
  | .branch => some (branch first (Draft.pick drafts 1) (Draft.pick drafts 2) s)
  | .declaration declared => some (variablesOf declared drafts s)
  | .function false isAsync isGenerator =>
    some (function isAsync isGenerator first (Draft.pick drafts 1) (Draft.pick drafts 2) s)
  | .classOf false => some (classText drafts s)
  | .body => some (first.write s)
  | .expression => some (first.write { s with isPart := false })
  | _ => none

def markBefore (annotated : List Span) (form : Form) (first : Draft) : Writer :=
  match form with
  | .exportNamed _ | .exportDefault => exportMark annotated first
  | _ => Writer.none

def node (annotated : List Span) (form : Form) (span : Span) (drafts : List Draft) (s : Setting) : Writer :=
  let first := Draft.pick drafts 0
  let second := Draft.pick drafts 1
  match (if s.isPart then statementPart? form drafts s else none) with
  | some w => w
  | none =>
    match form with
    | .program => all [statements drafts s, Writer.comments span.stop]
    | .body => functionBody span drafts s
    | .handler => handler span.start first second s
    | .staticBlock => all [text "static ", braced false (all (drafts.map (fun p => p.write s.inner))), newline]
    | .declarator => all [first.write s.inner, value second (s.under Level.comma)]
    | .function false isAsync isGenerator =>
      all [Writer.comments span.start,
        when (annotated.contains span) (all [indent, text "/* @__NO_SIDE_EFFECTS__ */\n"]),
        indent, function isAsync isGenerator first second (Draft.pick drafts 2) s, newline]
    | .directive raw => all [indent, text (directiveText raw ++ ";\n")]
    | _ =>
      match statement? form drafts s with
      | some w => all [Writer.comments span.start, markBefore annotated form first, indent, w]
      | none => expression annotated form span drafts s

end Printer

namespace Node

mutual
def draft (annotated : List Span) : Node → Draft
  | node form span parts => ⟨node form span parts, Printer.node annotated form span (drafts annotated parts)⟩

def drafts (annotated : List Span) : List Node → List Draft
  | [] => []
  | n :: ns => draft annotated n :: drafts annotated ns
end

def written (comments : List (Nat × Comment)) (annotated : List Span) (n : Node) : String :=
  ((n.draft annotated).write {} { comments := comments }).toString

end Node
end ReactiveTemplate.Script
