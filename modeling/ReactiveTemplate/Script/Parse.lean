import ReactiveTemplate.Script.Declaration
import ReactiveTemplate.Script.Parser.Statement
/-!
# Parse — scripts from text

The parts of the grammar contain each other, so the grammar is a tower: the readers of one floor refer to those of the
floor below.
-/
namespace ReactiveTemplate.Script

def Grammar.above (g : Grammar) : Grammar where
  assignment := Parser.assignment g
  binary := Parser.binary g
  unary := Parser.unary g
  leftSide := Parser.leftSide g
  callee := Parser.callee g
  pattern := Parser.pattern g
  statement := Parser.statement g

def Grammar.tower : Nat → Grammar
  | 0 => Grammar.none
  | floors + 1 => (tower floors).above

def Grammar.for (source : String) : Grammar := tower (2 * source.length + 16)

def Parser.program (g : Grammar) : Parser Node := do
  if (← get).token == .hashbang then advance
  let items ← statementList g true
  if (← get).token != .finish then failure
  let stop ← position
  return .node .program ⟨0, stop⟩ items

/-- A script with the comments in it, each with the start of the token it belongs to, and with the calls and functions
that annotations speak of. -/
structure Program where
  root : Node
  comments : List (Nat × Comment)
  annotated : List Span
  deriving Repr

/-- Reads from the start of a text; refuses what is flawed or has a default that nothing takes. -/
def Parser.run? (p : Parser Node) (source : String) : Option Program :=
  match (ReaderT.run p {}).run (Cursor.ofSource source) with
  | some (n, c) => if c.isFlawed || n.hasStrayDefault then none else some ⟨n, c.comments, c.annotated⟩
  | none => none

def parseProgram? (source : String) : Option Program :=
  match (Parser.program (Grammar.for source)).run? source with
  | some program =>
    let exported := program.root.parts.flatMap Node.interfaceNames
    if exported.Nodup then some program else none
  | none => none

def parseExpression? (source : String) : Option Node :=
  ((Parser.expression (Grammar.for source)).run? source).map (·.root)

end ReactiveTemplate.Script
