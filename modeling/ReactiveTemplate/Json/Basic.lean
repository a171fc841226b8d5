import ReactiveTemplate.Number.Decimal
import ReactiveTemplate.Digest.Bytes
/-!
# Json — JSON documents

Scopes come as JSON documents and payloads quote texts as JSON strings.
-/
namespace ReactiveTemplate

inductive Json where
  | null
  | bool (b : Bool)
  | number (d : Number.Decimal)
  | string (s : String)
  | array (items : List Json)
  | object (fields : List (String × Json))
  deriving Repr, Inhabited

namespace Json

def field? (name : String) : Json → Option Json
  | object fields => (fields.reverse.find? (fun f => f.1 == name)).map (·.2)
  | _ => none

def ofInt (n : Int) : Json := number (Number.Decimal.ofInt n)

def ofNat (n : Nat) : Json := ofInt n

/-- One character inside a JSON string: quotes, backslashes and control characters are escaped. -/
def escapeChar (c : Char) : List Char :=
  if c = '"' then ['\\', '"']
  else if c = '\\' then ['\\', '\\']
  else if c = '\n' then ['\\', 'n']
  else if c = '\r' then ['\\', 'r']
  else if c = '\t' then ['\\', 't']
  else if c = '\x08' then ['\\', 'b']
  else if c = '\x0c' then ['\\', 'f']
  else if c.toNat < 0x20 then '\\' :: 'u' :: Digest.hexDigits 4 c.toNat
  else [c]

def quote (s : String) : String :=
  String.ofList ('"' :: s.toList.flatMap escapeChar ++ ['"'])

def numberText (d : Number.Decimal) : String :=
  (if d.negative then "-" else "") ++ Number.natText d.mantissa ++
    (if d.exponent = 0 then "" else "e" ++ Number.intText d.exponent)

mutual
def render : Json → String
  | null => "null"
  | bool b => if b then "true" else "false"
  | number d => numberText d
  | string s => quote s
  | array items => "[" ++ String.intercalate "," (renderAll items) ++ "]"
  | object fields => "\x7b" ++ String.intercalate "," (renderFields fields) ++ "\x7d"

def renderAll : List Json → List String
  | [] => []
  | j :: js => render j :: renderAll js

def renderFields : List (String × Json) → List String
  | [] => []
  | (name, j) :: rest => (quote name ++ ":" ++ render j) :: renderFields rest
end

end Json
end ReactiveTemplate
