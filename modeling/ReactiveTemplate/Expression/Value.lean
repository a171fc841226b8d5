import ReactiveTemplate.Json.Basic
import ReactiveTemplate.Number.Shortest
import ReactiveTemplate.Text.Blank
/-!
# Value — the values of server-side expressions

Values are those of JSON and `undefined`.
-/
namespace ReactiveTemplate

inductive Value where
  | undefined
  | null
  | bool (b : Bool)
  | number (x : Float)
  | string (s : String)
  | array (items : List Value)
  | object (fields : List (String × Value))
  deriving Repr, Inhabited

namespace Value

mutual
def ofJson : Json → Value
  | .null => .null
  | .bool b => .bool b
  | .number d => .number d.toFloat
  | .string s => .string s
  | .array items => .array (ofJsons items)
  | .object fields => .object (ofFields fields)

def ofJsons : List Json → List Value
  | [] => []
  | j :: js => ofJson j :: ofJsons js

def ofFields : List (String × Json) → List (String × Value)
  | [] => []
  | (name, j) :: rest =>
    let later := ofFields rest
    if later.any (fun f => f.1 == name) then later else (name, ofJson j) :: later
end

def isNullish : Value → Bool
  | undefined | null => true
  | _ => false

def truthy : Value → Bool
  | undefined | null => false
  | bool b => b
  | number x => x != 0.0 && !x.isNaN
  | string s => !s.isEmpty
  | array _ | object _ => true

def typeName : Value → String
  | undefined => "undefined"
  | null | array _ | object _ => "object"
  | bool _ => "boolean"
  | number _ => "number"
  | string _ => "string"

/-! ## Numbers and texts -/

def clampInt64 (n : Int) : Int := max (-9223372036854775808) (min n 9223372036854775807)

def numberText (x : Float) : String :=
  match Number.Binary64.ofFloat? x with
  | none => if x.isNaN then "NaN" else if x < 0.0 then "-Infinity" else "Infinity"
  | some b =>
    match b.toInt? with
    | some n => if n.natAbs < Nat.pow 10 21 then Number.intText (clampInt64 n) else Number.positionalText b
    | none => Number.positionalText b

/-- The number that a text without sign is: a decimal numeral, or a word for infinity. -/
def unsignedNumber? (negative : Bool) (cs : List Char) : Option Float :=
  match String.ofList (cs.map Char.toLower) with
  | "inf" | "infinity" => some (Number.infinity negative)
  | "nan" => some (0.0 / 0.0)
  | _ =>
    match Number.readNumeral cs with
    | some (d, []) => some (Number.signed negative d.magnitudeBits)
    | _ => none

def numberOf? (s : String) : Option Float :=
  match s.toList with
  | '+' :: cs => unsignedNumber? false cs
  | '-' :: cs => unsignedNumber? true cs
  | cs => unsignedNumber? false cs

def notANumber : Float := 0.0 / 0.0

mutual
def text : Value → String
  | undefined => "undefined"
  | null => "null"
  | bool b => if b then "true" else "false"
  | number x => numberText x
  | string s => s
  | array items => String.intercalate "," (itemTexts items)
  | object _ => "[object Object]"

def itemTexts : List Value → List String
  | [] => []
  | v :: vs => (if v.isNullish then "" else text v) :: itemTexts vs
end

def toNumber : Value → Float
  | undefined => notANumber
  | null => 0.0
  | bool b => if b then 1.0 else 0.0
  | number x => x
  | string s =>
    let trimmed := Text.trim s
    if trimmed.isEmpty then 0.0 else (numberOf? trimmed).getD notANumber
  | v => (numberOf? v.text).getD notANumber

def rendered? (v : Value) : Option String := if v.isNullish then none else some v.text

/-! ## Equality -/

mutual
def same : Value → Value → Bool
  | undefined, undefined => true
  | null, null => true
  | bool a, bool b => a == b
  | number x, number y => x == y
  | string s, string t => s == t
  | array xs, array ys => sameItems xs ys
  | object xs, object ys => xs.length == ys.length && sameFields xs ys
  | _, _ => false

def sameItems : List Value → List Value → Bool
  | [], [] => true
  | x :: xs, y :: ys => same x y && sameItems xs ys
  | _, _ => false

def sameFields : List (String × Value) → List (String × Value) → Bool
  | [], _ => true
  | (name, x) :: xs, ys =>
    (match ys.find? (fun f => f.1 == name) with
     | some (_, y) => same x y
     | none => false) && sameFields xs ys
end

def looselyEquals (a b : Value) : Bool :=
  if a.isNullish || b.isNullish then a.isNullish && b.isNullish
  else
    match a, b with
    | bool _, _ | _, bool _ | number _, _ | _, number _ => a.toNumber == b.toNumber
    | _, _ => same a b

/-! ## Properties -/

def indexOf? (key : String) : Option Nat :=
  let digits :=
    match key.toList with
    | '+' :: cs => cs
    | cs => cs
  if digits.isEmpty || !digits.all Char.isDigit then none else some (Number.ofDigits 10 digits)

/-- The property of a value under a key; strings and arrays have a length and their items. -/
def property (v key : Value) : Value :=
  let name := key.text
  match v with
  | array items =>
    if name == "length" then .number (Number.ofInt items.length)
    else ((indexOf? name).bind (fun i => items[i]?)).getD .undefined
  | object fields => ((fields.find? (fun f => f.1 == name)).map (·.2)).getD .undefined
  | string s =>
    if name == "length" then .number (Number.ofInt s.length)
    else ((indexOf? name).bind (fun i => s.toList[i]?)).elim .undefined (fun c => .string (String.ofList [c]))
  | _ => .undefined

/-! ## Operators -/

def joins : Value → Bool
  | string _ | array _ | object _ => true
  | _ => false

/-- The order of two values: of two texts by their characters, else of their numbers. -/
def compare? (a b : Value) : Option Ordering :=
  match a, b with
  | string s, string t => some (compare s t)
  | _, _ =>
    let x := a.toNumber
    let y := b.toNumber
    if x < y then some .lt else if y < x then some .gt else if x == y then some .eq else none

def ordered (test : Ordering → Bool) (a b : Value) : Value := .bool (((compare? a b).map test).getD false)

def operate (operator : String) (a b : Value) : Value :=
  match operator with
  | "+" => if a.joins || b.joins then .string (a.text ++ b.text) else .number (a.toNumber + b.toNumber)
  | "-" => .number (a.toNumber - b.toNumber)
  | "*" => .number (a.toNumber * b.toNumber)
  | "/" => .number (a.toNumber / b.toNumber)
  | "%" => .number (Number.remainder a.toNumber b.toNumber)
  | "**" => .number (Float.pow a.toNumber b.toNumber)
  | "==" => .bool (looselyEquals a b)
  | "!=" => .bool (!looselyEquals a b)
  | "===" => .bool (same a b)
  | "!==" => .bool (!same a b)
  | "<" => ordered (·.isLT) a b
  | "<=" => ordered (·.isLE) a b
  | ">" => ordered (·.isGT) a b
  | ">=" => ordered (·.isGE) a b
  | _ => .undefined

def operateUnary (operator : String) (v : Value) : Value :=
  match operator with
  | "!" => .bool (!v.truthy)
  | "-" => .number (-v.toNumber)
  | "+" => .number v.toNumber
  | "typeof" => .string v.typeName
  | _ => .undefined

end Value
end ReactiveTemplate
