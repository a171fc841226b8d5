import ReactiveTemplate.Number.Binary64
/-!
# Decimal — decimal numerals and their values

A decimal is `± mantissa · 10 ^ exponent`, exactly.  `Decimal.toFloat` is the double nearest to it.
-/
namespace ReactiveTemplate.Number

structure Decimal where
  negative : Bool := false
  mantissa : Nat
  exponent : Int := 0
  deriving Repr, DecidableEq

def digitIn? (base : Nat) (c : Char) : Option Nat :=
  let value :=
    if c.isDigit then c.toNat - '0'.toNat
    else if 'a' ≤ c && c ≤ 'f' then c.toNat - 'a'.toNat + 10
    else if 'A' ≤ c && c ≤ 'F' then c.toNat - 'A'.toNat + 10
    else base
  if value < base then some value else none

/-- The number written by a list of digits in a base; characters that are no digits count as nothing. -/
def ofDigits (base : Nat) (cs : List Char) : Nat :=
  cs.foldl (fun n c => match digitIn? base c with | some d => n * base + d | none => n) 0

def natText (n : Nat) : String :=
  String.ofList (Nat.toDigits 10 n)

def intText (n : Int) : String :=
  if n < 0 then "-" ++ natText n.natAbs else natText n.natAbs

def Decimal.magnitudeBits (d : Decimal) : Nat :=
  let size : Int := d.exponent + (Nat.toDigits 10 d.mantissa).length
  if d.mantissa = 0 || size < -330 then 0
  else if 320 < size then infinityBits
  else if 0 ≤ d.exponent then nearestBits (d.mantissa * Nat.pow 10 d.exponent.toNat) 1
  else nearestBits d.mantissa (Nat.pow 10 (-d.exponent).toNat)

def Decimal.toFloat (d : Decimal) : Float := signed d.negative d.magnitudeBits

def Decimal.toInt? (d : Decimal) : Option Int :=
  if 0 ≤ d.exponent then
    let n : Int := (d.mantissa * Nat.pow 10 d.exponent.toNat : Nat)
    some (if d.negative then -n else n)
  else none

def Decimal.ofInt (n : Int) : Decimal :=
  ⟨decide (n < 0), n.natAbs, 0⟩

def spanDigits (cs : List Char) : List Char × List Char :=
  cs.span Char.isDigit

def readExponent (cs : List Char) : Int × List Char :=
  match cs with
  | c :: rest =>
    if c = 'e' || c = 'E' then
      let (negative, body) :=
        match rest with
        | '-' :: r => (true, r)
        | '+' :: r => (false, r)
        | r => (false, r)
      let (digits, after) := spanDigits body
      if digits.isEmpty then (0, cs)
      else
        let n : Int := ofDigits 10 digits
        (if negative then -n else n, after)
    else (0, cs)
  | [] => (0, [])

/-- Reads a numeral without sign: a whole part, a fraction and an exponent, of which the whole part or the fraction
has a digit. -/
def readNumeral (cs : List Char) : Option (Decimal × List Char) :=
  let (whole, rest) := spanDigits cs
  let (fraction, rest) :=
    match rest with
    | '.' :: r => spanDigits r
    | r => ([], r)
  if whole.isEmpty && fraction.isEmpty then none
  else
    let (exponent, rest) := readExponent rest
    some (⟨false, ofDigits 10 (whole ++ fraction), exponent - fraction.length⟩, rest)

end ReactiveTemplate.Number
