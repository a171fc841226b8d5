import ReactiveTemplate.Number.Shortest
import ReactiveTemplate.Text.Search
/-!
# Compact — the shortest way to write a number in a script

A number is written without a zero in front of the point, in base 16, or with an exponent, whichever is shortest; among
equals the form without exponent wins.
-/
namespace ReactiveTemplate.Number

def shorter (current candidate : List Char) : List Char :=
  if candidate.length < current.length then candidate else current

def hexText (n : Nat) : List Char := '0' :: 'x' :: Nat.toDigits 16 n

def withNegativeExponent (cs : List Char) : List Char :=
  match cs with
  | '.' :: '0' :: rest =>
    let digits := rest.dropWhile (· == '0')
    if digits.isEmpty then cs else shorter cs (digits ++ 'e' :: '-' :: (natText (cs.length - 1)).toList)
  | _ => cs

def withExponent (cs : List Char) : List Char :=
  let base := (cs.reverse.dropWhile (· == '0')).reverse
  let dropped := cs.length - base.length
  if dropped = 0 || base.isEmpty then cs else shorter cs (base ++ 'e' :: (natText dropped).toList)

def withoutPoint (cs : List Char) : List Char :=
  match cs.span (· != '.') with
  | (whole, '.' :: rest) =>
    match rest.span (· != 'e') with
    | (fraction, 'e' :: exponent) =>
      let (negative, digits) :=
        match exponent with
        | '-' :: ds => (true, ds)
        | ds => (false, ds)
      let value : Int := if negative then -(ofDigits 10 digits : Int) else ofDigits 10 digits
      shorter cs (whole ++ fraction ++ 'e' :: (intText (value - fraction.length)).toList)
    | _ => cs
  | _ => cs

def trimmedDecimal (s : String) : List Char :=
  let cs :=
    match s.toList with
    | '0' :: '.' :: rest => '.' :: rest
    | cs => cs
  match cs.span (· != '+') with
  | (before, '+' :: after) => before ++ after
  | _ => cs

def compact (b : Binary64) : List Char :=
  let (d, k) := shortest b.mantissa b.exponent
  let plain := exponential d k
  match b.toInt? with
  | some n =>
    if n < 1000 then plain.toList
    else
      let decimal := trimmedDecimal plain
      let hex := hexText n.natAbs
      if hex.length < decimal.length then hex else withoutPoint (withExponent decimal)
  | none => withoutPoint (withExponent (withNegativeExponent (trimmedDecimal plain)))

def compactText (bits : Nat) : String :=
  match Binary64.ofFloat? (signed false bits) with
  | some b => String.ofList (compact b)
  | none => "Infinity"

end ReactiveTemplate.Number
