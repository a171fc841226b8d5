import ReactiveTemplate.Number.Decimal
/-!
# Shortest — the fewest digits that read back

`shortest m q` is the decimal with the fewest digits among those that round to the double `m · 2 ^ q`, and of those the
nearest to it.
-/
namespace ReactiveTemplate.Number

/-- The distance to the lower end of the rounding interval, in quarters of a unit of the mantissa: the gap below a power
of two is half as wide. -/
def lowerGap (m : Nat) (q : Int) : Nat :=
  if m = Nat.pow 2 52 && decide (-1074 < q) then 1 else 2

def quotientLe (closed : Bool) (a b c d : Nat) : Bool :=
  if closed then a * d ≤ c * b else a * d < c * b

def powerFraction (base : Nat) (e : Int) : Nat × Nat :=
  if 0 ≤ e then (Nat.pow base e.toNat, 1) else (1, Nat.pow base (-e).toNat)

def roundsTo (m : Nat) (q : Int) (d : Nat) (k : Int) : Bool :=
  let (tn, td) := powerFraction 10 k
  let (bn, bd) := powerFraction 2 (q - 2)
  let closed := m % 2 == 0
  quotientLe closed ((4 * m - lowerGap m q) * bn) bd (d * tn) td &&
    quotientLe closed (d * tn) td ((4 * m + 2) * bn) bd

/-- The greatest number of units `10 ^ k` in `m · 2 ^ q`, with what is left over and the unit, over one denominator. -/
def unitsBelow (m : Nat) (q : Int) (k : Int) : Nat × Nat × Nat :=
  let (tn, td) := powerFraction 10 k
  let (bn, bd) := powerFraction 2 q
  let top := m * bn * td
  let unit := tn * bd
  (top / unit, top % unit, unit)

/-- The neighbour of `m · 2 ^ q` on the grid of `10 ^ k` that rounds to it, the nearer one if both do. -/
def neighbour? (m : Nat) (q : Int) (k : Int) : Option Nat :=
  let (below, rest, unit) := unitsBelow m q k
  let low := decide (0 < below) && roundsTo m q below k
  let high := roundsTo m q (below + 1) k
  if low && high then some (if 2 * rest < unit then below else below + 1)
  else if low then some below
  else if high then some (below + 1)
  else none

/-- The position of the first digit: `10 ^ magnitude ≤ m · 2 ^ q < 10 ^ (magnitude + 1)`, up to one. -/
def magnitude (m : Nat) (q : Int) : Int :=
  let (bn, bd) := powerFraction 2 q
  let whole := m * bn / bd
  if 0 < whole then ((Nat.toDigits 10 whole).length : Int) - 1
  else -(((Nat.toDigits 10 (bd / (m * bn))).length : Int))

def firstGrid (m : Nat) (q : Int) : Nat → Int → Nat × Int
  | 0, k => ((unitsBelow m q k).1, k)
  | count + 1, k =>
    match neighbour? m q k with
    | some d => (d, k)
    | none => firstGrid m q count (k - 1)

def dropZeros : Nat → Nat → Int → Nat × Int
  | 0, d, k => (d, k)
  | fuel + 1, d, k => if d != 0 && d % 10 == 0 then dropZeros fuel (d / 10) (k + 1) else (d, k)

/-- The digits and the exponent of the shortest decimal that rounds to `m · 2 ^ q`. -/
def shortest (m : Nat) (q : Int) : Nat × Int :=
  if m = 0 then (0, 0)
  else
    let (d, k) := firstGrid m q 20 (magnitude m q + 1)
    dropZeros 400 d k

def zeros (n : Nat) : List Char := List.replicate n '0'

def positional (d : Nat) (k : Int) : String :=
  let digits := Nat.toDigits 10 d
  if 0 ≤ k then String.ofList (digits ++ zeros k.toNat)
  else
    let places := (-k).toNat
    let padded := zeros (places + 1 - digits.length) ++ digits
    let cut := padded.length - places
    String.ofList (padded.take cut ++ '.' :: padded.drop cut)

def positionalText (b : Binary64) : String :=
  let (d, k) := shortest b.mantissa b.exponent
  (if b.negative then "-" else "") ++ positional d k

/-- `d · 10 ^ k` as a script writes it: an exponent from `10 ^ 21` up and below `10 ^ -6`. -/
def exponential (d : Nat) (k : Int) : String :=
  let digits := Nat.toDigits 10 d
  let point : Int := k + digits.length
  if -6 < point && point ≤ 21 then positional d k
  else
    let head := digits.take 1
    let tail := digits.drop 1
    let exponent := point - 1
    String.ofList (head ++ (if tail.isEmpty then [] else '.' :: tail)) ++
      (if exponent < 0 then "e-" else "e+") ++ natText exponent.natAbs

/-- `num / den` with `places` digits behind the point, a tie going to the even digit. -/
def fixed (places : Nat) (negative : Bool) (num den : Nat) : String :=
  let scaled := num * Nat.pow 10 places
  let n := roundHalfEven (scaled / den) (scaled % den) den
  (if negative then "-" else "") ++ positional n (-(places : Int))

/-- A finite double with `places` digits behind the point, a tie going to the even digit. -/
def fixedText (places : Nat) (b : Binary64) : String :=
  let (bn, bd) := powerFraction 2 b.exponent
  fixed places b.negative (b.mantissa * bn) bd

end ReactiveTemplate.Number
