/-!
# Binary64 — double precision numbers as integers

A finite double is `± mantissa · 2 ^ exponent` (`Binary64`).
-/
namespace ReactiveTemplate.Number

structure Binary64 where
  negative : Bool
  mantissa : Nat
  exponent : Int
  deriving Repr, DecidableEq

def signed (negative : Bool) (bits : Nat) : Float :=
  Float.ofBits (UInt64.ofNat (if negative then bits + Nat.pow 2 63 else bits))

def infinityBits : Nat := 2047 * Nat.pow 2 52

def infinity (negative : Bool) : Float := signed negative infinityBits

def Binary64.ofFloat? (x : Float) : Option Binary64 :=
  let bits : Nat := x.toBits.toNat
  let fraction : Nat := bits % Nat.pow 2 52
  let biased : Nat := bits / Nat.pow 2 52 % 2048
  let negative := decide (Nat.pow 2 63 ≤ bits)
  if biased = 2047 then none
  else if biased = 0 then some ⟨negative, fraction, -1074⟩
  else some ⟨negative, fraction + Nat.pow 2 52, (biased : Int) - 1075⟩

def scaledQuotient (num den : Nat) (e : Int) : Nat × Nat × Nat :=
  let top := if e < 0 then num * Nat.pow 2 (-e).toNat else num
  let bottom := if e < 0 then den else den * Nat.pow 2 e.toNat
  (top / bottom, top % bottom, bottom)

/-- A quotient with its remainder, rounded to the nearest whole number, a tie to the even one. -/
def roundHalfEven (quotient remainder divisor : Nat) : Nat :=
  if 2 * remainder > divisor || (2 * remainder == divisor && quotient % 2 == 1) then quotient + 1 else quotient

/-- The exponent at which `num / den` has 53 bits before the point, or the least exponent there is. -/
def unitExponent (num den : Nat) : Int :=
  let guess : Int := (Nat.log2 num : Int) - (Nat.log2 den : Int) - 52
  let e := max guess (-1074)
  if (scaledQuotient num den e).1 < Nat.pow 2 52 then max (e - 1) (-1074) else e

/-- The bits, sign apart, of the double nearest to `num / den`; ties go to the even mantissa. -/
def nearestBits (num den : Nat) : Nat :=
  if num = 0 then 0
  else
    let e := unitExponent num den
    let (quotient, remainder, divisor) := scaledQuotient num den e
    let m := roundHalfEven quotient remainder divisor
    if m < Nat.pow 2 52 then m
    else
      let (m, e) := if m = Nat.pow 2 53 then (Nat.pow 2 52, e + 1) else (m, e)
      if 2047 ≤ e + 1075 then infinityBits else (e + 1075).toNat * Nat.pow 2 52 + (m - Nat.pow 2 52)

def nearest (negative : Bool) (num den : Nat) : Float :=
  signed negative (nearestBits num den)

/-- A whole number rounded to the nearest one with 53 significant bits, a tie going to the even mantissa. -/
def roundNat (n : Nat) : Nat :=
  let shift := Nat.log2 n - 52
  let unit := Nat.pow 2 shift
  roundHalfEven (n / unit) (n % unit) unit * unit

def ofInt (n : Int) : Float :=
  nearest (decide (n < 0)) n.natAbs 1

def Binary64.toInt? (b : Binary64) : Option Int :=
  let magnitude : Option Nat :=
    if 0 ≤ b.exponent then some (b.mantissa * Nat.pow 2 b.exponent.toNat)
    else
      let unit := Nat.pow 2 (-b.exponent).toNat
      if b.mantissa % unit = 0 then some (b.mantissa / unit) else none
  magnitude.map (fun n => if b.negative then -(n : Int) else n)

/-- The remainder of a division that rounds toward zero: the sign of `x`, less than `y` in size. -/
def remainder (x y : Float) : Float :=
  match Binary64.ofFloat? x, Binary64.ofFloat? y with
  | some a, some b =>
    if b.mantissa = 0 then 0.0 / 0.0
    else
      let e := min a.exponent b.exponent
      let top := a.mantissa * Nat.pow 2 (a.exponent - e).toNat
      let bottom := b.mantissa * Nat.pow 2 (b.exponent - e).toNat
      let rest := top % bottom
      if 0 ≤ e then nearest a.negative (rest * Nat.pow 2 e.toNat) 1 else nearest a.negative rest (Nat.pow 2 (-e).toNat)
  | some _, none => if y.isNaN then 0.0 / 0.0 else x
  | none, _ => 0.0 / 0.0

end ReactiveTemplate.Number
