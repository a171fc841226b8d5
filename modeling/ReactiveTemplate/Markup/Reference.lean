import ReactiveTemplate.Number.Decimal
import ReactiveTemplate.Markup.ReferenceTable
/-!
# Reference — character references in text and attribute values

`decode` replaces the character references of a text: `&#` and decimal digits, `&#x` and hexadecimal ones, or `&` and
the longest name of the table that stands there.
-/
namespace ReactiveTemplate.Markup.Reference

def controls : List Nat :=
  [0x20AC, 0x81, 0x201A, 0x0192, 0x201E, 0x2026, 0x2020, 0x2021, 0x02C6, 0x2030, 0x0160, 0x2039, 0x0152, 0x8D, 0x017D,
   0x8F, 0x90, 0x2018, 0x2019, 0x201C, 0x201D, 0x2022, 0x2013, 0x2014, 0x02DC, 0x2122, 0x0161, 0x203A, 0x0153, 0x9D,
   0x017E, 0x0178]

def numbered (n : Nat) : Char :=
  if n = 0 || n > 0x10FFFF || (0xD800 ≤ n && n ≤ 0xDFFF) then '\ufffd'
  else if 0x80 ≤ n && n ≤ 0x9F then Char.ofNat ((controls[n - 0x80]?).getD n)
  else Char.ofNat n

def dropSemicolon : List Char → List Char
  | ';' :: rest => rest
  | rest => rest

def numeric? (cs : List Char) : Option (List Char × List Char) :=
  let (base, body) :=
    match cs with
    | 'x' :: rest => (16, rest)
    | 'X' :: rest => (16, rest)
    | rest => (10, rest)
  let (digits, after) := body.span (fun c => (Number.digitIn? base c).isSome)
  if digits.isEmpty then none else some ([numbered (Number.ofDigits base digits)], dropSemicolon after)

def longest? (cs : List Char) : Option (String × List Nat) :=
  named.foldl (fun best entry =>
    if entry.1.toList.isPrefixOf cs then
      match best with
      | some (name, _) => if name.length < entry.1.length then some entry else best
      | none => some entry
    else best) none

def continues : List Char → Bool
  | c :: _ => c == '=' || c.isAlphanum
  | [] => false

def read? (inValue : Bool) (cs : List Char) : Option (List Char × List Char) :=
  match cs with
  | '#' :: rest => numeric? rest
  | _ =>
    match longest? cs with
    | none => none
    | some (name, points) =>
      let rest := cs.drop name.length
      if inValue && name.toList.getLast? != some ';' && continues rest then none
      else some (points.map Char.ofNat, rest)

def decodeWithin (inValue : Bool) : Nat → List Char → List Char
  | 0, _ => []
  | _, [] => []
  | fuel + 1, c :: cs =>
    if c = '&' then
      match read? inValue cs with
      | some (out, rest) => out ++ decodeWithin inValue fuel rest
      | none => c :: decodeWithin inValue fuel cs
    else c :: decodeWithin inValue fuel cs

def decode (inValue : Bool) (cs : List Char) : List Char :=
  decodeWithin inValue (cs.length + 1) cs

/-- Whether a text read backwards starts with digits of a base and then with `&#` and the mark of that base. -/
def endsInNumber (base : Nat) (mark : List Char) (back : List Char) : Bool :=
  let (digits, rest) := back.span (fun c => (Number.digitIn? base c).isSome)
  !digits.isEmpty && (mark ++ ['#', '&']).isPrefixOf rest

def cutShort? (cs : List Char) : Option String :=
  let back := cs.reverse
  if ['#', '&'].isPrefixOf back then some "EOF after '#' in character reference"
  else if endsInNumber 10 [] back || endsInNumber 16 ['x'] back || endsInNumber 16 ['X'] back then
    some "EOF in numeric character reference"
  else none

end ReactiveTemplate.Markup.Reference
