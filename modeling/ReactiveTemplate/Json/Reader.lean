import ReactiveTemplate.Json.Basic
/-!
# Reader — JSON documents from text

`Json.parse?` reads one document that fills the whole text.
-/
namespace ReactiveTemplate.Json

def isSpace (c : Char) : Bool := c == ' ' || c == '\n' || c == '\r' || c == '\t'

def skip (cs : List Char) : List Char := cs.dropWhile isSpace

def hex4? : List Char → Option (Nat × List Char)
  | a :: b :: c :: d :: rest =>
    if [a, b, c, d].all (fun x => (Number.digitIn? 16 x).isSome) then
      some (Number.ofDigits 16 [a, b, c, d], rest)
    else none
  | _ => none

def unicodeEscape? (cs : List Char) : Option (Char × List Char) :=
  match hex4? cs with
  | none => none
  | some (n, rest) =>
    if 0xD800 ≤ n && n ≤ 0xDBFF then
      match rest with
      | '\\' :: 'u' :: more =>
        match hex4? more with
        | some (m, after) =>
          if 0xDC00 ≤ m && m ≤ 0xDFFF then
            some (Char.ofNat (0x10000 + (n - 0xD800) * 0x400 + (m - 0xDC00)), after)
          else none
        | none => none
      | _ => none
    else if 0xDC00 ≤ n && n ≤ 0xDFFF then none
    else some (Char.ofNat n, rest)

def simpleEscape? : Char → Option Char
  | '"' => some '"'
  | '\\' => some '\\'
  | '/' => some '/'
  | 'b' => some '\x08'
  | 'f' => some '\x0c'
  | 'n' => some '\n'
  | 'r' => some '\r'
  | 't' => some '\t'
  | _ => none

def readString : Nat → List Char → List Char → Option (String × List Char)
  | 0, _, _ => none
  | fuel + 1, acc, cs =>
    match cs with
    | [] => none
    | '"' :: rest => some (String.ofList acc.reverse, rest)
    | '\\' :: 'u' :: rest =>
      match unicodeEscape? rest with
      | some (c, after) => readString fuel (c :: acc) after
      | none => none
    | '\\' :: e :: rest =>
      match simpleEscape? e with
      | some c => readString fuel (c :: acc) rest
      | none => none
    | c :: rest => readString fuel (c :: acc) rest

mutual
def readValue : Nat → List Char → Option (Json × List Char)
  | 0, _ => none
  | fuel + 1, cs =>
    match cs with
    | 'n' :: 'u' :: 'l' :: 'l' :: rest => some (null, rest)
    | 't' :: 'r' :: 'u' :: 'e' :: rest => some (bool true, rest)
    | 'f' :: 'a' :: 'l' :: 's' :: 'e' :: rest => some (bool false, rest)
    | '"' :: rest => (readString (rest.length + 1) [] rest).map (fun (s, after) => (string s, after))
    | '[' :: rest =>
      match skip rest with
      | ']' :: after => some (array [], after)
      | body => (readItems fuel [] body).map (fun (items, after) => (array items, after))
    | '\x7b' :: rest =>
      match skip rest with
      | '\x7d' :: after => some (object [], after)
      | body => (readFields fuel [] body).map (fun (fields, after) => (object fields, after))
    | '-' :: rest => (Number.readNumeral rest).map (fun (d, after) => (number ⟨true, d.mantissa, d.exponent⟩, after))
    | rest => (Number.readNumeral rest).map (fun (d, after) => (number d, after))

def readItems : Nat → List Json → List Char → Option (List Json × List Char)
  | 0, _, _ => none
  | fuel + 1, acc, cs =>
    match readValue fuel (skip cs) with
    | none => none
    | some (j, rest) =>
      match skip rest with
      | ',' :: more => readItems fuel (j :: acc) more
      | ']' :: after => some ((j :: acc).reverse, after)
      | _ => none

def readFields : Nat → List (String × Json) → List Char → Option (List (String × Json) × List Char)
  | 0, _, _ => none
  | fuel + 1, acc, cs =>
    match skip cs with
    | '"' :: body =>
      match readString (body.length + 1) [] body with
      | none => none
      | some (name, rest) =>
        match skip rest with
        | ':' :: value =>
          match readValue fuel (skip value) with
          | none => none
          | some (j, rest) =>
            match skip rest with
            | ',' :: more => readFields fuel ((name, j) :: acc) more
            | '\x7d' :: after => some (((name, j) :: acc).reverse, after)
            | _ => none
        | _ => none
    | _ => none
end

def parse? (s : String) : Option Json :=
  let cs := s.toList
  match readValue (cs.length + 1) (skip cs) with
  | some (j, rest) => if (skip rest).isEmpty then some j else none
  | none => none

end ReactiveTemplate.Json
