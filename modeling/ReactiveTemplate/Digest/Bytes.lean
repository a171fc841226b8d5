/-!
# Bytes — byte lists, words and their text

Texts are hashed as the bytes of their UTF-8 encoding.  Words are read off byte lists from a given offset; bytes past
the end read as zero.
-/
namespace ReactiveTemplate.Digest

def utf8 (s : String) : List UInt8 :=
  s.toUTF8.data.toList

def littleEndian : Nat → List UInt8 → Nat
  | 0, _ => 0
  | _, [] => 0
  | count + 1, b :: bs => b.toNat + 256 * littleEndian count bs

def bigEndian (count : Nat) (bs : List UInt8) : Nat :=
  (bs.take count).foldl (fun n b => n * 256 + b.toNat) 0

def word64 (bs : List UInt8) (offset : Nat) : UInt64 :=
  UInt64.ofNat (littleEndian 8 (bs.drop offset))

def word32 (bs : List UInt8) (offset : Nat) : UInt64 :=
  UInt64.ofNat (littleEndian 4 (bs.drop offset))

def bytesOf (count n : Nat) : List UInt8 :=
  (List.range count).reverse.map (fun i => UInt8.ofNat (n / Nat.pow 256 i))

def base64Digit (n : Nat) : Char :=
  let n := n % 64
  if n < 26 then Char.ofNat ('A'.toNat + n)
  else if n < 52 then Char.ofNat ('a'.toNat + (n - 26))
  else if n < 62 then Char.ofNat ('0'.toNat + (n - 52))
  else if n = 62 then '-'
  else '_'

def base64Url : List UInt8 → List Char
  | a :: b :: c :: rest =>
    let n := a.toNat * 65536 + b.toNat * 256 + c.toNat
    base64Digit (n / 262144) :: base64Digit (n / 4096) :: base64Digit (n / 64) :: base64Digit n :: base64Url rest
  | [a, b] =>
    let n := a.toNat * 1024 + b.toNat * 4
    [base64Digit (n / 4096), base64Digit (n / 64), base64Digit n]
  | [a] =>
    let n := a.toNat * 16
    [base64Digit (n / 64), base64Digit n]
  | [] => []

def hexDigit (n : Nat) : Char :=
  if n % 16 < 10 then Char.ofNat ('0'.toNat + n % 16) else Char.ofNat ('a'.toNat + (n % 16 - 10))

def hexDigits (count n : Nat) : List Char :=
  (List.range count).reverse.map (fun i => hexDigit (n / Nat.pow 16 i))

end ReactiveTemplate.Digest
