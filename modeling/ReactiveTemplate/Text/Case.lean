import ReactiveTemplate.Text.CaseTable
/-!
# Case — capital and small letters

`lowerOf` and `upperOf` give the letter of the other case, which may be several characters; a character without one
stays as it is.
-/
namespace ReactiveTemplate.Text

def inRow (n : Nat) (row : Nat × Nat × Nat × Nat) : Bool :=
  decide (row.1 ≤ n) && decide (n ≤ row.2.1) && (n - row.1) % row.2.2.1 == 0

def mapCase (rows : List (Nat × Nat × Nat × Nat)) (alone : List (Nat × List Nat)) (c : Char) : List Char :=
  match alone.lookup c.toNat with
  | some cs => cs.map Char.ofNat
  | none =>
    match rows.find? (inRow c.toNat) with
    | some row => [Char.ofNat (row.2.2.2 + (c.toNat - row.1))]
    | none => [c]

def lowerOf (c : Char) : List Char :=
  if c.toNat < 0x80 then [c.toLower] else mapCase lowerRows lowerAlone c

def upperOf (c : Char) : List Char :=
  if c.toNat < 0x80 then [c.toUpper] else mapCase upperRows upperAlone c

end ReactiveTemplate.Text
