/-!
# Blank — white space, trimming and words

A character is *blank* when it has the `White_Space` property: the ASCII blanks, U+0085, U+00A0 and the spaces and line
separators of the general punctuation block.
-/
namespace ReactiveTemplate.Text

def isBlank (c : Char) : Bool :=
  let n := c.toNat
  (0x09 ≤ n && n ≤ 0x0D) || n == 0x20 || n == 0x85 || n == 0xA0 || n == 0x1680 || (0x2000 ≤ n && n ≤ 0x200A) ||
    n == 0x2028 || n == 0x2029 || n == 0x202F || n == 0x205F || n == 0x3000

def dropEndWhile (p : Char → Bool) (cs : List Char) : List Char :=
  (cs.reverse.dropWhile p).reverse

def trimChars (cs : List Char) : List Char :=
  dropEndWhile isBlank (cs.dropWhile isBlank)

def trim (s : String) : String :=
  String.ofList (trimChars s.toList)

def trimStart (s : String) : String :=
  String.ofList (s.toList.dropWhile isBlank)

def runs (p : Char → Bool) : List Char → List (List Char)
  | [] => []
  | c :: cs =>
    if p c then runs p cs
    else
      match cs with
      | [] => [[c]]
      | d :: _ =>
        if p d then [c] :: runs p cs
        else
          match runs p cs with
          | [] => [[c]]
          | w :: ws => (c :: w) :: ws

def words (s : String) : List String :=
  (runs isBlank s.toList).map String.ofList

end ReactiveTemplate.Text
