/-!
# Search — prefixes, first occurrences and replacement

Plain text search on lists of characters.  `cut? needle cs` splits `cs` around the first occurrence of `needle`; the
other searches are read off it.
-/
namespace ReactiveTemplate.Text

def cut? (needle : List Char) : List Char → Option (List Char × List Char)
  | [] => if needle.isEmpty then some ([], []) else none
  | c :: cs =>
    match needle.isPrefixOf? (c :: cs) with
    | some rest => some ([], rest)
    | none => (cut? needle cs).map (fun (before, after) => (c :: before, after))

def contains (s needle : String) : Bool :=
  (cut? needle.toList s.toList).isSome

def dropStart? (s start : String) : Option String :=
  (start.toList.isPrefixOf? s.toList).map String.ofList

def startsWith (s start : String) : Bool :=
  start.toList.isPrefixOf s.toList

def endsWith (s : String) (c : Char) : Bool :=
  s.toList.getLast? == some c

def flatMap (s : String) (f : Char → List Char) : String :=
  String.ofList (s.toList.flatMap f)

def escapeWith (mark : Char) (p : Char → Bool) (s : String) : String :=
  flatMap s (fun c => if p c then [mark, c] else [c])

def splitAt? (s : String) (c : Char) : Option (String × String) :=
  (cut? [c] s.toList).map (fun (a, b) => (String.ofList a, String.ofList b))

def lower (s : String) : String :=
  String.ofList (s.toList.map Char.toLower)

end ReactiveTemplate.Text
