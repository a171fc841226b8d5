import ReactiveTemplate.Template.Compiled
/-!
# Token — marks for what is dynamic

While a template is compiled, a mark stands in its HTML for each dynamic part.  `Compiled.ofHtml` cuts the HTML at the
marks.
-/
namespace ReactiveTemplate

def tokenHead : List Char := "␣____sdi__".toList

def tokenTail : List Char := "__".toList

def dynamicToken (number : Nat) : String :=
  String.ofList (tokenHead ++ (Number.natText number).toList ++ tokenTail)

def dropChars? : List Char → List Char → Option (List Char)
  | [], rest => some rest
  | c :: cs, d :: ds => if c = d then dropChars? cs ds else none
  | _ :: _, [] => none

def readToken? (cs : List Char) : Option (Nat × Nat) :=
  match dropChars? tokenHead cs with
  | none => none
  | some rest =>
    let digits := rest.takeWhile Char.isDigit
    if digits.isEmpty || (dropChars? tokenTail (rest.drop digits.length)).isNone then none
    else some (Number.ofDigits 10 digits, tokenHead.length + digits.length + tokenTail.length)

namespace Compiled

/-- Cuts a text at the marks of parts that are still there; `skip` characters belong to a mark already read, and `text`
holds the characters since the last mark, in reverse. -/
def split (pending : List (Option Dynamic)) (skip : Nat) (text : List Char) : List Char → List String × List Dynamic
  | [] => ([String.ofList text.reverse], [])
  | c :: cs =>
    match skip with
    | n + 1 => split pending n text cs
    | 0 =>
      match (readToken? (c :: cs)).bind
        (fun (number, size) => (pending[number]?.join).map (fun d => (number, size, d))) with
      | some (number, size, d) =>
        let (statics, dynamics) := split (pending.set number none) (size - 1) [] cs
        (String.ofList text.reverse :: statics, d :: dynamics)
      | none => split pending 0 (c :: text) cs

def ofHtml (html : String) (dynamics : List Dynamic) : Compiled :=
  let (statics, ordered) := split (dynamics.map some) 0 [] html.toList
  mk statics ordered

end Compiled
end ReactiveTemplate
