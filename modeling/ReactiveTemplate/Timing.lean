import ReactiveTemplate.Number.Shortest
import ReactiveTemplate.Text.Search
/-!
# Timing — how long each phase took

Entries are reported in the `Server-Timing` header: `name;dur=milliseconds;desc="text"`, joined by commas.  Durations
have three decimals, a tie going to the even digit.
-/
namespace ReactiveTemplate

structure TimingEntry where
  name : String
  duration : Float
  description : String

namespace TimingEntry

/-- A duration in nanoseconds as milliseconds: whole seconds and the rest of a second are converted apart. -/
def milliseconds (nanoseconds : Nat) : Float :=
  let whole := Number.ofInt (nanoseconds / 1000000000 : Nat)
  let part := Number.ofInt (nanoseconds % 1000000000 : Nat) / 1000000000.0
  (whole + part) * 1000.0

def durationText (x : Float) : String :=
  match Number.Binary64.ofFloat? x with
  | some b => Number.fixedText 3 b
  | none => if x.isNaN then "NaN" else if x < 0.0 then "-inf" else "inf"

def header (e : TimingEntry) : String :=
  e.name ++ ";dur=" ++ durationText e.duration ++
    (if e.description.isEmpty then ""
     else ";desc=\"" ++ Text.escapeWith '\\' (fun c => c == '\\' || c == '"') e.description ++ "\"")

end TimingEntry

structure ServerTiming where
  entries : List TimingEntry := []

namespace ServerTiming

def add (t : ServerTiming) (name : String) (nanoseconds : Nat) (description : String) : ServerTiming :=
  ⟨t.entries ++ [⟨name, TimingEntry.milliseconds nanoseconds, description⟩]⟩

def isEmpty (t : ServerTiming) : Bool := t.entries.isEmpty

def header (t : ServerTiming) : String :=
  String.intercalate ", " (t.entries.map TimingEntry.header)

end ServerTiming
end ReactiveTemplate
