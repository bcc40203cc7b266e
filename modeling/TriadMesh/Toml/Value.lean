import TriadMesh.Binary64.Text

/-!
# TOML values

What a document holds once tables, headers and dotted keys have been sorted out. No use is made of the
parts of a date, so a date is only known to be one.
-/

namespace TriadMesh.Toml

inductive Value where
  | text (s : String)
  | integer (n : Int)
  | float (x : Binary64)
  | flag (b : Bool)
  | date
  | array (items : List Value)
  | table (entries : List (String × Value))
deriving Inhabited

namespace Value

/-- The float of a number; an integer is rounded to one. -/
def toFloat? : Value → Option Binary64
  | float x => some x
  | integer n => some (.ofInt n)
  | _ => none

def toText? : Value → Option String
  | text s => some s
  | _ => none

def toNat? : Value → Option Nat
  | integer (.ofNat n) => some n
  | _ => none

def toBool? : Value → Option Bool
  | flag b => some b
  | _ => none

/-- The values of the fields with the given names, where there are any. A record may also be an array of
its fields in order: what is missing is absent, and what is left over is passed over. A date has fields,
but none that anything is named after. -/
def fields? (names : List String) : Value → Option (List (Option Value))
  | table entries => some (names.map fun name => (entries.find? (·.1 == name)).map (·.2))
  | array items =>
    some ((items.take names.length).map some ++ List.replicate (names.length - items.length) none)
  | date => some (names.map fun _ => none)
  | _ => none

end Value

end TriadMesh.Toml
