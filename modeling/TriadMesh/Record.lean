import TriadMesh.Binary64.Basic

/-!
# Log records

What the library reports while it works: a level, a text, and named fields. A field without a value
does not appear.
-/

namespace TriadMesh

inductive Level where
  | trace | debug | info | warn | error
deriving DecidableEq

inductive FieldValue where
  | text (s : String)
  | float (x : Binary64)
  | count (n : Nat)
deriving DecidableEq

structure Record where
  level : Level
  text : String
  fields : List (String × FieldValue)
deriving DecidableEq

/-- A float field that is absent when there is no value. -/
def floatField (name : String) (x : Option Binary64) : List (String × FieldValue) :=
  match x with
  | some v => [(name, .float v)]
  | none => []

end TriadMesh
