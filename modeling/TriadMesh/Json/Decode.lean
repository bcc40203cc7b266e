import TriadMesh.Json.Parser
import TriadMesh.Bytes.Basic

/-!
# Reading values of types from JSON

A record is an object, in which members that are not fields are passed over and no field may occur
twice, or an array of its fields in order.
-/

namespace TriadMesh.Json

def toText? : Json → Option String
  | string raw => (unescape? raw).map String.ofList
  | _ => none

def toBool? : Json → Option Bool
  | bool b => some b
  | _ => none

/-- The integer of a number without point and exponent. -/
def toInt? : Json → Option Int
  | number raw => (Numeral.ofChars? raw).bind Numeral.toInt?
  | _ => none

/-- A natural number below a bound. -/
def toNatBelow? (bound : Nat) (v : Json) : Option Nat :=
  match v.toInt? with
  | some (.ofNat n) => if n < bound then some n else none
  | _ => none

def toFloat? : Json → Option Binary64
  | number raw => (Numeral.ofChars? raw).bind Numeral.toFloat?
  | _ => none

def toList? : Json → Option (List Json)
  | array items => some items
  | _ => none

/-- A byte string, as an array of numbers below 256. -/
def toBytes? (v : Json) : Option Bytes := do
  (← v.toList?).mapM fun b => (b.toNatBelow? 256).map UInt8.ofNat

def ofBytes (bytes : Bytes) : Json := array (bytes.map fun b => ofNat b.toNat)

def namedMembers? : List (List Char × Json) → Option (List (String × Json))
  | [] => some []
  | (k, v) :: rest =>
    match unescape? k, namedMembers? rest with
    | some name, some more => some ((String.ofList name, v) :: more)
    | _, _ => none

/-- The only value of a name among members, `none` if it is absent; refused if there are several. -/
def single? (members : List (String × Json)) (name : String) : Option (Option Json) :=
  match members.filter (·.1 == name) with
  | [] => some none
  | [(_, v)] => some (some v)
  | _ => none

/-- The values of the fields with the given names, where there are any. An array must have all fields
in order, or with `lenient` as many of the first as it likes. -/
def fields? (lenient : Bool) (names : List String) : Json → Option (List (Option Json))
  | object members => do
    let named ← namedMembers? members
    names.mapM (single? named)
  | array items =>
    if items.length = names.length ∨ (lenient ∧ items.length < names.length) then
      some (items.map some ++ List.replicate (names.length - items.length) none)
    else none
  | _ => none

end TriadMesh.Json
