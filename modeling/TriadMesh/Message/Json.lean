import TriadMesh.Json.Decode
import TriadMesh.Message.Basic

/-!
# Messages as JSON

A message is an object with one member for each field; byte strings are arrays of numbers. A digest is
an array of its bytes.
-/

namespace TriadMesh

namespace Message

/-- The names of the fields in the order in which they are written. -/
def fieldNames : List String := ["timestamp", "vorticity", "phase", "content", "signature", "public_key"]

def toJson (m : Message) : Json :=
  .object (fieldNames.map Json.key |>.zip
    [.ofInt m.timestamp.toInt, .ofFloat m.vorticity, .ofFloat m.phase,
     .ofBytes m.content, .ofBytes m.signature, .ofBytes m.publicKey])

def timestampOf? (v : Json) : Option Int64 :=
  v.toInt?.bind fun n => if -2 ^ 63 ≤ n ∧ n < 2 ^ 63 then some (.ofInt n) else none

/-- Reads a message, in which no field may be missing. -/
def ofJson? (v : Json) : Option Message :=
  match v.fields? false fieldNames with
  | some [some t, some x, some p, some c, some s, some k] => do
    return ⟨← timestampOf? t, ← x.toFloat?, ← p.toFloat?, ← c.toBytes?, ← s.toBytes?, ← k.toBytes?⟩
  | _ => none

end Message

def Digest.ofJson? (v : Json) : Option Digest := v.toBytes?.bind Digest.ofList?

end TriadMesh
