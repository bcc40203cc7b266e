import TriadMesh.Json.Decode
import TriadMesh.Mesh.Event
import TriadMesh.Triad

/-!
# What a mesh reports, as JSON

Events, counters and the outcome of a vote. Floats that are not finite become `null`, so an event with
such a value reads back without one.
-/

namespace TriadMesh

namespace Event

def fieldNames : List String := ["node_id", "kind", "metric_value"]

def toJson (e : Event) : Json :=
  .object (fieldNames.map Json.key |>.zip
    [.ofText e.node, .ofText e.kind.name, match e.value with
      | some x => .ofFloat x
      | none => .null])

/-- A kind is written as its name, or as an object with its name as the only key and nothing in it. -/
def kindOf? : Json → Option EventKind
  | .object [(k, .null)] => (Json.unescape? k).bind fun name => EventKind.ofName? (String.ofList name)
  | v => v.toText?.bind EventKind.ofName?

/-- The value of an event, which may be missing. -/
def valueOf? : Option Json → Option (Option Binary64)
  | none | some .null => some none
  | some v => v.toFloat?.map some

def ofJson? (v : Json) : Option Event :=
  match v.fields? false fieldNames with
  | some [some node, some kind, value] => do return ⟨← node.toText?, ← kindOf? kind, ← valueOf? value⟩
  | _ => none

/-- Equality of values: a NaN differs from itself. -/
def equals (a b : Event) : Bool :=
  a.node == b.node && a.kind == b.kind &&
    match a.value, b.value with
    | none, none => true
    | some x, some y => x.equals y
    | _, _ => false

end Event

namespace Metrics

def toJson (m : Metrics) : Json := .object (m.named.map fun p => (Json.key p.1, .ofNat p.2))

/-- Reads counters, none of which may be missing. -/
def ofJson? (v : Json) : Option Metrics := do
  let values ← v.fields? false (zero.named.map (·.1))
  match ← values.mapM fun w => w.bind (Json.toNatBelow? (2 ^ 64)) with
  | [gossiped, forwarded, accepted, authentication, consensus, insufficient, duplicates, dropped] =>
    some ⟨gossiped, forwarded, accepted, authentication, consensus, insufficient, duplicates, dropped⟩
  | _ => none

end Metrics

/-- The outcome of a vote, with the readings it rests on. -/
def Report.toJson (r : Report Binary64) : Json :=
  .object
    [(Json.key "snapshot", .object
      [(Json.key "alpha", .ofFloat r.readings.alpha), (Json.key "beta", .ofFloat r.readings.beta),
       (Json.key "gamma", .ofFloat r.readings.gamma)]),
     (Json.key "mean", .ofFloat r.mean), (Json.key "variance", .ofFloat r.variance),
     (Json.key "threshold", .ofFloat r.threshold), (Json.key "passed", .bool r.passed)]

end TriadMesh
