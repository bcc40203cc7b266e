import TriadMesh.Config.Document
import TriadMesh.Logging.Directive
import TriadMesh.Mesh.Gossip
import TriadMesh.Mesh.Json
import TriadMesh.Mesh.Topology
import TriadMesh.Simulation.Options

/-!
# The simulation

Three nodes, each a neighbor of the other two. The first one gossips one message; when nothing is left
in flight, a report tells what each node has logged.
-/

namespace TriadMesh.Simulation

inductive Error where
  | config (path : String) (cause : ConfigError)
  | logging (e : Logging.SetupError)
  | mesh (e : MeshError)
  | crashed

def Error.message : Error → String
  | .config path _ => "loading config from " ++ path
  | .logging e => e.message
  | .mesh e => e.message
  | .crashed => ""

structure Environment where
  suite : Suite
  /-- Log directives that win over the configuration. -/
  directives : Option String
  file : String → Option Bytes
  timestamp : Int64
  /-- The noise of the sensors, which are given their greatest amplitude. -/
  noise : Binary64 → Nat → Binary64

def nodeIds : List NodeId := ["Alpha", "Beta", "Gamma"]

/-- What a node that lies reports, whatever it measures. -/
def byzantineReading : Binary64 := 5

/-- Goes on with what a call gives, unless the call is refused or crashes. -/
def ofOutcome {α : Type} : Outcome α → Except Error α
  | .ok a => .ok a
  | .refused e => .error (.mesh e)
  | _ => .error .crashed

def addNode (o : Options) (m : Mesh) (id : NodeId) : Except Error Mesh :=
  if o.byzantine && id == "Gamma" then
    match m.obtainKeys (.seeded (Bytes.ofText o.seed) id) with
    | (_, .error e) => .error (.mesh (.signing e))
    | (m, .ok k) => ofOutcome ((m.create id k o.coherence (.fixed byzantineReading)).map (·.1))
  else
    let (m, added) := m.provision (Bytes.ofText o.seed) id o.coherence
    ofOutcome (added.map fun _ => m)

def link (m : Mesh) (a b : NodeId) : Except Error Mesh := ofOutcome (.ofExcept (m.link a b))

def build (o : Options) (m : Mesh) : Except Error Mesh := do
  let m ← nodeIds.foldlM (addNode o) m
  let m ← link m "Alpha" "Beta"
  let m ← link m "Alpha" "Gamma"
  link m "Beta" "Gamma"

def message (o : Options) (timestamp : Int64) (m : Mesh) : Except MeshError Message := do
  let alpha ← m.registry.get "Alpha"
  return alpha.signMessage m.suite timestamp o.vorticity 0 (Bytes.ofText o.content)

structure NodeReport where
  id : NodeId
  coherence : Binary64
  logged : Nat

structure Report where
  messageId : Digest
  forwardedTo : List NodeId
  nodes : List NodeReport
  metrics : Metrics

def reportOf (m : Mesh) (messageId : Digest) (forwardedTo : List NodeId) : Report where
  messageId := messageId
  forwardedTo := forwardedTo
  nodes := (nodeIds.filterMap m.registry.find?).map fun n => ⟨n.id, n.coherence, n.log.length⟩
  metrics := m.metrics

/-- Three nodes forward one message six times at most, so this many rounds leave nothing in flight. -/
def rounds : Nat := 8

def play (o : Options) (timestamp : Int64) (m : Mesh) : Except Error Report :=
  match message o timestamp m with
  | .error e => .error (.mesh e)
  | .ok msg =>
    match m.gossip rounds "Alpha" msg with
    | (m, .ok targets) => .ok (reportOf (m.waitIdle rounds).1 (msg.id m.suite) targets)
    | (_, .refused e) => .error (.mesh e)
    | (_, _) => .error .crashed

def readConfig (env : Environment) : Option String → Except Error Config
  | none => .ok .default
  | some path => (Config.ofFile (env.file path)).mapError (.config path)

def configuration (env : Environment) (o : Options) : Except Error Config :=
  (readConfig env o.config).map fun c => if o.json then { c with json := true } else c

def run (env : Environment) (o : Options) : Except Error Report :=
  match configuration env o with
  | .error e => .error e
  | .ok config =>
    match Logging.setUp false env.directives config.level with
    | .error (.directive .splitCharacter) => .error .crashed
    | .error e => .error (.logging e)
    | .ok _ =>
      match Mesh.start env.suite config .log (env.noise config.noiseAmplitude) true with
      | .refused e => .error (.mesh e)
      | .ok m =>
        match build o m with
        | .error e => .error e
        | .ok m => play o env.timestamp m
      | _ => .error .crashed

def NodeReport.toJson (n : NodeReport) : Json :=
  .object [(Json.key "id", .ofText n.id), (Json.key "coherence", .ofFloat n.coherence),
    (Json.key "log_len", .ofNat n.logged)]

def Report.toJson (r : Report) : Json :=
  .object
    [(Json.key "message_id", .ofText r.messageId.toHex),
     (Json.key "forwarded_to", .array (r.forwardedTo.map Json.ofText)),
     (Json.key "nodes", .array (r.nodes.map NodeReport.toJson)),
     (Json.key "metrics", r.metrics.toJson)]

/-- The text of a report, with every item on a line of its own. -/
def Report.render (r : Report) : String := r.toJson.pretty ++ "\n"

end TriadMesh.Simulation
