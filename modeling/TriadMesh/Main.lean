import Std.Time.DateTime.Timestamp
import TriadMesh.Simulation.Run

/-!
# The simulation as a program

Reads the command line, the file of the configuration, the environment and the clock, runs the
simulation, and prints its report. Exit codes: 0 with a report, 1 without one, 2 for a command line that
cannot be read.
-/

namespace TriadMesh.Simulation

/-- A number from -1 to 1 that a seed and a tick determine. -/
def spread (s : Suite) (seed tick : Nat) : Binary64 :=
  let d := s.hash (Bytes.littleEndian 8 seed ++ Bytes.littleEndian 8 tick)
  .ofInt (d.toNat % 2 ^ 53) / .ofInt (2 ^ 52) - 1

def readBytes (path : String) : IO (Option Bytes) := do
  try
    return some (← IO.FS.readBinFile path).toList
  catch _ =>
    return none

/-- Everything that the simulation takes from the outside. -/
def environment (o : Options) : IO Environment := do
  let file ← match o.config with
    | some path => readBytes path
    | none => pure none
  let seed ← IO.rand 0 (2 ^ 62)
  return {
    suite := .standard
    directives := ← IO.getEnv "RUST_LOG"
    file := fun _ => file
    timestamp := .ofInt (← Std.Time.Timestamp.now).toSecondsSinceUnixEpoch.val
    noise := fun amplitude tick => amplitude * spread .standard seed tick }

/-- Runs the simulation that a command line asks for, and answers with the exit code. -/
def program (args : List String) : IO UInt32 := do
  match Invocation.ofArguments args with
  | .misuse =>
    IO.eprintln "error: the arguments cannot be read\n\nFor more information, try '--help'."
    return 2
  | .help =>
    IO.print helpText
    return 0
  | .run o =>
    match run (← environment o) o with
    | .ok r =>
      IO.print r.render
      return 0
    | .error .crashed => return 101
    | .error e =>
      IO.eprintln ("Error: " ++ e.message)
      return 1

end TriadMesh.Simulation

def main (args : List String) : IO UInt32 := TriadMesh.Simulation.program args
