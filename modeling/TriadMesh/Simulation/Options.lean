import TriadMesh.Binary64.Text

/-!
# The command line of the simulation

Options take a value from the next argument or after an equals sign; a value that begins with a minus
sign needs the latter. No option may occur twice, and there are no other arguments.
-/

namespace TriadMesh.Simulation

structure Options where
  /-- The file of the configuration; the default configuration without one. -/
  config : Option String
  vorticity : Binary64
  content : String
  /-- Whether the third node reports a wrong measurement. -/
  byzantine : Bool
  coherence : Binary64
  seed : String
  json : Bool
deriving DecidableEq

def Options.default : Options where
  config := none
  vorticity := .ofDecimal false 85 (-2)
  content := "Temporal Sync"
  byzantine := false
  coherence := .ofDecimal false 74 (-2)
  seed := "chronoflux-sim"
  json := false

inductive Invocation where
  | run (o : Options)
  | help
  | misuse

/-- The options by name; the flag says whether one takes a value. -/
inductive Switch where
  | config | vorticity | content | byzantine | coherence | seed | json | help
deriving DecidableEq

namespace Switch

def takesValue : Switch → Bool
  | byzantine | json | help => false
  | _ => true

def ofLong? (name : String) : Option Switch :=
  match name with
  | "config" => some config
  | "vorticity" => some vorticity
  | "content" => some content
  | "byzantine" => some byzantine
  | "coherence" => some coherence
  | "seed" => some seed
  | "json" => some json
  | "help" => some help
  | _ => none

def ofShort? (c : Char) : Option Switch :=
  if c = 'c' then some config else if c = 'h' then some help else none

def set? (value : List Char) (o : Options) : Switch → Option Options
  | config => if value = [] then none else some { o with config := some (String.ofList value) }
  | vorticity => (Binary64.ofText? value).map fun x => { o with vorticity := x }
  | content => some { o with content := String.ofList value }
  | coherence => (Binary64.ofText? value).map fun x => { o with coherence := x }
  | seed => some { o with seed := String.ofList value }
  | byzantine => some { o with byzantine := true }
  | json => some { o with json := true }
  | help => none

end Switch

/-- What has been read of a command line: the options, and which of them were given. -/
structure Progress where
  options : Options
  given : List Switch

namespace Progress

def take? (p : Progress) (s : Switch) (value : List Char) : Option Progress :=
  if s ∈ p.given then none
  else (s.set? value p.options).map fun o => ⟨o, s :: p.given⟩

end Progress

/-- Splits a text at its first equals sign, if there is one. -/
def splitValue (text : List Char) : List Char × Option (List Char) :=
  match text.dropWhile (· ≠ '=') with
  | [] => (text, none)
  | _ :: value => (text.takeWhile (· ≠ '='), some value)

inductive Argument where
  /-- An option with the value attached to it, if there is one. -/
  | option (s : Switch) (value : Option (List Char))
  /-- Everything after it is a plain argument. -/
  | separator
  | plain
  | unknown

/-- Recognizes an argument. A lone minus sign is plain. The value of a short option follows it at once,
with or without an equals sign. -/
def Argument.ofChars : List Char → Argument
  | ['-', '-'] => separator
  | '-' :: '-' :: text =>
    match splitValue text with
    | (name, value) =>
      match Switch.ofLong? (String.ofList name) with
      | some s => option s value
      | none => unknown
  | '-' :: c :: text =>
    match Switch.ofShort? c with
    | none => unknown
    | some s =>
      if s.takesValue then
        match text with
        | [] => option s none
        | '=' :: value => option s (some value)
        | value => option s (some value)
      else option s none
  | _ => plain

/-- Reads arguments one after the other, up to the first that is wrong or asks for help. -/
def readArguments (p : Progress) : List (List Char) → Invocation
  | [] => .run p.options
  | a :: rest =>
    match Argument.ofChars a with
    | .separator => if rest = [] then .run p.options else .misuse
    | .plain | .unknown => .misuse
    | .option .help value => if value.isSome then .misuse else .help
    | .option s (some value) =>
      if s.takesValue then
        match p.take? s value with
        | some q => readArguments q rest
        | none => .misuse
      else .misuse
    | .option s none =>
      if s.takesValue then
        match rest with
        | [] => .misuse
        | value :: rest =>
          match Argument.ofChars value, p.take? s value with
          | .plain, some q => readArguments q rest
          | _, _ => .misuse
      else
        match p.take? s [] with
        | some q => readArguments q rest
        | none => .misuse

def Invocation.ofArguments (args : List String) : Invocation :=
  readArguments ⟨.default, []⟩ (args.map String.toList)

def helpText : String :=
  "Run a three-node Chronoflux mesh and gossip one message\n\n" ++
    "Usage: chronoflux-sim [OPTIONS]\n\n" ++
    "Options:\n" ++
    "  -c, --config <FILE>          TOML configuration file\n" ++
    "      --vorticity <VORTICITY>  Vorticity carried by the message [default: 0.85]\n" ++
    "      --content <CONTENT>      Message content [default: \"Temporal Sync\"]\n" ++
    "      --byzantine              Make Gamma report a wildly wrong measurement\n" ++
    "      --coherence <COHERENCE>  Coherence Φ assigned to every node [default: 0.74]\n" ++
    "      --seed <SEED>            Seed for deterministic node keys [default: chronoflux-sim]\n" ++
    "      --json                   Emit logs as JSON\n" ++
    "  -h, --help                   Print help\n"

end TriadMesh.Simulation
