import TriadMesh.Main
import TriadMesh.Message.Json
import TriadMesh.Proofs.Propagator
import TriadMesh.Proofs.Forwarding
import TriadMesh.Proofs.Reception
import TriadMesh.Proofs.SeenSet
import TriadMesh.Proofs.Deployment
import TriadMesh.Proofs.Schedule
import TriadMesh.Proofs.Steps
import TriadMesh.Proofs.Authenticity
import TriadMesh.Proofs.FloodControl
import TriadMesh.Proofs.Retry
import TriadMesh.Proofs.Coverage
import TriadMesh.Proofs.Drain
import TriadMesh.Proofs.Storm
import TriadMesh.Proofs.Crash
import TriadMesh.Proofs.History
import TriadMesh.Proofs.Conservation
import TriadMesh.Proofs.Confluence
import TriadMesh.Proofs.Provenance
import TriadMesh.Proofs.Independence
import TriadMesh.Proofs.Identity
import TriadMesh.Proofs.Rounding
import TriadMesh.Proofs.Shortest
import TriadMesh.Proofs.DecimalText
import TriadMesh.Proofs.Numeral
import TriadMesh.Proofs.JsonText
import TriadMesh.Proofs.MessageText
import TriadMesh.Proofs.TomlScalar
import TriadMesh.Proofs.TomlString
import TriadMesh.Proofs.TomlDocument
import TriadMesh.Proofs.TomlProper
import TriadMesh.Proofs.ConfigText
import TriadMesh.Proofs.Override
import TriadMesh.Proofs.Arithmetic
import TriadMesh.Proofs.FiniteVote
import TriadMesh.Proofs.Tripling
import TriadMesh.Proofs.Unanimity
import TriadMesh.Proofs.Tolerance
import TriadMesh.Proofs.Decision
import TriadMesh.Proofs.Locality
import TriadMesh.Proofs.CrashedVote
import TriadMesh.Proofs.Routing
import TriadMesh.Proofs.Gate
import TriadMesh.Proofs.HexText
import TriadMesh.Proofs.EventText
import TriadMesh.Proofs.Trio
import TriadMesh.Proofs.Settlement
import TriadMesh.Proofs.Simulation
import TriadMesh.Proofs.RecentIds
import TriadMesh.Proofs.SeededKeys
