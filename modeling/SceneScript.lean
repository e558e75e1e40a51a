import SceneScript.Catalog.Basic
import SceneScript.Catalog.Json
import SceneScript.Catalog.Standard
import SceneScript.Diagnostic.Basic
import SceneScript.Diagnostic.Log
import SceneScript.Digest.Sha256
import SceneScript.Json.Basic
import SceneScript.Json.Printer
import SceneScript.Json.Reader
import SceneScript.Json.Record
import SceneScript.Number.Binary64
import SceneScript.Number.Shortest
import SceneScript.Program.Basic
import SceneScript.Program.Compile
import SceneScript.Proofs.Compilation
import SceneScript.Proofs.Effects
import SceneScript.Proofs.Instructions
import SceneScript.Proofs.Parsing
import SceneScript.Proofs.Reading
import SceneScript.Proofs.Runs
import SceneScript.Scene.Basic
import SceneScript.Scene.Compile
import SceneScript.Scene.Config
import SceneScript.Scene.Fault
import SceneScript.Scene.Host
import SceneScript.Scene.Rehearsal
import SceneScript.Scene.Run
import SceneScript.Scene.Snapshot
import SceneScript.Scene.Source
import SceneScript.Scene.State
import SceneScript.Scene.Step
import SceneScript.Script.Bytes
import SceneScript.Script.Command
import SceneScript.Script.Id
import SceneScript.Script.Json
import SceneScript.Script.Link
import SceneScript.Script.Parse
import SceneScript.Script.Parsed
import SceneScript.Script.Value
import SceneScript.Text.Hex
import SceneScript.Text.Inkless
import SceneScript.Text.Quoted
import SceneScript.Wire.Basic
import SceneScript.Wire.Cursor
import SceneScript.Wire.Writer
import SceneScript.Proofs.Faults
import SceneScript.Proofs.Positions
import SceneScript.Proofs.Structured
import SceneScript.Proofs.Assembly
import SceneScript.Proofs.Conditionals
import SceneScript.Proofs.Isolation
import SceneScript.Proofs.Redirection
import SceneScript.Proofs.References
import SceneScript.Proofs.Findings
import SceneScript.Proofs.OffsetMap
import SceneScript.Proofs.Prefixes
import SceneScript.Proofs.Acceptance
import SceneScript.Proofs.Switches
import SceneScript.Proofs.SwitchAssembly
import SceneScript.Proofs.Dispatch
import SceneScript.Proofs.Exchanges
import SceneScript.Proofs.Budget
import SceneScript.Proofs.Snapshots
import SceneScript.Proofs.Rewriting
import SceneScript.Proofs.Nesting
import SceneScript.Proofs.Waits
import SceneScript.Proofs.Headless
import SceneScript.Proofs.Frames
import SceneScript.Proofs.Locality
import SceneScript.Proofs.Inertia
import SceneScript.Proofs.Fingerprints
import SceneScript.Proofs.Streams
import SceneScript.Proofs.Tracing
import SceneScript.Proofs.Atomicity
import SceneScript.Proofs.Logs
import SceneScript.Proofs.Parts
import SceneScript.Proofs.BlockEnds
import SceneScript.Proofs.Truncation
import SceneScript.Proofs.ActiveTracks
import SceneScript.Proofs.Executions
import SceneScript.Proofs.Latches
import SceneScript.Proofs.Delays
import SceneScript.Proofs.Overruns
import SceneScript.Proofs.Saves
import SceneScript.Proofs.OwnActor
