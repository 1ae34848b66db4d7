import RulerCompass.CommandLine.Report
import RulerCompass.Main
import RulerCompass.Session
import RulerCompass.Summary.Records
import RulerCompass.Summary.Trace
import RulerCompass.Proofs.Forest.Operations
import RulerCompass.Proofs.Forest.Alike
import RulerCompass.Proofs.Ledger.Chain
import RulerCompass.Proofs.Ledger.Record
import RulerCompass.Proofs.Ledger.Calls
import RulerCompass.Proofs.Ledger.Coherent
import RulerCompass.Proofs.Ledger.Entailment
import RulerCompass.Proofs.Ledger.Copies
import RulerCompass.Proofs.Ledger.Batch
import RulerCompass.Proofs.Ledger.Known
import RulerCompass.Proofs.Figure.Counter
import RulerCompass.Proofs.Figure.Growth
import RulerCompass.Proofs.Figure.Drawing
import RulerCompass.Proofs.Figure.Tidy
import RulerCompass.Proofs.Figure.Names
import RulerCompass.Proofs.Figure.Abreast
import RulerCompass.Proofs.Figure.Grounds
import RulerCompass.Proofs.Action.Known
import RulerCompass.Proofs.Proposition.Scope
import RulerCompass.Proofs.Proposition.Findings
import RulerCompass.Proofs.Crossing.Search
import RulerCompass.Proofs.Crossing.Current
import RulerCompass.Proofs.Crossing.Marking
import RulerCompass.Proofs.Scene.Moves
import RulerCompass.Proofs.Macro.Outcome
import RulerCompass.Proofs.Macro.Given
import RulerCompass.Proofs.Macro.Atomic
import RulerCompass.Proofs.Macro.Promises
import RulerCompass.Proofs.Ghost.Layers
import RulerCompass.Proofs.Ghost.Drawing
import RulerCompass.Proofs.Scene.Act
import RulerCompass.Proofs.Scene.Spares
import RulerCompass.Proofs.Replay.Transcript
import RulerCompass.Proofs.Replay.Prefix
import RulerCompass.Proofs.Replay.Crossings
import RulerCompass.Proofs.Replay.Picture
import RulerCompass.Proofs.Replay.Success
import RulerCompass.Proofs.Replay.Lockstep
import RulerCompass.Proofs.Replay.Promises
import RulerCompass.Proofs.Replay.Labels
import RulerCompass.Proofs.Replay.Scope
import RulerCompass.Proofs.Replay.Grounded
import RulerCompass.Proofs.Book.Layouts
import RulerCompass.Proofs.Book.Grounding
import RulerCompass.Proofs.Book.Premises
import RulerCompass.Proofs.Label.Index
import RulerCompass.Proofs.Figure.Distinct
import RulerCompass.Proofs.Macro.Build
import RulerCompass.Proofs.Macro.Abreast
import RulerCompass.Proofs.Scene.Clear
import RulerCompass.Proofs.Replay.Distinct
import RulerCompass.Proofs.Replay.Clear
import RulerCompass.Proofs.Replay.Alongside
import RulerCompass.Proofs.Book.Distinct
import RulerCompass.Proofs.Figure.Fresh
import RulerCompass.Proofs.Replay.Faults
import RulerCompass.Proofs.Replay.Turned
import RulerCompass.Proofs.Session.Undo
import RulerCompass.Proofs.Figure.Passed
import RulerCompass.Proofs.Ledger.Classes
import RulerCompass.Proofs.Ledger.Listing
import RulerCompass.Proofs.Ledger.Order
import RulerCompass.Proofs.Replay.Sources
import RulerCompass.Proofs.Replay.Radius
import RulerCompass.Proofs.Ledger.Tags
import RulerCompass.Proofs.Ledger.Keys
import RulerCompass.Proofs.Figure.WellNamed
import RulerCompass.Proofs.Macro.Fresh
import RulerCompass.Proofs.Macro.Deliveries
import RulerCompass.Proofs.Ledger.Settled
import RulerCompass.Proofs.Ghost.Tree
import RulerCompass.Proofs.Replay.Revealed
import RulerCompass.Proofs.Macro.Degenerate
import RulerCompass.Proofs.Crossing.Exhaustive
import RulerCompass.Proofs.Label.Spelling
import RulerCompass.Proofs.Crossing.Matching
import RulerCompass.Proofs.Replay.Gestures
import RulerCompass.Proofs.Book.Drags
import RulerCompass.Proofs.Session.Rewind
import RulerCompass.Proofs.Plane.Rims
import RulerCompass.Proofs.Plane.Exchange
import RulerCompass.Proofs.Plane.Secant
import RulerCompass.Proofs.Crossing.Beyond
import RulerCompass.Proofs.Ledger.Built
