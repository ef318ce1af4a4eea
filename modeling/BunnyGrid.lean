import BunnyGrid.Main
import BunnyGrid.View.Series
import BunnyGrid.Web.Server
import BunnyGrid.Proofs.Play.Change
import BunnyGrid.Proofs.Play.Derivation
import BunnyGrid.Proofs.Play.Schedule
import BunnyGrid.Proofs.Play.Coherence
import BunnyGrid.Proofs.Play.Pace
import BunnyGrid.Proofs.Session.Operation
import BunnyGrid.Proofs.Session.Status
import BunnyGrid.Proofs.Session.Refusal
import BunnyGrid.Proofs.World.Grid
import BunnyGrid.Proofs.Play.Placement
import BunnyGrid.Proofs.Session.WellFormed
import BunnyGrid.Proofs.Program.RoundTrip
import BunnyGrid.Proofs.Play.Harvest
import BunnyGrid.Proofs.Session.Harvest
import BunnyGrid.Proofs.Play.Simulation
import BunnyGrid.Proofs.Play.Independence
import BunnyGrid.Proofs.Session.Independence
import BunnyGrid.Proofs.Program.Flat
import BunnyGrid.Proofs.Play.Agreement
import BunnyGrid.Proofs.Session.Stepping
import BunnyGrid.Proofs.Play.Order
import BunnyGrid.Proofs.Session.Order
import BunnyGrid.Proofs.Session.History
import BunnyGrid.Proofs.Play.Walk
import BunnyGrid.Proofs.View.Replay
import BunnyGrid.Proofs.Session.Frames
import BunnyGrid.Proofs.World.Symmetry
import BunnyGrid.Proofs.Program.Symmetry
import BunnyGrid.Proofs.Play.Symmetry
import BunnyGrid.Proofs.Session.Symmetry
import BunnyGrid.Proofs.Play.Lockstep
import BunnyGrid.Proofs.Session.Lockstep
import BunnyGrid.Proofs.Play.Limit
import BunnyGrid.Proofs.Session.Limit
import BunnyGrid.Proofs.World.RoundTrip
import BunnyGrid.Proofs.World.Fault
import BunnyGrid.Proofs.Web.Map
import BunnyGrid.Proofs.Play.Actors
import BunnyGrid.Proofs.Play.Deed
import BunnyGrid.Proofs.Session.Actors
import BunnyGrid.Proofs.Session.Frozen
import BunnyGrid.Proofs.Play.Account
import BunnyGrid.Proofs.Session.Account
import BunnyGrid.Proofs.Session.Completion
import BunnyGrid.Proofs.Checked.Play
import BunnyGrid.Proofs.Checked.Run
import BunnyGrid.Proofs.Checked.Session
import BunnyGrid.Proofs.Checked.Web
import BunnyGrid.Proofs.Number.Rounding
import BunnyGrid.Proofs.Value.Bounded
import BunnyGrid.Proofs.Number.Order
import BunnyGrid.Proofs.Play.Variable
import BunnyGrid.Proofs.Value.Order
import BunnyGrid.Proofs.Value.Equality
import BunnyGrid.Proofs.Value.Exactness
import BunnyGrid.Proofs.Play.Exactness
import BunnyGrid.Proofs.Program.Cost
import BunnyGrid.Proofs.Play.Outcome
import BunnyGrid.Proofs.Play.Budget
import BunnyGrid.Proofs.Play.Bisimulation
import BunnyGrid.Proofs.Play.Matching
import BunnyGrid.Proofs.Play.Unrolling
import BunnyGrid.Proofs.Session.Budget
import BunnyGrid.Proofs.Session.Composition
import BunnyGrid.Proofs.Program.Spelling
import BunnyGrid.Proofs.Session.Ignored
import BunnyGrid.Proofs.Play.Ownership
import BunnyGrid.Proofs.Session.Ownership
import BunnyGrid.Proofs.Number.Range
import BunnyGrid.Proofs.Value.Count
import BunnyGrid.Proofs.Program.Respelling
import BunnyGrid.Proofs.Play.Respelling
import BunnyGrid.Proofs.Session.Respelling
