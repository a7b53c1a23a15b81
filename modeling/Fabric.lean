import Fabric.Host.Json
import Fabric.Main
import Fabric.Proofs.Relink
import Fabric.Proofs.Runs
import Fabric.Proofs.Ports
import Fabric.Proofs.Stack
import Fabric.Proofs.Gathered
import Fabric.Proofs.Restore
import Fabric.Proofs.Kept
import Fabric.Proofs.Filing
import Fabric.Proofs.LevelTriggered
import Fabric.Proofs.Dispatch
import Fabric.Proofs.Pieces
import Fabric.Proofs.Framing
import Fabric.Proofs.Pipeline
import Fabric.Proofs.Climb
import Fabric.Proofs.Timeline
import Fabric.Proofs.Steps
import Fabric.Proofs.Courses
import Fabric.Proofs.Lines
import Fabric.Proofs.Horizon
import Fabric.Proofs.Track
import Fabric.Proofs.Debounce
import Fabric.Proofs.Alternation
import Fabric.Proofs.Sequence
import Fabric.Proofs.Interleaving
import Fabric.Proofs.Abreast
import Fabric.Proofs.Stream
import Fabric.Proofs.Exposition
import Fabric.Proofs.Coalescing
import Fabric.Proofs.Pursuit
import Fabric.Proofs.Placement
import Fabric.Proofs.Counting
import Fabric.Proofs.Moves
import Fabric.Proofs.Refusal
import Fabric.Proofs.Texts
import Fabric.Proofs.Crossing
import Fabric.Proofs.Alike
import Fabric.Proofs.Restaging
import Fabric.Proofs.Detached
import Fabric.Proofs.Undisturbed
import Fabric.Proofs.Isolation
import Fabric.Proofs.Approach
import Fabric.Proofs.Learning
import Fabric.Proofs.Onward
import Fabric.Proofs.Faithful
import Fabric.Proofs.Records
import Fabric.Proofs.Clearing
import Fabric.Proofs.Presence
import Fabric.Proofs.Verdict
import Fabric.Proofs.FanOut
import Fabric.Proofs.EgressPorts
import Fabric.Proofs.Repetition
import Fabric.Proofs.ExitCodes
import Fabric.Proofs.PortLists
import Fabric.Proofs.Retries
import Fabric.Proofs.Sampling
import Fabric.Proofs.Listing
