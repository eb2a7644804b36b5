import Homing.Main
import Homing.Scripted
import Homing.Proofs.Engine.Blocks
import Homing.Proofs.Engine.Reported
import Homing.Proofs.Plan.Travel
import Homing.Proofs.Simulator.Views
import Homing.Proofs.Simulator.Limits
import Homing.Proofs.Simulator.Motion
import Homing.Proofs.Simulator.Launch
import Homing.Proofs.Simulator.Phases
import Homing.Proofs.Simulator.Termination
import Homing.Proofs.Simulator.Squaring
import Homing.Proofs.Simulator.Requests
import Homing.Proofs.Simulator.Switches
import Homing.Proofs.Engine.Counters
import Homing.Proofs.Engine.Alarms
import Homing.Proofs.Plan.Single
import Homing.Proofs.Simulator.Reach
import Homing.Proofs.Simulator.SingleAxis
import Homing.Proofs.Simulator.FreshAxis
import Homing.Proofs.Engine.Alike
import Homing.Proofs.Engine.Starts
import Homing.Proofs.Simulator.Cancellation
import Homing.Proofs.Simulator.Leftovers
import Homing.Proofs.Simulator.Wildcard
import Homing.Proofs.Simulator.Raised
import Homing.Proofs.Engine.Coupled
import Homing.Proofs.Engine.StatusReports
import Homing.Proofs.Simulator.StatusReports
import Homing.Proofs.Plan.Turned
import Homing.Proofs.Simulator.Turned
import Homing.Proofs.Simulator.Directions
import Homing.Proofs.Plan.Limiting
import Homing.Proofs.Plan.Differential
import Homing.Proofs.Plan.Rates
import Homing.Proofs.Engine.Iterations
import Homing.Proofs.Simulator.Missed
import Homing.Proofs.Binary.Order
import Homing.Proofs.Simulator.MoveTicks
import Homing.Proofs.Plan.ClosedForm
import Homing.Proofs.Binary.Rounding
import Homing.Proofs.Binary.Magnitude
import Homing.Proofs.Plan.Usable
import Homing.Proofs.Engine.StaleStop
import Homing.Proofs.Simulator.StaleStop
import Homing.Proofs.Settings.AxisNames
import Homing.Proofs.Settings.FirstFault
import Homing.Proofs.Engine.HomedAxes
import Homing.Proofs.Simulator.ReportedAxes
import Homing.Proofs.Plan.Idle
import Homing.Proofs.Settings.AskedAxes
import Homing.Proofs.Settings.Layout
import Homing.Proofs.Sets.Words
