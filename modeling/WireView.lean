import WireView.Loop.Frames
import WireView.Loop.Signals
import WireView.Main
import WireView.Proofs.Host.Liveness
import WireView.Proofs.Host.Refinement
import WireView.Proofs.Host.Safety
import WireView.Proofs.Loop.Conservation
import WireView.Proofs.Reentrant.Course
import WireView.Reentrant.Run
import WireView.Space.Quantity
import WireView.Proofs.Loop.Dispatch
import WireView.Proofs.Number.Double
import WireView.Proofs.Projection.Batch
import WireView.Proofs.Host.Journal
import WireView.Proofs.Host.Queues
import WireView.Proofs.Host.Repaint
import WireView.Proofs.Loop.Order
import WireView.Proofs.Loop.Subscriptions
import WireView.Proofs.Host.Mounting
import WireView.Proofs.Host.Withdrawal
import WireView.Proofs.Host.Conduct
import WireView.Proofs.Host.Closing
import WireView.Proofs.Host.Telling
import WireView.Proofs.Host.Notifications
import WireView.Proofs.Loop.Edits
import WireView.Proofs.Loop.Leftovers
import WireView.Proofs.Host.Arranging
import WireView.Proofs.Projection.Requests
import WireView.Proofs.Loop.Turns
import WireView.Proofs.Host.FailedTicks
import WireView.Proofs.Host.Picture
import WireView.Proofs.Projection.Segments
import WireView.Proofs.Projection.Spinning
import WireView.Proofs.Drawing.InView
import WireView.Proofs.Space.Rotations
import WireView.Proofs.Logic.KeyHistory
import WireView.Proofs.Host.Starting
import WireView.Proofs.Projection.Depths
import WireView.Proofs.Projection.Homogeneous
import WireView.Proofs.Clock.MeanFrameTime
import WireView.Proofs.Host.Input
import WireView.Proofs.Host.Polling
import WireView.Proofs.Clock.ElapsedTime
import WireView.Proofs.Drawing.Texts
import WireView.Proofs.Session.Pausing
