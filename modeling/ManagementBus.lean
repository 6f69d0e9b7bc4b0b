import ManagementBus.Event.Counters
import ManagementBus.Handler
import ManagementBus.Message.Text
import ManagementBus.Scheduler.Calls
import ManagementBus.Stack.Build
import ManagementBus.Stack.Peer
import ManagementBus.Proofs.Interleaving
import ManagementBus.Proofs.Numbering
import ManagementBus.Proofs.Registering
import ManagementBus.Proofs.Commuting
import ManagementBus.Proofs.Queueing
import ManagementBus.Proofs.Sending
import ManagementBus.Proofs.Relaying
import ManagementBus.Proofs.Writing
import ManagementBus.Proofs.Receiving
import ManagementBus.Proofs.Growth
import ManagementBus.Proofs.Calling
import ManagementBus.Proofs.Acting
import ManagementBus.Proofs.Telling
import ManagementBus.Proofs.Delivery
import ManagementBus.Proofs.Building
import ManagementBus.Proofs.Pending
import ManagementBus.Proofs.Numbers
import ManagementBus.Proofs.Waiting
import ManagementBus.Proofs.HostAccount
import ManagementBus.Proofs.HostAnswers
import ManagementBus.Proofs.Asking
import ManagementBus.Proofs.Reading
import ManagementBus.Proofs.Framing
import ManagementBus.Proofs.Following
import ManagementBus.Proofs.Bridging
import ManagementBus.Proofs.EngineAnswers
import ManagementBus.Proofs.Issuing
import ManagementBus.Proofs.Arriving
import ManagementBus.Proofs.Manifest
import ManagementBus.Proofs.Tracking
import ManagementBus.Proofs.Serving
import ManagementBus.Proofs.Returning
import ManagementBus.Proofs.OneBus
import ManagementBus.Proofs.RemoteCalls
import ManagementBus.Proofs.Withdrawing
import ManagementBus.Proofs.Evicting
import ManagementBus.Proofs.Sweeping
import ManagementBus.Proofs.Isolation
import ManagementBus.Proofs.Routing
import ManagementBus.Proofs.Checking
import ManagementBus.Proofs.Rejecting
import ManagementBus.Proofs.Refusing
import ManagementBus.Proofs.Dispatching
import ManagementBus.Proofs.SendLocks
import ManagementBus.Proofs.LookingUp
import ManagementBus.Proofs.Submitting
import ManagementBus.Proofs.Fitting
import ManagementBus.Proofs.Trying
import ManagementBus.Proofs.Draining
import ManagementBus.Proofs.TakingTurns
import ManagementBus.Proofs.Arranging
import ManagementBus.Proofs.HandingOver
