import Expander.Bench
import Expander.Config.Resolved
import Expander.Main
import Expander.Proofs.Agreement
import Expander.Proofs.Configuring.RoundTrip
import Expander.Proofs.Conservation
import Expander.Proofs.Consistency
import Expander.Proofs.Latency
import Expander.Proofs.Media.Protocol
import Expander.Proofs.Media.Refresh
import Expander.Proofs.Refusal
import Expander.Proofs.Reliability
import Expander.Proofs.Scheduling.Bookkeeping
import Expander.Proofs.Scheduling.Draining
import Expander.Proofs.Scheduling.Forwarding
import Expander.Proofs.Separation
import Expander.Proofs.Slicing
import Expander.Proofs.Stranding
import Expander.Proofs.Termination
import Expander.Proofs.Media.Bus
import Expander.Proofs.Media.Activation
import Expander.Proofs.Media.BankGroups
import Expander.Proofs.Media.Promptness
import Expander.Proofs.Capacity
import Expander.Proofs.Reservation
import Expander.Proofs.Window
import Expander.Proofs.Promises
import Expander.Proofs.MemoryService
import Expander.Proofs.Driving
import Expander.Proofs.Footprint
import Expander.Proofs.Reconciliation
import Expander.Proofs.Media.Occupancy
import Expander.Proofs.Routing
import Expander.Proofs.MemoryMap
import Expander.Proofs.Firing
import Expander.Proofs.Punctuality
