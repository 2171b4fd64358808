import ClusterRing.Main
import ClusterRing.OrderedMap
import ClusterRing.Proofs.Address.Canonical
import ClusterRing.Proofs.Address.Listing
import ClusterRing.Proofs.Address.Order
import ClusterRing.Proofs.Address.Spelling
import ClusterRing.Proofs.ControlLoop
import ClusterRing.Proofs.ControlLoop.Frames
import ClusterRing.Proofs.Event.Acceptance
import ClusterRing.Proofs.Event.Document
import ClusterRing.Proofs.Event.Frame
import ClusterRing.Proofs.Event.Script
import ClusterRing.Proofs.Json.Parser
import ClusterRing.Proofs.Json.Token
import ClusterRing.Proofs.Layout
import ClusterRing.Proofs.Locator.Balance
import ClusterRing.Proofs.Locator.Commutation
import ClusterRing.Proofs.Locator.Delivery
import ClusterRing.Proofs.Locator.Departure
import ClusterRing.Proofs.Locator.Exchange
import ClusterRing.Proofs.Locator.Failover
import ClusterRing.Proofs.Locator.Failure
import ClusterRing.Proofs.Locator.LeavingSweep
import ClusterRing.Proofs.Locator.Movement
import ClusterRing.Proofs.Locator.Range
import ClusterRing.Proofs.Locator.Rebuild
import ClusterRing.Proofs.Locator.Redelivery
import ClusterRing.Proofs.Locator.Remaining
import ClusterRing.Proofs.Publisher
import ClusterRing.Proofs.Readable
import ClusterRing.Proofs.Ring.Operations
import ClusterRing.Proofs.Ring.OwnerMap
import ClusterRing.Proofs.Ring.Tally
import ClusterRing.Ring.OwnerMap
import ClusterRing.Bookkeeping
import ClusterRing.Ledger
import ClusterRing.Proofs.Bookkeeping
import ClusterRing.Proofs.Ledger
