import Courier.Options.Text
import Courier.Rehearsal.ClientScript
import Courier.Rehearsal.OutboxScript
import Courier.Rehearsal.SlotScript
import Courier.Rehearsal.SubscriptionScript
import Courier.Settings.Load
import Courier.Proofs.Contents
import Courier.Proofs.SlotOwners
import Courier.Proofs.Outbox.Custody
import Courier.Proofs.Outbox.Standing
import Courier.Proofs.Outbox.Placing
import Courier.Proofs.Outbox.Sending
import Courier.Proofs.Outbox.Exchange
import Courier.Proofs.Outbox.Removal
import Courier.Proofs.Client.Turn
import Courier.Proofs.Client.Events
import Courier.Proofs.Client.Soundness
import Courier.Proofs.Client.Movement
import Courier.Proofs.Client.Callers
import Courier.Proofs.Client.Outcome
import Courier.Proofs.Client.Conservation
import Courier.Proofs.Client.Retention
import Courier.Proofs.Client.Ledger
import Courier.Proofs.Insertions
import Courier.Proofs.Outbox.Owners
import Courier.Proofs.Outbox.Room
import Courier.Proofs.Client.Flow
import Courier.Proofs.Outbox.Order
import Courier.Proofs.Client.Order
import Courier.Proofs.Client.Deliveries
import Courier.Proofs.Client.Residue
import Courier.Proofs.Client.Connection
import Courier.Proofs.Client.Headroom
import Courier.Proofs.Client.AtMostOnce
import Courier.Proofs.Client.Coherence
import Courier.Proofs.Client.Failures
import Courier.Proofs.Client.Course
import Courier.Proofs.Client.Dialling
import Courier.Proofs.Client.Shutdown
import Courier.Proofs.Client.Rounds
import Courier.Proofs.Outbox.Pumping
import Courier.Proofs.Outbox.Commutation
import Courier.Proofs.Outbox.Purging
import Courier.Proofs.Outbox.Withdrawal
import Courier.Proofs.Patterns
import Courier.Proofs.Filters
import Courier.Proofs.Client.Filing
import Courier.Proofs.Acceptance
import Courier.Proofs.SlotRecord
import Courier.Proofs.SlotHistory
import Courier.Proofs.Settings.Layering
import Courier.Proofs.Client.Edits
import Courier.Proofs.Client.Search
import Courier.Proofs.Settings.ClientId
