import Gic.Interrupt.Lookup
import Gic.Main
import Gic.Proofs.Arbitration
import Gic.Proofs.NeverStale
import Gic.Proofs.Offsets
import Gic.Proofs.Ownership
import Gic.Proofs.Rows
import Gic.Proofs.Run
import Gic.Proofs.SgiDelivery
import Gic.Proofs.SgiRecords
import Gic.Proofs.Nesting
import Gic.Proofs.GuestArbitration
import Gic.Proofs.Effects
import Gic.Proofs.Levels
import Gic.Proofs.Edges
import Gic.Proofs.LineChanges
import Gic.Proofs.Acknowledge
import Gic.Proofs.GuestReach
import Gic.Proofs.GuestIsolation
import Gic.Proofs.GuestLines
import Gic.Proofs.Banks
import Gic.Proofs.Refusals
import Gic.Proofs.Decoding
import Gic.Proofs.BoardRun
import Gic.Proofs.Transparency
import Gic.Proofs.ActionLines
import Gic.Proofs.Signals
import Gic.Proofs.Saving
import Gic.Proofs.SaveRestore
import Gic.Proofs.ActivePriorities
import Gic.Proofs.GuestRoundTrip
import Gic.Proofs.GuestNesting
import Gic.Proofs.Guarded
import Gic.Proofs.GuardedPhysical
import Gic.Proofs.GuardedInterfaces
import Gic.Proofs.InRange
import Gic.Proofs.Completion
import Gic.Proofs.StoreShape
import Gic.Proofs.Queueing
import Gic.Proofs.Replaying
import Gic.Proofs.GuestAcknowledge
import Gic.Proofs.ByteLanes
import Gic.Proofs.FlagWords
import Gic.Proofs.LinearSearch
import Gic.Proofs.Validation
import Gic.Proofs.ListRegisters
import Gic.Proofs.Unregarded
import Gic.Proofs.PriorityScale
import Gic.Proofs.Observing
import Gic.Proofs.AddressText
import Gic.Proofs.Reset
import Gic.Proofs.BoardDescription
import Gic.Proofs.DocumentReading
import Gic.Proofs.Forgetting
import Gic.Proofs.ScriptFields
