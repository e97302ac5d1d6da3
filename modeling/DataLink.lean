import DataLink.Diagnostic
import DataLink.Main
import DataLink.Proofs.Eating
import DataLink.Proofs.Cycle
import DataLink.Proofs.Run
import DataLink.Proofs.Chunking
import DataLink.Proofs.Silence
import DataLink.Proofs.Windows
import DataLink.Proofs.Echo
import DataLink.Proofs.Transmission
import DataLink.Proofs.Mirror
import DataLink.Proofs.LayoutEnds
import DataLink.Proofs.Account
import DataLink.Proofs.Conservation
import DataLink.Proofs.Tampering
import DataLink.Proofs.Resync
import DataLink.Proofs.Channel
import DataLink.Proofs.Reacquisition
import DataLink.Proofs.Schedule
import DataLink.Proofs.Validity
import DataLink.Proofs.Padding
import DataLink.Proofs.Reencoding
import DataLink.Proofs.Inversion
import DataLink.Proofs.LosslessLayout
import DataLink.Proofs.Atomicity
import DataLink.Proofs.InnerEnvelopes
import DataLink.Proofs.Acceptance
import DataLink.Proofs.Buffer
import DataLink.Proofs.ClockOrigin
import DataLink.Proofs.ReadOnly
import DataLink.Proofs.Access
import DataLink.Proofs.BitAccess
import DataLink.Proofs.PacketAccess
import DataLink.Proofs.LinkAccess
import DataLink.Proofs.RunAccess
import DataLink.Proofs.Station
import DataLink.Proofs.Demultiplexer
import DataLink.Proofs.Isolation
import DataLink.Proofs.HexText
import DataLink.Proofs.Readback
import DataLink.Proofs.Demand
import DataLink.Proofs.Clearing
import DataLink.Proofs.BitWeights
import DataLink.Proofs.Instant
import DataLink.Proofs.SigningKeys
import DataLink.Proofs.Rounding
import DataLink.Proofs.Doubles
import DataLink.Proofs.Denotation
import DataLink.Proofs.FloatFields
import DataLink.Proofs.FloatDelivery
import DataLink.Proofs.Trimming
import DataLink.Proofs.HexGrammar
import DataLink.Proofs.TextAssignments
import DataLink.Proofs.RoundingInterval
import DataLink.Proofs.PositionalText
import DataLink.Proofs.ShortestText
import DataLink.Proofs.CellText
import DataLink.Proofs.Deliveries
import DataLink.Proofs.InfiniteArrivals
import DataLink.Proofs.CellDocuments
import DataLink.Proofs.RoundingOrder
import DataLink.Proofs.Frequencies
