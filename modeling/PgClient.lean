import PgClient.Elapsed
import PgClient.Main
import PgClient.Proofs.Announcement
import PgClient.Proofs.Attempts
import PgClient.Proofs.Binding
import PgClient.Proofs.Calls
import PgClient.Proofs.Closing
import PgClient.Proofs.Counter
import PgClient.Proofs.Counting
import PgClient.Proofs.Details.Program
import PgClient.Proofs.Details.Sessions
import PgClient.Proofs.Dispatch
import PgClient.Proofs.DroppedNames
import PgClient.Proofs.EarlyEnd
import PgClient.Proofs.Ending
import PgClient.Proofs.Escapes
import PgClient.Proofs.Farewell
import PgClient.Proofs.Fields
import PgClient.Proofs.Framing
import PgClient.Proofs.Gathering
import PgClient.Proofs.Grammar
import PgClient.Proofs.Handover
import PgClient.Proofs.Healing
import PgClient.Proofs.Identity
import PgClient.Proofs.Keys
import PgClient.Proofs.Lending
import PgClient.Proofs.Lengths
import PgClient.Proofs.Opening
import PgClient.Proofs.Parameters
import PgClient.Proofs.Readback
import PgClient.Proofs.Reports
import PgClient.Proofs.Rows
import PgClient.Proofs.Schedule
import PgClient.Proofs.Sendable
import PgClient.Proofs.Settled
import PgClient.Proofs.StrayErrors
import PgClient.Proofs.Talk
import PgClient.Proofs.Transcoding
import PgClient.Proofs.Truncation
import PgClient.Proofs.Trust
import PgClient.Proofs.Versions
import PgClient.Proofs.Waiting
