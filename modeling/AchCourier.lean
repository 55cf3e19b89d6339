import AchCourier.Ach.Draft
import AchCourier.Ach.Writer
import AchCourier.Config.Store
import AchCourier.Config.Summary
import AchCourier.Ingest.Courier
import AchCourier.Remote.Memory
import AchCourier.Remote.Scripted
import AchCourier.Remote.Target
import AchCourier.Proofs.Ach.AddendaKept
import AchCourier.Proofs.Ach.Blocks
import AchCourier.Proofs.Ach.Conservation
import AchCourier.Proofs.Ach.Identities
import AchCourier.Proofs.Ach.JsonForm
import AchCourier.Proofs.Ach.PhysicalForm
import AchCourier.Proofs.Ach.Reconciliation
import AchCourier.Proofs.Ach.Repair
import AchCourier.Proofs.Ach.RoundTrip
import AchCourier.Proofs.Ach.Stability
import AchCourier.Proofs.Ach.Truncation
import AchCourier.Proofs.Ach.WrongDigits
import AchCourier.Proofs.Audit.WriteOnce
import AchCourier.Proofs.Config.AtomicSaves
import AchCourier.Proofs.Config.Secrets
import AchCourier.Proofs.Ingest.AuditFirst
import AchCourier.Proofs.Ingest.Cleanup
import AchCourier.Proofs.Ingest.Deletions
import AchCourier.Proofs.Ingest.Findings
import AchCourier.Proofs.Ingest.Reruns
import AchCourier.Proofs.Ingest.StagedRuns
import AchCourier.Proofs.Net.AllowedAddresses
import AchCourier.Proofs.Net.Endpoints
import AchCourier.Proofs.Remote.ConnectionState
import AchCourier.Proofs.Remote.Dialing
import AchCourier.Proofs.Remote.HealthSignals
import AchCourier.Proofs.Remote.HostCheck
import AchCourier.Proofs.Remote.Listings
import AchCourier.Proofs.Remote.Removal
import AchCourier.Proofs.Remote.SessionLife
import AchCourier.Proofs.Remote.Uploads
import AchCourier.Proofs.Ssh.Pinning
