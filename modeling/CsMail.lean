import CsMail.Ledger
import CsMail.Finance.Request
import CsMail.LedgerProofs
import CsMail.Finance.RequestProofs
import CsMail.Finance.RequestLedger
import CsMail.Capabilities.Lane
import CsMail.Protocol.Model
import CsMail.Protocol.Command
import CsMail.Protocol.Kernel
import CsMail.Protocol.KernelProofs
import CsMail.Protocol.Admission
import CsMail.Application.Store
import CsMail.Application.StoreProofs
import CsMail.Protocol.BookProofs
import CsMail.Application.Soundness
import CsMail.Requests.Agreement
import CsMail.Requests.Preparation
import CsMail.Requests.Lifecycle
import CsMail.Requests.Cooldown
import CsMail.Requests.Timers
import CsMail.Relationships.Block
import CsMail.Application.Requests
import CsMail.Application.IngressProofs
import CsMail.Requests.Opposite
import CsMail.Finance.Execution
import CsMail.Finance.ExecutionProofs
import CsMail.Finance.Funding
import CsMail.Finance.FundingProofs
import CsMail.Finance.CaptureEvidence
import CsMail.Finance.Distribution
import CsMail.Finance.Payable
import CsMail.Finance.PayableProofs
import CsMail.Finance.Program
import CsMail.Finance.ProgramProofs
import CsMail.Finance.DistributionProofs
import CsMail.Finance.ProgramLedger
import CsMail.Finance.ProgramRestore
import CsMail.Finance.Review
import CsMail.Finance.Finalization
import CsMail.Finance.Cutoff
import CsMail.Library.InPlace
import CsMail.Capabilities.LaneProofs
import CsMail.Capabilities.LaneRuns
import CsMail.Capabilities.LaneRecord
import CsMail.LedgerRuns
import CsMail.Library.Codec
import CsMail.Wire.Json
import CsMail.Wire.Command
import CsMail.Library.PreferredCbor
import CsMail.Wire.RoundTrip
import CsMail.Application.Engine
import CsMail.Application.EngineProofs
import CsMail.Application.EngineRuns
import CsMail.Accounts.AliasPermission
import CsMail.Accounts.Alias
import CsMail.Accounts.AliasProofs
import CsMail.Accounts.AliasRuns
import CsMail.Library.HashChain
import CsMail.Security.Keys
import CsMail.Security.KeyProofs
import CsMail.Security.Authority
import CsMail.Security.AuthorityProofs
import CsMail.Billing.Account
import CsMail.Billing.ServiceProofs
import CsMail.Billing.AccountProofs
import CsMail.Accounts.Control
import CsMail.Application.Accounts
import CsMail.Application.Recovery
import CsMail.Application.AccountRuns
import CsMail.Finance.AnnualShares
import CsMail.Finance.FundingReplay
import CsMail.Application.LaneReplay
import CsMail.Work.Queue
import CsMail.Work.QueueProofs
import CsMail.Work.QueueRuns
import CsMail.Correspondence.Manifest
import CsMail.External.Conversation
import CsMail.External.Message
import CsMail.External.Command
import CsMail.External.Store
import CsMail.External.StoreProofs
import CsMail.External.DeliveryRuns
import CsMail.External.Replies
import CsMail.Relationships.Versions
import CsMail.External.Invitation
import CsMail.Library.Slices
import CsMail.Search.Passages
import CsMail.Search.Query
import CsMail.Member.Semantic
import CsMail.Member.SemanticProofs
import CsMail.Library.ContentStore
import CsMail.Member.Mailbox
import CsMail.Member.Storage
import CsMail.Member.StorageProofs
import CsMail.Member.DeviceRuns
import CsMail.Library.FirstMatch
import CsMail.Member.Drafts
import CsMail.Member.Journey
import CsMail.Member.Outgoing
import CsMail.Member.Calls
import CsMail.Member.DraftProofs
import CsMail.Member.Journal
import CsMail.Member.Moves
import CsMail.Member.JournalRuns
import CsMail.Member.FullJournal
import CsMail.Member.DraftRuns
import CsMail.Finance.ExecutionRuns
import CsMail.Billing.Rebinding
import CsMail.Finance.StoredRequest
import CsMail.Finance.PendingPayments
import CsMail.Protocol.PaymentWork
import CsMail.Requests.PaymentRuns
import CsMail.Requests.Followups
import CsMail.Relationships.Reply
import CsMail.Capabilities.SigningBytes
import CsMail.Library.Worklist
import CsMail.Correspondence.Forwarding
import CsMail.Member.Retained
import CsMail.Member.HeaderRuns
import CsMail.Correspondence.Delivery
import CsMail.Correspondence.Admission
import CsMail.Search.Literal
import CsMail.Search.Words
import CsMail.Security.Transparency
import CsMail.Content.Encryption
import CsMail.Library.Calendar
import CsMail.Billing.ServiceYears
import CsMail.Correspondence.Email
import CsMail.Correspondence.EmailIdentity
import CsMail.Correspondence.Quotation
import CsMail.Application.Generation
import CsMail.Application.GenerationProofs
import CsMail.Guests.Verification
import CsMail.Adapters.Federation
import CsMail.Member.Retention
import CsMail.Member.RetentionProofs
import CsMail.Member.RetentionRuns
import CsMail.Consent.Grant
import CsMail.Consent.Service
import CsMail.Consent.Store
import CsMail.Consent.StoreProofs
import CsMail.Consent.Runs
import CsMail.Member.RetentionProgress
import CsMail.Guests.History
import CsMail.Guests.HistoryStore
import CsMail.Library.Components
import CsMail.Guests.HistoryProofs
import CsMail.Guests.HistoryRuns
import CsMail.Guests.Mailbox
import CsMail.Ingress.Progress
import CsMail.Ingress.Replay
import CsMail.Library.BufReader
import CsMail.Smtp.Address
import CsMail.Smtp.Receiver
import CsMail.Smtp.ReceiverProofs
import CsMail.Smtp.ReceiverRuns
import CsMail.Library.Publication
import CsMail.Lifecycle.Changes
import CsMail.Lifecycle.Deletions
import CsMail.Operations.Model
import CsMail.Operations.Runs
