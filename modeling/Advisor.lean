import Advisor.Fingerprint
import Advisor.Remote.Account
import Advisor.Remote.Documentation
import Advisor.Remote.Model
import Advisor.Remote.Search
import Advisor.Service.Endpoint
import Advisor.Service.Reader
import Advisor.Proofs.Account.Arithmetic
import Advisor.Proofs.Account.Assembly
import Advisor.Proofs.Account.Caching
import Advisor.Proofs.Account.Concentration
import Advisor.Proofs.Account.Conservation
import Advisor.Proofs.Cache.Journal
import Advisor.Proofs.Consultation.Accounting
import Advisor.Proofs.Consultation.Acquaintance
import Advisor.Proofs.Consultation.Departure
import Advisor.Proofs.Consultation.Disclosure
import Advisor.Proofs.Consultation.Fallback
import Advisor.Proofs.Consultation.Gating
import Advisor.Proofs.Consultation.Modes
import Advisor.Proofs.Consultation.Narration
import Advisor.Proofs.Consultation.Progress
import Advisor.Proofs.Consultation.Prompting
import Advisor.Proofs.Consultation.Reissue
import Advisor.Proofs.Consultation.Stages
import Advisor.Proofs.Consultation.Validation
import Advisor.Proofs.Dialogue.Alike
import Advisor.Proofs.Dialogue.Asking
import Advisor.Proofs.Dialogue.Course
import Advisor.Proofs.Dialogue.Succession
import Advisor.Proofs.Dialogue.Ticket
import Advisor.Proofs.Distinct
import Advisor.Proofs.Intent.FollowUp
import Advisor.Proofs.Json.Faithful
import Advisor.Proofs.Json.Layout
import Advisor.Proofs.Json.OneLine
import Advisor.Proofs.Json.OpenRecords
import Advisor.Proofs.Json.Reading
import Advisor.Proofs.Json.Records
import Advisor.Proofs.Json.RoundTrip
import Advisor.Proofs.Json.Scanning
import Advisor.Proofs.Json.Settled
import Advisor.Proofs.Knowledge.Chapters
import Advisor.Proofs.Knowledge.Consulting
import Advisor.Proofs.Knowledge.Keywords
import Advisor.Proofs.Knowledge.Merging
import Advisor.Proofs.Knowledge.Querying
import Advisor.Proofs.Knowledge.Ranking
import Advisor.Proofs.Knowledge.Scoring
import Advisor.Proofs.Knowledge.Shelving
import Advisor.Proofs.Knowledge.Timing
import Advisor.Proofs.Number.Double
import Advisor.Proofs.Number.Rounding
import Advisor.Proofs.Number.TotalOrder
import Advisor.Proofs.Plan.Proposal
import Advisor.Proofs.Plan.RoundTrip
import Advisor.Proofs.Plan.Safety
import Advisor.Proofs.Prompt.Bounds
import Advisor.Proofs.Request.Acceptance
import Advisor.Proofs.Request.Conversation
import Advisor.Proofs.Request.Disregard
import Advisor.Proofs.Request.Parts
import Advisor.Proofs.Scan.Ingestion
import Advisor.Proofs.Scan.Recommending
import Advisor.Proofs.Scan.Refusal
import Advisor.Proofs.Service.Admission
import Advisor.Proofs.Service.Authentication
import Advisor.Proofs.Service.Indifference
import Advisor.Proofs.Sorted
import Advisor.Proofs.Split
import Advisor.Proofs.Stream.Agreement
import Advisor.Proofs.Stream.Batch
import Advisor.Proofs.Stream.Chunking
import Advisor.Proofs.Stream.Delivery
import Advisor.Proofs.Stream.Framing
import Advisor.Proofs.Stream.Pace
import Advisor.Proofs.Stream.Relaying
import Advisor.Proofs.Stream.Telling
import Advisor.Proofs.Text.Casing
import Advisor.Proofs.Text.Rows
import Advisor.Proofs.Text.Trimming
