import Assay.Message.Json
import Assay.Constant.Json
import Assay.Service.Registry
import Assay.Validator
import Assay.Proofs.Rooms
import Assay.Proofs.Course
import Assay.Proofs.OutcomeTree
import Assay.Proofs.Contribution
import Assay.Proofs.Track
import Assay.Proofs.Invocation
import Assay.Proofs.Crowding
import Assay.Proofs.SuccessFlag
import Assay.Proofs.Family
import Assay.Proofs.Lifetime
import Assay.Proofs.Blueprint
import Assay.Proofs.Planning
import Assay.Proofs.Stages
import Assay.Proofs.FieldReports
import Assay.Proofs.Agreement
import Assay.Proofs.Truncation
import Assay.Proofs.FailFast
import Assay.Proofs.Completion
import Assay.Proofs.Meaning
import Assay.Proofs.Tasks
import Assay.Proofs.Unfolding
import Assay.Proofs.Answers
import Assay.Proofs.Cancellation
import Assay.Proofs.Slots
import Assay.Proofs.Provision
import Assay.Proofs.Conservation
import Assay.Proofs.Balance
import Assay.Proofs.Session
import Assay.Proofs.Replanning
import Assay.Proofs.Renewal
import Assay.Proofs.Walks
import Assay.Proofs.Synchrony
import Assay.Proofs.Faults
import Assay.Proofs.Visits
import Assay.Proofs.Meetings
import Assay.Proofs.Inquiries
import Assay.Proofs.Immediacy
import Assay.Proofs.Promptness
import Assay.Proofs.Admission
import Assay.Proofs.Labels
import Assay.Proofs.Location
import Assay.Proofs.Sites
import Assay.Proofs.Depth
import Assay.Proofs.Spelling
import Assay.Proofs.Registration
import Assay.Proofs.Findings
import Assay.Proofs.Rearrangement
import Assay.Proofs.Reordering
import Assay.Proofs.Builtins
import Assay.Proofs.Independence
import Assay.Proofs.Endings
import Assay.Proofs.Sight
import Assay.Proofs.SizeClasses
import Assay.Proofs.Retention
import Assay.Proofs.Filling
import Assay.Proofs.Enclosure
import Assay.Proofs.Grouping
import Assay.Proofs.Sharing
import Assay.Proofs.Extraction
import Assay.Proofs.Lookup
import Assay.Proofs.Lineage
import Assay.Proofs.Scanning
import Assay.Proofs.Readings
import Assay.Proofs.NormalForms
import Assay.Proofs.Respelling
import Assay.Proofs.Contexts
import Assay.Proofs.Composition
import Assay.Proofs.Substitution
import Assay.Proofs.TextRules
import Assay.Proofs.Progress
import Assay.Proofs.Rereading
