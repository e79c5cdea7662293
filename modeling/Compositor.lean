import Compositor.Proofs.Object.Admission
import Compositor.Proofs.Object.Consistency
import Compositor.Proofs.Object.Expiry
import Compositor.Proofs.Object.Forgetting
import Compositor.Proofs.Object.Handles
import Compositor.Proofs.Object.Identity
import Compositor.Proofs.Object.Issuance
import Compositor.Proofs.Object.Ledger
import Compositor.Proofs.Object.Recollection
import Compositor.Proofs.Object.Slots
import Compositor.Proofs.Protocol.Building
import Compositor.Proofs.Protocol.Declarations
import Compositor.Proofs.Protocol.Documents
import Compositor.Proofs.Protocol.Registry
import Compositor.Proofs.Session.Acknowledgements
import Compositor.Proofs.Session.Actions
import Compositor.Proofs.Session.Announcements
import Compositor.Proofs.Session.Arrival
import Compositor.Proofs.Session.Attendance
import Compositor.Proofs.Session.Backlog
import Compositor.Proofs.Session.Binding
import Compositor.Proofs.Session.Checks
import Compositor.Proofs.Session.Cutting
import Compositor.Proofs.Session.Delivery
import Compositor.Proofs.Session.Destruction
import Compositor.Proofs.Session.Effects
import Compositor.Proofs.Session.Endings
import Compositor.Proofs.Session.Episodes
import Compositor.Proofs.Session.Granting
import Compositor.Proofs.Session.History
import Compositor.Proofs.Session.Implementations
import Compositor.Proofs.Session.Input
import Compositor.Proofs.Session.Intake
import Compositor.Proofs.Session.Lifecycle
import Compositor.Proofs.Session.Lifetimes
import Compositor.Proofs.Session.LimitsText
import Compositor.Proofs.Session.Naming
import Compositor.Proofs.Session.Notices
import Compositor.Proofs.Session.Offers
import Compositor.Proofs.Session.Orderly
import Compositor.Proofs.Session.Outcomes
import Compositor.Proofs.Session.Packets
import Compositor.Proofs.Session.Posting
import Compositor.Proofs.Session.Presiding
import Compositor.Proofs.Session.Registries
import Compositor.Proofs.Session.Report
import Compositor.Proofs.Session.Runs
import Compositor.Proofs.Session.Screening
import Compositor.Proofs.Session.Scripts
import Compositor.Proofs.Session.Tenure
import Compositor.Proofs.Session.Turns
import Compositor.Proofs.Session.Typing
import Compositor.Proofs.Session.Validity
import Compositor.Proofs.Session.Vetted
import Compositor.Proofs.Session.Violations
import Compositor.Proofs.Session.Withdrawal
import Compositor.Proofs.Text.Encoding
import Compositor.Proofs.Text.Numerals
import Compositor.Proofs.Toml.Settings
import Compositor.Proofs.Wire.Bounds
import Compositor.Proofs.Wire.Canonical
import Compositor.Proofs.Wire.Claiming
import Compositor.Proofs.Wire.Extension
import Compositor.Proofs.Wire.FixedPoint
import Compositor.Proofs.Wire.InPlace
import Compositor.Proofs.Wire.Reading
import Compositor.Proofs.Wire.RoundTrip
import Compositor.Proofs.Wire.Steps
import Compositor.Proofs.Wire.Waiting
import Compositor.Protocol.Source
import Compositor.Session.Clients
import Compositor.Proofs.Object.Changes
