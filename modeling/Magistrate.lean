import Magistrate.Core.Run
import Magistrate.Core.Versions
import Magistrate.Core.Table
import Magistrate.Core.Binary64
import Magistrate.Core.Json
import Magistrate.Core.Wallet
import Magistrate.Gateway.Billing.Shipped
import Magistrate.Gateway.Billing.Conservation
import Magistrate.Gateway.Billing.Admission
import Magistrate.Gateway.Billing.Charge
import Magistrate.Gateway.Billing.Spend
import Magistrate.Gateway.Billing.Delivery
import Magistrate.Gateway.Billing.Hold
import Magistrate.Gateway.Chat.Messages
import Magistrate.Gateway.Chat.Submission
import Magistrate.Gateway.Chat.Service
import Magistrate.Gateway.Chat.TurnRoute
import Magistrate.Gateway.Chat.Changes
import Magistrate.Gateway.Chat.Replay
import Magistrate.Gateway.Chat.Generated
import Magistrate.Gateway.Routing.Ledger
import Magistrate.Gateway.Routing.Completion
import Magistrate.Gateway.Execution.Hosted
import Magistrate.Gateway.Execution.Ingest
import Magistrate.Gateway.Execution.Cancellation
import Magistrate.Gateway.Execution.Completion
import Magistrate.Gateway.Execution.Intake
import Magistrate.Gateway.Execution.Projection
import Magistrate.Gateway.Execution.EventAdmission
import Magistrate.Gateway.Execution.Launch
import Magistrate.Gateway.Execution.Settlement
import Magistrate.Gateway.Decisions.Answers
import Magistrate.Gateway.Decisions.Snapshots
import Magistrate.Gateway.Secrets.Writers
import Magistrate.Gateway.Activity.Journal
import Magistrate.Gateway.Activity.Snapshots
import Magistrate.Gateway.Attention.Once
import Magistrate.Gateway.Auth.LoginMethods
import Magistrate.Gateway.Auth.Bearers
import Magistrate.Gateway.GitHub.Ownership
import Magistrate.Gateway.GitHub.Revocation
import Magistrate.Gateway.GitHub.Deliveries
import Magistrate.Frontend.Realtime.Reconnect
import Magistrate.Frontend.Navigation
import Magistrate.Gateway.Notifications.Fencing
import Magistrate.Frontend.Chat.Convergence
import Magistrate.Frontend.Chat.ReplayResult
import Magistrate.Gateway.Memory.Search
import Magistrate.Gateway.Projects.Bindings
import Magistrate.Gateway.Pi.Recovery
import Magistrate.Gateway.Pi.Stages
import Magistrate.Gateway.Uploads.Retention
import Magistrate.Gateway.Models.Results
import Magistrate.Frontend.Activity.Readable
import Magistrate.Frontend.Activity.Acceptance
import Magistrate.Frontend.Activity.Hydration
import Magistrate.Gateway.Pi.Envelope
import Magistrate.Gateway.Chat.History
import Magistrate.Gateway.Chat.Diagnostics
import Magistrate.Gateway.Chat.Paging
import Magistrate.Gateway.Billing.Cost
import Magistrate.Gateway.Billing.Purchases
import Magistrate.Gateway.Agents.Migrations
import Magistrate.Frontend.Activity.Recovery
import Magistrate.Gateway.Execution.PersonalResources
import Magistrate.Gateway.Chat.CancelledTurns
import Magistrate.Gateway.Chat.Attachments
import Magistrate.Gateway.Models.Lossless
import Magistrate.Gateway.Memory.Audit
import Magistrate.Gateway.Memory.Context
