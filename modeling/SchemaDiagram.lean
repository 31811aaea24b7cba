import SchemaDiagram.Json
import SchemaDiagram.Json.Parser
import SchemaDiagram.Json.Printer
import SchemaDiagram.Json.Display
import SchemaDiagram.Text.Blank
import SchemaDiagram.Text.Digits
import SchemaDiagram.Text.Unpaired
import SchemaDiagram.Text.Encoding
import SchemaDiagram.Decimal.Shortest
import SchemaDiagram.Decimal.Layout
import SchemaDiagram.Decimal.Reader
import SchemaDiagram.Decimal.Places
import SchemaDiagram.Diagram.Record
import SchemaDiagram.TextError
import SchemaDiagram.Schema.Validation
import SchemaDiagram.Fault
import SchemaDiagram.Grid
import SchemaDiagram.Projection
import SchemaDiagram.Reduction
import SchemaDiagram.Naming
import SchemaDiagram.Sync.Payload
import SchemaDiagram.Settings
import SchemaDiagram.Log
import SchemaDiagram.Diagram.Edit
import SchemaDiagram.Session
import SchemaDiagram.Notification
import SchemaDiagram.Session.Edit
import SchemaDiagram.Channel
import SchemaDiagram.EventLoop
import SchemaDiagram.Debounce.Job
import SchemaDiagram.Sync.Loading
import SchemaDiagram.Session.View
import SchemaDiagram.Session.Action
import SchemaDiagram.Sync.Client
import SchemaDiagram.Files.Change
import SchemaDiagram.Command
import SchemaDiagram.Main
import SchemaDiagram.Sync.View
import SchemaDiagram.Web.Punycode
import SchemaDiagram.Web.Base64
import SchemaDiagram.Web.Address
import SchemaDiagram.Web.HostName
import SchemaDiagram.Proofs.DiagramChange
import SchemaDiagram.Proofs.Reduction
import SchemaDiagram.Proofs.Attempt
import SchemaDiagram.Proofs.EditAtomic
import SchemaDiagram.Proofs.Unplaced
import SchemaDiagram.Proofs.EditRuns
import SchemaDiagram.Proofs.WellFormed
import SchemaDiagram.Proofs.RoundTrip
import SchemaDiagram.Proofs.Operations
import SchemaDiagram.Proofs.Scheduling
import SchemaDiagram.Proofs.Talk
import SchemaDiagram.Proofs.Moves
import SchemaDiagram.Proofs.SaveLock
import SchemaDiagram.Proofs.Places
import SchemaDiagram.Proofs.SerialSaves
import SchemaDiagram.Proofs.ParseAnswers
import SchemaDiagram.Proofs.Loads
import SchemaDiagram.Proofs.FreshSaves
import SchemaDiagram.Proofs.Normalisation
import SchemaDiagram.Proofs.Acceptance
import SchemaDiagram.Proofs.Drawing
import SchemaDiagram.Proofs.LastSave
import SchemaDiagram.Proofs.LoadFence
import SchemaDiagram.Proofs.Texts
import SchemaDiagram.Proofs.TextSaves
import SchemaDiagram.Proofs.WireForm
import SchemaDiagram.Proofs.Redrawing
import SchemaDiagram.Proofs.Restoring
import SchemaDiagram.Proofs.SavedFiles
import SchemaDiagram.Proofs.ParseStatus
import SchemaDiagram.Proofs.SaveStatus
import SchemaDiagram.Proofs.FreshNames
import SchemaDiagram.Proofs.NumberedIds
import SchemaDiagram.Proofs.LeastNames
import SchemaDiagram.Proofs.Changes
import SchemaDiagram.Proofs.Integrity
import SchemaDiagram.Proofs.Coherence
import SchemaDiagram.Proofs.CommitConditions
import SchemaDiagram.Proofs.Accounts
import SchemaDiagram.Proofs.Announcements
import SchemaDiagram.Proofs.DebouncedRuns
import SchemaDiagram.Proofs.Propagation
import SchemaDiagram.Proofs.ColumnUpdates
import SchemaDiagram.Proofs.Correspondence
import SchemaDiagram.Proofs.Renaming
import SchemaDiagram.Proofs.Removal
import SchemaDiagram.Proofs.Replacement
import SchemaDiagram.Proofs.Reports
import SchemaDiagram.Proofs.FailedLoads
import SchemaDiagram.Proofs.Lifecycle
import SchemaDiagram.Proofs.DrainWaits
import SchemaDiagram.Proofs.UpdateForms
import SchemaDiagram.Proofs.SelectionRuns
import SchemaDiagram.Proofs.Requests
import SchemaDiagram.Proofs.BinaryNumbers
import SchemaDiagram.Proofs.ShortestDigits
import SchemaDiagram.Proofs.Numerals
import SchemaDiagram.Proofs.JsonText
import SchemaDiagram.Proofs.StrictReading
import SchemaDiagram.Proofs.PlainRecords
import SchemaDiagram.Proofs.WritablePaths
import SchemaDiagram.Proofs.Conversions
import SchemaDiagram.Proofs.LogSetups
