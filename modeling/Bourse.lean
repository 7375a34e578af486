import Bourse.Binary64
import Bourse.Book.Basic
import Bourse.Book.Ladder
import Bourse.Book.Level
import Bourse.Book.Match
import Bourse.Book.Snapshot
import Bourse.Book.Wire
import Bourse.Book.Words
import Bourse.Calendar
import Bourse.Config.Dotenv
import Bourse.Config.Settings
import Bourse.Daily
import Bourse.Decimal.Layout
import Bourse.Decimal.Shortest
import Bourse.Decode.Shape
import Bourse.Decode.Text
import Bourse.Decode.Tree
import Bourse.Exchange
import Bourse.Http.Form
import Bourse.Http.Mime
import Bourse.Http.Request
import Bourse.Http.Service
import Bourse.Http.Uri
import Bourse.Json.Cursor
import Bourse.Json.Fault
import Bourse.Json.Parse
import Bourse.Json.Scan
import Bourse.Json.Value
import Bourse.Main
import Bourse.Month
import Bourse.Net.Address
import Bourse.Notify
import Bourse.Order
import Bourse.Report
import Bourse.Server
import Bourse.Session
import Bourse.Store
import Bourse.Tasks
import Bourse.Text.Blank
import Bourse.Text.Integer
import Bourse.Text.Unicode
import Bourse.Text.Utf8
import Bourse.Proofs.Queue
import Bourse.Proofs.Ladder
import Bourse.Proofs.Execution
import Bourse.Proofs.Representation
import Bourse.Proofs.DepthFirst
import Bourse.Proofs.Accounting
import Bourse.Proofs.Calls
import Bourse.Proofs.Freshness
import Bourse.Proofs.Lifecycle
import Bourse.Proofs.Announcements
import Bourse.Proofs.Capture
import Bourse.Proofs.Cascade
import Bourse.Proofs.WordArithmetic
import Bourse.Proofs.Priority
import Bourse.Proofs.AllOrNothing
import Bourse.Proofs.Refusal
import Bourse.Proofs.Reading
import Bourse.Proofs.PrettyReading
import Bourse.Proofs.SnapshotFile
import Bourse.Proofs.Reopen
import Bourse.Proofs.Frame
import Bourse.Proofs.Sweep
import Bourse.Proofs.FixedPoint
import Bourse.Proofs.Termination
import Bourse.Proofs.Cancelling
import Bourse.Proofs.Normalising
import Bourse.Proofs.Conservation
import Bourse.Proofs.MonthPartition
import Bourse.Proofs.CivilDates
import Bourse.Proofs.MonthCodes
import Bourse.Proofs.SessionTable
import Bourse.Proofs.SessionTokens
import Bourse.Proofs.AtomicSave
import Bourse.Proofs.SessionExpiry
import Bourse.Proofs.Sorting
import Bourse.Proofs.TriggerSplit
