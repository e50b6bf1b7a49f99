import FileLore.Main
import FileLore.Proofs.Store.Atomic
import FileLore.Proofs.Store.History
import FileLore.Remote.Recorder
import FileLore.Proofs.Store.Concurrent
import FileLore.Proofs.Pattern.Preferred
import FileLore.Proofs.Pattern.Scan
import FileLore.Proofs.Source.Extraction
import FileLore.Proofs.Text.Decimal
import FileLore.Proofs.Json.Grammar
import FileLore.Proofs.Json.Written
import FileLore.Proofs.Json.Record
import FileLore.Proofs.Store.Confined
import FileLore.Proofs.Store.Summary
import FileLore.Proofs.Store.RoundTrip
import FileLore.Proofs.Text.Split
import FileLore.Proofs.Store.Listing
import FileLore.Proofs.Remote.Watched
import FileLore.Proofs.Tracker.Filing
import FileLore.Proofs.Json.Members
import FileLore.Proofs.Remote.Simulated
import FileLore.Proofs.CommandLine.Credentials
import FileLore.Proofs.Graph.Update
import FileLore.Proofs.CommandLine.Configuration
import FileLore.Proofs.CommandLine.Footprint
import FileLore.Proofs.CommandLine.Show
import FileLore.Proofs.Source.EmptyMarker
import FileLore.Proofs.Source.MarkerKind
import FileLore.Proofs.Source.PlainPython
import FileLore.Proofs.Source.PlainScript
import FileLore.Proofs.Source.PlainGo
import FileLore.Proofs.Source.WholeNames
import FileLore.Proofs.Graph.PythonFiles
import FileLore.Proofs.Graph.Imports
import FileLore.Proofs.Tracker.Remote
import FileLore.Proofs.Source.ImportEnds
import FileLore.Proofs.Tracker.Address
import FileLore.Proofs.Store.Leftover
import FileLore.Proofs.Store.Room
import FileLore.Proofs.Store.Impact
import FileLore.Proofs.Artifact.Context
import FileLore.Proofs.Remote.Parameters
import FileLore.Proofs.Text.Document
import FileLore.Proofs.Tracker.PullRequest
import FileLore.Proofs.Tracker.Issue
import FileLore.Proofs.Source.PathFields
import FileLore.Proofs.Calendar.Gregorian
import FileLore.Proofs.Calendar.Written
import FileLore.Proofs.Graph.Activity
import FileLore.Proofs.Pattern.Texts
import FileLore.Proofs.Text.CaseTable
import FileLore.Proofs.Text.TitleCase
import FileLore.Proofs.Tracker.CriticalPath
