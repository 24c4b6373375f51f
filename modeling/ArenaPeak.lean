import ArenaPeak.Main
import ArenaPeak.Symbol.Holdings
import ArenaPeak.Session
import ArenaPeak.Table.Catalogue
import ArenaPeak.Json.Reader
import ArenaPeak.Proofs.Accounting
import ArenaPeak.Proofs.Interning
import ArenaPeak.Proofs.Records
import ArenaPeak.Proofs.Totals
import ArenaPeak.Proofs.Compilation
import ArenaPeak.Proofs.ReplaySafety
import ArenaPeak.Proofs.Episode
import ArenaPeak.Proofs.SessionSteps
import ArenaPeak.Proofs.Ledger
import ArenaPeak.Proofs.SiteRecords
import ArenaPeak.Replay.Pool
import ArenaPeak.Proofs.PoolRuns
import ArenaPeak.Proofs.Scheduling
import ArenaPeak.Proofs.Categories
import ArenaPeak.Proofs.Guards
import ArenaPeak.Proofs.Interleavings
import ArenaPeak.Proofs.Registry
import ArenaPeak.Proofs.Operations
import ArenaPeak.Proofs.Listings
import ArenaPeak.Proofs.Reports
import ArenaPeak.Proofs.Pinning
import ArenaPeak.Proofs.Enabling
import ArenaPeak.Proofs.Checks
import ArenaPeak.Proofs.Assertions
import ArenaPeak.Proofs.InPlace
import ArenaPeak.Proofs.ReplayInPlace
import ArenaPeak.Proofs.Failures
import ArenaPeak.Proofs.MuteOutput
import ArenaPeak.Proofs.InlineLines
import ArenaPeak.Proofs.Settings
import ArenaPeak.Proofs.OneWorker
import ArenaPeak.Proofs.Invocations
import ArenaPeak.Proofs.JsonText
import ArenaPeak.Proofs.JsonRecords
import ArenaPeak.Proofs.WrittenForms
import ArenaPeak.Proofs.Decoding
import ArenaPeak.Proofs.CounterPast
import ArenaPeak.Proofs.Validation
import ArenaPeak.Proofs.Cuts
import ArenaPeak.Proofs.Grammar
import ArenaPeak.Proofs.Globs
import ArenaPeak.Proofs.CommandLists
import ArenaPeak.Proofs.Numerals
import ArenaPeak.Proofs.Rows
import ArenaPeak.Proofs.Sizes
import ArenaPeak.Proofs.Snapshots
