import TableBrowser.Filter.Compile
import TableBrowser.Json.Printer
import TableBrowser.Json.Reader
import TableBrowser.Main
import TableBrowser.Number.Extended
import TableBrowser.Paging.Encode
import TableBrowser.Paging.Run
import TableBrowser.Proofs.Database.ColumnReference
import TableBrowser.Proofs.Database.Exhaustion
import TableBrowser.Proofs.Database.PatternTests
import TableBrowser.Proofs.Database.Seeding
import TableBrowser.Proofs.Database.ShownBytes
import TableBrowser.Proofs.Database.TableList
import TableBrowser.Proofs.Filter.CutReading
import TableBrowser.Proofs.Filter.FailureReport
import TableBrowser.Proofs.Filter.Layout
import TableBrowser.Proofs.Filter.PlainFilter
import TableBrowser.Proofs.Filter.TokenReading
import TableBrowser.Proofs.Filter.ValueClasses
import TableBrowser.Proofs.Paging.Losses
import TableBrowser.Proofs.Paging.PageSizes
import TableBrowser.Proofs.Paging.Restarts
import TableBrowser.Proofs.Sql.BackslashEscapes
import TableBrowser.Proofs.Sql.ClauseReadback
import TableBrowser.Proofs.Sql.Dialects
import TableBrowser.Proofs.Sql.PreviewClause
import TableBrowser.Proofs.Sql.StatementNames
import TableBrowser.Proofs.Web.CommandSettings
import TableBrowser.Proofs.Web.Interleaving
import TableBrowser.Proofs.Web.Isolation
import TableBrowser.Web.Server
