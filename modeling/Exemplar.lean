import Exemplar.Batch.Config
import Exemplar.Batch.Extract
import Exemplar.Batch.Generate
import Exemplar.Batch.Show
import Exemplar.Batch.Workspace
import Exemplar.CommandLine.Arguments
import Exemplar.CommandLine.Command
import Exemplar.CommandLine.Run
import Exemplar.Files.Changes
import Exemplar.Main
import Exemplar.Proofs.Service.Legible
import Exemplar.Proofs.Service.Plain
import Exemplar.Proofs.Store.Archive
import Exemplar.Proofs.Markup.Stream
import Exemplar.Proofs.Markup.Concat
import Exemplar.Proofs.Markup.Unseen
import Exemplar.Proofs.Service.Conforms
import Exemplar.Proofs.Batch.Extract
import Exemplar.Proofs.Service.Ids
import Exemplar.Proofs.Batch.Generate
import Exemplar.Proofs.Service.WellTyped
import Exemplar.Proofs.Batch.RoundTrip
import Exemplar.Proofs.Store.Lookup
import Exemplar.Proofs.Reference
import Exemplar.Proofs.Batch.Show
import Exemplar.Proofs.Files.Sources
import Exemplar.Proofs.Batch.Malformed
import Exemplar.Proofs.Markup.Position
import Exemplar.Proofs.Markup.Fit
import Exemplar.Proofs.Markup.Indented
import Exemplar.Proofs.Markup.LineEnds
import Exemplar.Proofs.Service.EntryCalls
import Exemplar.Proofs.Store.Interrupted
import Exemplar.Proofs.Store.Answers
import Exemplar.Proofs.Batch.ClassPlace
import Exemplar.Proofs.Batch.Unfinished
import Exemplar.Proofs.Store.Grouping
import Exemplar.Proofs.Render.Json
import Exemplar.Proofs.Render.Fences
import Exemplar.Proofs.Files.Extension
import Exemplar.Proofs.Files.DepthFirst
import Exemplar.Proofs.Batch.Once
import Exemplar.Proofs.Text.Dedent
import Exemplar.Proofs.Render.Escape
import Exemplar.Proofs.Service.Located
