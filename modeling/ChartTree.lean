import ChartTree.Chart.Diagnostic
import ChartTree.Json.Reader
import ChartTree.Main
import ChartTree.Proofs.Chart.Failure
import ChartTree.Proofs.Chart.Freshness
import ChartTree.Proofs.Chart.Outline
import ChartTree.Proofs.Chart.Session
import ChartTree.Proofs.Compile.Address
import ChartTree.Proofs.Compile.Agreement
import ChartTree.Proofs.Compile.DefaultSlots
import ChartTree.Proofs.Compile.EntrySource
import ChartTree.Proofs.Compile.Reordering
import ChartTree.Proofs.Compile.Pruning
import ChartTree.Proofs.Chart.Layering
import ChartTree.Proofs.Number.Nearest
import ChartTree.Proofs.Number.Integer
import ChartTree.Proofs.Number.Shortest
import ChartTree.Proofs.Json.NumberText
import ChartTree.Proofs.Json.TokenText
import ChartTree.Proofs.Json.Text
import ChartTree.Proofs.Map.Arrangement
import ChartTree.Proofs.Json.Document
import ChartTree.Proofs.Json.Streaming
import ChartTree.Proofs.Json.Decoding
import ChartTree.Proofs.Json.RoundTrip
import ChartTree.Proofs.Compile.Finiteness
import ChartTree.Proofs.Chart.Likeness
import ChartTree.Proofs.Chart.HookCalls
import ChartTree.Proofs.Chart.Wrapping
import ChartTree.Proofs.Value.Sameness
import ChartTree.Proofs.Compile.Contents
import ChartTree.Proofs.Compile.Sameness
import ChartTree.Proofs.Compile.Visits
import ChartTree.Proofs.Compile.Accounting
import ChartTree.Proofs.Compile.Merging
import ChartTree.Proofs.Compile.Absorption
import ChartTree.Proofs.Chart.Redeclaration
import ChartTree.Proofs.Node.Search
import ChartTree.Proofs.Compile.Channels
import ChartTree.Proofs.Registry.Steps
import ChartTree.Proofs.Chart.Container
import ChartTree.Proofs.Value.Storage
import ChartTree.Proofs.Value.Equivalence
import ChartTree.Proofs.Compile.Iteration
