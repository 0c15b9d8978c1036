import PaperIndex.Cache.Memory
import PaperIndex.Counter.Memory
import PaperIndex.Graph.Memory
import PaperIndex.Main
import PaperIndex.Network.Server
import PaperIndex.Proofs.Counter.Agreement
import PaperIndex.Proofs.Metrics.Isolation
import PaperIndex.Sync.Script
import PaperIndex.Proofs.Metrics.Reads
import PaperIndex.Proofs.Metrics.Nesting
import PaperIndex.Proofs.Metrics.Order
import PaperIndex.Proofs.Atomic
import PaperIndex.Proofs.Sync.Session
import PaperIndex.Proofs.Citations.Session
import PaperIndex.Proofs.Metrics.Session
import PaperIndex.Proofs.Failures
import PaperIndex.Proofs.Cache.Laws
import PaperIndex.Proofs.Cache.Mirror
import PaperIndex.Proofs.Cache.Scan
import PaperIndex.Proofs.Sync.Responder
import PaperIndex.Proofs.Sync.Agreement
import PaperIndex.Proofs.Sync.Sweep
import PaperIndex.Proofs.Sync.Writes
import PaperIndex.Proofs.Papers
import PaperIndex.Proofs.Citations.History
import PaperIndex.Proofs.Graph.CoCitation
import PaperIndex.Proofs.Graph.Listing
import PaperIndex.Proofs.Citations.Pages
import PaperIndex.Proofs.Citations.SharedCiters
import PaperIndex.Proofs.Citations.Deletion
import PaperIndex.Proofs.Citations.Agreement
import PaperIndex.Proofs.Citations.ClosedWorld
import PaperIndex.Proofs.Json.RoundTrip
import PaperIndex.Proofs.Record.RoundTrip
import PaperIndex.Proofs.Sync.Provenance
import PaperIndex.Proofs.Documents
import PaperIndex.Proofs.Sketch.Run
import PaperIndex.Proofs.Sync.Refresh
import PaperIndex.Proofs.Cache.Health
import PaperIndex.Proofs.Sorting
import PaperIndex.Proofs.Sync.Prediction
import PaperIndex.Proofs.Sync.SweepEffect
import PaperIndex.Proofs.Metrics.Ranking
import PaperIndex.Proofs.Metrics.Flush
import PaperIndex.Proofs.Retry
import PaperIndex.Proofs.Text.Trimming
import PaperIndex.Proofs.Sync.Endpoints
import PaperIndex.Proofs.Sync.Registry
import PaperIndex.Proofs.Sync.Ages
import PaperIndex.Proofs.RejectedUri
import PaperIndex.Proofs.Json.Fields
import PaperIndex.Proofs.Remote.Bodies
import PaperIndex.Proofs.Remote.Fetch
import PaperIndex.Proofs.Json.Values
import PaperIndex.Proofs.Record.Grammar
import PaperIndex.Proofs.Counter.Composition
import PaperIndex.Proofs.Counter.Expiry
import PaperIndex.Proofs.Metrics.ShortAnswers
import PaperIndex.Proofs.Counter.Registers
import PaperIndex.Proofs.Record.Uri
