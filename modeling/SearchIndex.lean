import SearchIndex.Definition.Lint
import SearchIndex.Json.Reader
import SearchIndex.Main
import SearchIndex.Proofs.Aggregation.Conformance
import SearchIndex.Proofs.Aggregation.DocumentedInterval
import SearchIndex.Proofs.Aggregation.Ranges
import SearchIndex.Proofs.Search.Registry
import SearchIndex.Proofs.Aggregation.Statistics
import SearchIndex.Proofs.Aggregation.Written
import SearchIndex.Proofs.CommandLine.Lint
import SearchIndex.Proofs.Definition.Descent
import SearchIndex.Proofs.Definition.Lint
import SearchIndex.Proofs.Definition.Registration
import SearchIndex.Proofs.Definition.Rendering
import SearchIndex.Proofs.Definition.Resolution
import SearchIndex.Proofs.Definition.Same
import SearchIndex.Proofs.Definition.Session
import SearchIndex.Proofs.Definition.Typing
import SearchIndex.Proofs.Formatter
import SearchIndex.Proofs.Options.Document
import SearchIndex.Proofs.Options.Session
import SearchIndex.Proofs.Schema.Acceptance
import SearchIndex.Proofs.Schema.Inference
import SearchIndex.Proofs.Schema.Listing
import SearchIndex.Proofs.Schema.Reading
import SearchIndex.Proofs.Search.Acceptance
import SearchIndex.Proofs.Search.Alike
import SearchIndex.Proofs.Search.Enclosure
import SearchIndex.Proofs.Search.Footprint
import SearchIndex.Proofs.Search.Formatting
import SearchIndex.Proofs.TimeZone
import SearchIndex.Search
