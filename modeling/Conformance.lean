import Conformance.Main
import Conformance.Proofs.Catalog.KeptArtifacts
import Conformance.Proofs.Fixture.Confinement
import Conformance.Proofs.Fixture.Protocol
import Conformance.Proofs.Log.VerdictLines
import Conformance.Proofs.Verdict.Passing
import Conformance.Proofs.Catalog.Account
import Conformance.Proofs.Catalog.Totals
import Conformance.Proofs.Json.RoundTrip
import Conformance.Proofs.Text.Lines
import Conformance.Proofs.Text.Utf8
import Conformance.Proofs.Log.EntryLines
import Conformance.Proofs.Log.BookEntries
import Conformance.Proofs.Catalog.Logged
import Conformance.Proofs.Digest.Streaming
import Conformance.Proofs.Files.Writing
import Conformance.Proofs.CommandLine.Performing
import Conformance.Proofs.CommandLine.Indexing
import Conformance.Proofs.Process.CaptureLimit
import Conformance.Proofs.Verdict.Flooding
import Conformance.Proofs.CommandLine.Refusing
import Conformance.Proofs.Catalog.Isolation
import Conformance.Proofs.Catalog.Interruption
import Conformance.Proofs.Catalog.RoundTrip
import Conformance.Proofs.Config.RoundTrip
import Conformance.Proofs.Report.RoundTrip
import Conformance.Proofs.Log.Emitting
import Conformance.Proofs.Config.Anchoring
import Conformance.Proofs.CommandLine.Overriding
import Conformance.Proofs.Report.Totals
import Conformance.Proofs.CommandLine.Completing
import Conformance.Proofs.CommandLine.Succeeding
import Conformance.Proofs.Reporter.Counting
import Conformance.Proofs.Verdict.Texts
import Conformance.Proofs.Log.Joining
import Conformance.Proofs.Process.Terminal
import Conformance.Proofs.Machine.Slicing
import Conformance.Proofs.Machine.Polling
import Conformance.Proofs.Catalog.FirstFlaw
import Conformance.Proofs.Calendar.Timestamps
import Conformance.Proofs.Process.CaptureTails
import Conformance.Proofs.Report.Fences
import Conformance.Proofs.Fixture.AssemblyNames
import Conformance.Proofs.Digest.Conforming
import Conformance.Proofs.Machine.Promptness
