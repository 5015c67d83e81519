import ZapretChecker.Pool.Stop
import ZapretChecker.Worker.Routing
import ZapretChecker.Worker.Verdict
import ZapretChecker.Graph.Expansion
import ZapretChecker.Graph.Filters
import ZapretChecker.Graph.Invariant
import ZapretChecker.Graph.Ids
import ZapretChecker.Queue.Leases
import ZapretChecker.Pool.Overshoot
import ZapretChecker.Worker.Cancellation
import ZapretChecker.Check.Baseline
import ZapretChecker.Isolation.Marks
import ZapretChecker.Worker.Classified
import ZapretChecker.Probe.Chunks
import ZapretChecker.Graph.Blobs
import ZapretChecker.Graph.Combinations
import ZapretChecker.Graph.Turns
import ZapretChecker.Probe.StatusLine
import ZapretChecker.Probe.Transfer
import ZapretChecker.Probe.Advance
import ZapretChecker.Probe.ReadBounds
import ZapretChecker.Target.Agree
import ZapretChecker.Firewall.Handle
import ZapretChecker.Queue.Stranded
import ZapretChecker.Graph.LocalOrdering
import ZapretChecker.Graph.Substitution
import ZapretChecker.Payload.Validated
