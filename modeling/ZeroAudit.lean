import ZeroAudit.Simulator.BankSim
import ZeroAudit.Lattice.Hiding
import ZeroAudit.Chain.Pipeline
import ZeroAudit.Chain.Soundness
import ZeroAudit.Chain.Walk
import ZeroAudit.Chain.Window
import ZeroAudit.Chain.Publication
import ZeroAudit.Chain.Blinding
import ZeroAudit.Chain.Atomicity
import ZeroAudit.Chain.Polling
import ZeroAudit.Durable.Tables
import ZeroAudit.Durable.HeadCoverage
import ZeroAudit.Durable.Concurrency
import ZeroAudit.Durable.Redelivery
import ZeroAudit.Durable.Tiers
import ZeroAudit.Durable.Phantoms
import ZeroAudit.Durable.StatusCounts
import ZeroAudit.Verifier.Injection
import ZeroAudit.Verifier.Opening
import ZeroAudit.Verifier.Exposure
import ZeroAudit.Verifier.Edits
import ZeroAudit.Verifier.Replay
import ZeroAudit.Verifier.Malformed
import ZeroAudit.Verifier.Quarantine
import ZeroAudit.Verifier.Verdicts
import ZeroAudit.Verifier.Stream
import ZeroAudit.Verifier.Alerts
import ZeroAudit.Verifier.Resolutions
import ZeroAudit.Verifier.Sidebar
import ZeroAudit.Intent.Decisions
import ZeroAudit.Intent.Traces
import ZeroAudit.Intent.Velocity
import ZeroAudit.Intent.Risk
import ZeroAudit.Intent.ScoreMap
import ZeroAudit.Lattice.Binding
import ZeroAudit.Training.RocAuc
import ZeroAudit.Training.Backpropagation
import ZeroAudit.Verifier.Charts
import ZeroAudit.Durable.Scan
import ZeroAudit.Training.TrainingRun
import ZeroAudit.Training.Evaluation
import ZeroAudit.Simulator.Anomalies
import ZeroAudit.Verifier.ConsumeLoop
import ZeroAudit.Durable.Identity
