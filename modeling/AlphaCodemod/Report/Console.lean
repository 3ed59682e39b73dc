/-
The console report: the two calls by which a run reports, and their text on a sink. A call ends at
its first failed write; flushing comes last.
-/
import AlphaCodemod.Report.Summary
import AlphaCodemod.Report.Sink

namespace AlphaCodemod

/-- One call to whoever is told about a run. -/
inductive ReportCall where
  | fileChanged (change : FileChange)
  | finished (summary : Summary)
deriving DecidableEq, Repr

/-- The lines of a call, in order. -/
def ReportCall.lines (dryRun : Bool) : ReportCall → List String
  | .fileChanged change => [change.line dryRun]
  | .finished summary =>
    ["", summary.line] ++ if dryRun then [Summary.dryRunNotice] else []

/-- Whoever is told about a run, with a state `ρ` of its own and faults `φ`. -/
abbrev Reporter (φ ρ : Type) := ReportCall → EStateM φ ρ Unit

/-- The same reporter with its faults named anew. -/
def Reporter.withFaults {φ ψ ρ : Type} (r : Reporter φ ρ) (f : φ → ψ) : Reporter ψ ρ :=
  fun call => (r call).adaptExcept f

/-- The reporter that prints to a sink, and flushes it at the end. -/
def consoleReporter (dryRun : Bool) : Reporter SinkFault Sink := fun call => do
  (call.lines dryRun).forM Sink.writeLine
  match call with
  | .fileChanged _ => pure ()
  | .finished _ => Sink.flush

end AlphaCodemod
