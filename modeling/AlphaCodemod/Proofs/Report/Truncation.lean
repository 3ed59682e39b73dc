/-
A sink that runs full only cuts the report off (`consoleReporter_truncates`): whatever calls there have been, and
wherever in them the limit has been met, what it holds is the beginning of the report. Calls go on to fail from then
on, since every call brings something.
-/
import AlphaCodemod.Proofs.Scan.Telling

namespace AlphaCodemod

theorem Sink.exists_error_iff {k : Sink} {all : Bytes} {dryRun : Bool} {call : ReportCall} :
    (∃ fault k', (consoleReporter dryRun call).run (k.given all) = .error fault k') ↔
      k.exceeded (all ++ Program.lines (call.lines dryRun)) = true ∨ call.isLast = true ∧ k.flushFails = true := by
  rw [run_console]
  cases k.exceeded (all ++ Program.lines (call.lines dryRun)) <;> cases call.isLast <;> cases k.flushFails <;> simp

theorem ReportCall.isLast_iff {call : ReportCall} : call.isLast = true ↔ ∃ s, call = .finished s := by
  cases call <;> simp [isLast]

/-- After any calls, a sink with a limit holds the first bytes, up to the limit, of what a sink without one holds
after the same calls: the lines of these calls. The next call fails exactly if with its own lines there are more bytes
than the limit, or if it is the last one and flushing fails. -/
theorem consoleReporter_truncates (dryRun flushFails : Bool) (limit : Nat) (told : List ReportCall)
    (call : ReportCall) :
    let reporter := consoleReporter dryRun
    let limited := reporter.after { limit := some limit, flushFails := flushFails } told
    let unlimited := fun told => (reporter.after {} told).held
    unlimited told = Program.lines (told.flatMap (ReportCall.lines dryRun)) ∧
    limited.held = (unlimited told).take limit ∧
    ((∃ fault k, (reporter call).run limited = .error fault k) ↔
      limit < (unlimited (told ++ [call])).length ∨ (∃ s, call = .finished s) ∧ flushFails = true) := by
  intro reporter limited unlimited
  have hunlimited : ∀ told, unlimited told = Program.lines (told.flatMap (ReportCall.lines dryRun)) :=
    fun told => congrArg Sink.held (Sink.after_console {} [] dryRun told)
  have hlimited : limited = Sink.given { limit := some limit, flushFails := flushFails }
      (Program.lines (told.flatMap (ReportCall.lines dryRun))) := by
    have hempty : ({ limit := some limit, flushFails := flushFails } : Sink) =
        Sink.given { limit := some limit, flushFails := flushFails } [] := by
      simp [Sink.given, Sink.kept]
    show reporter.after { limit := some limit, flushFails := flushFails } told = _
    rw [hempty]
    exact Sink.after_console _ [] dryRun told
  refine ⟨hunlimited told, ?_, ?_⟩
  · rw [hunlimited, hlimited]
    rfl
  · rw [hunlimited, hlimited, Sink.exists_error_iff, ReportCall.isLast_iff, List.flatMap_append, List.flatMap_singleton,
      Program.lines_append]
    simp [Sink.exceeded]

end AlphaCodemod
