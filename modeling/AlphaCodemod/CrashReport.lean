/-
The report of a crash: what went wrong, and what the run was doing. The lines with the time and the
place of the crash belong to the moment and are not part of it.
-/
import AlphaCodemod.Activity
import AlphaCodemod.Identity

namespace AlphaCodemod

namespace CrashReport

def rule : String := String.ofList (List.replicate 80 '═')

/-- What the context says about the run. -/
def contextLines (c : Context) : List String :=
  (match c.phase with
    | some p => "Phase: " ++ p.name
    | none => "Phase: (not set - crash occurred before scanning started)") ::
  match c.file with
  | some p => ["File: " ++ p.display,
      "This file may have been left unmodified; verify it before rerunning."]
  | none => []

/-- How the report ends: with a stack trace, or a hint how to get one. -/
inductive Trace where
  | hint
  | disabled
deriving DecidableEq, Repr

def Trace.line : Trace → String
  | .hint => "Run with RUST_BACKTRACE=1 for stack trace"
  | .disabled => "disabled backtrace"

/-- The lines of the report; a crash without a message of its own is unknown. -/
def lines (platform : String) (c : Context) (message : Option String) (trace : Trace) :
    List String :=
  ["", rule, "OPACITY-MIGRATE CRASH REPORT", "  Version:  " ++ programVersion,
    "  Platform: " ++ platform, rule, "  PANIC: " ++ message.getD "Unknown panic"] ++
  (contextLines c).map ("  " ++ ·) ++ [rule, trace.line]

def text (platform : String) (c : Context) (message : Option String) (trace : Trace) : String :=
  String.join ((lines platform c message trace).map (· ++ "\n"))

end CrashReport
end AlphaCodemod
