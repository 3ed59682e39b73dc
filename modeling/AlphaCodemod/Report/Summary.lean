/-
What a run tells: one line for each file with changes, and a summary at the end.
-/
import AlphaCodemod.Path

namespace AlphaCodemod

/-- A file with the number of calls replaced in it. -/
structure FileChange where
  path : Path
  changes : Nat
deriving DecidableEq, Repr

/-- The line of a changed file; a dry run says so first. -/
def FileChange.line (dryRun : Bool) (c : FileChange) : String :=
  (if dryRun then "[DRY RUN] " else "") ++ "Updated " ++ c.path.display ++ " (" ++
    toString c.changes ++ " changes)"

/-- The totals of a run. -/
structure Summary where
  filesScanned : Nat := 0
  filesChanged : Nat := 0
  replacements : Nat := 0
deriving DecidableEq, Repr

namespace Summary

/-- Counts one more file, with the given number of changes in it. -/
def record (s : Summary) (changes : Nat) : Summary :=
  { filesScanned := s.filesScanned + 1
    filesChanged := if changes = 0 then s.filesChanged else s.filesChanged + 1
    replacements := s.replacements + changes }

def line (s : Summary) : String :=
  "Summary: " ++ toString s.filesChanged ++ " files changed, " ++ toString s.replacements ++
    " replacements."

/-- The last line of a dry run. -/
def dryRunNotice : String := "Dry run mode: No files were actually modified."

end Summary
end AlphaCodemod
