/-
Scans: the candidates below a root are edited one after the other, each before the next one is
looked at. The first error ends the scan.
-/
import AlphaCodemod.Scan.Options
import AlphaCodemod.Scan.Run
import AlphaCodemod.Source.Edits
import AlphaCodemod.Text.Quoted

namespace AlphaCodemod

variable {ρ : Type}

/-! ## Log events -/

namespace Log.Event

def skipping (p : Path) : Log.Event := ⟨.walk, .trace, "Skipping", [("path", p.display)]⟩

def scanning (o : ScanOptions) (candidates : Nat) : Log.Event :=
  ⟨.scan, .info, "Scanning",
    [("root", o.root.display), ("candidates", toString candidates),
      ("dry_run", if o.dryRun then "true" else "false")]⟩

def leaving (literal : List Char) : Log.Event :=
  ⟨.edit, .warn, "Leaving unparsable opacity literal unchanged",
    [("literal", String.ofList (quoted literal)), ("error", Binary64.refusal literal)]⟩

def replacing (p : Path) (r : Replacement) : Log.Event :=
  ⟨.scan, .debug, "withOpacity -> withAlpha",
    [("path", p.display), ("line", toString r.line), ("literal", String.ofList r.literal),
      ("alpha", toString r.alpha.val)]⟩

def edited (c : FileChange) : Log.Event :=
  ⟨.scan, .info, "Rewrote file", [("path", c.path.display), ("changes", toString c.changes)]⟩

def complete (s : Summary) : Log.Event :=
  ⟨.scan, .info, "Scan complete",
    [("scanned", toString s.filesScanned), ("changed", toString s.filesChanged),
      ("replacements", toString s.replacements)]⟩

end Log.Event

/-! ## Scans -/

/-- Edits one file and gives the number of changes. A file without changes is not written, nor is
any in a dry run. -/
def editFile (dryRun : Bool) (p : Path) : Run ρ Nat :=
  Run.within (.file p) do
    let edited := Source.edited (← Run.readSource p)
    edited.unread.forM fun literal => Run.log (.leaving literal)
    edited.replacements.forM fun r => Run.log (.replacing p r)
    if edited.count ≠ 0 && !dryRun then Run.writeSource p edited.content
    return edited.count

namespace ScanOptions

/-- The candidates; whatever else the walk meets is logged, also if it ends early. -/
def walk (o : ScanOptions) : Run ρ (List Path) := do
  Run.note (.walk o.root)
  let fs ← Run.files
  let walk := o.visited fs
  (walk.met.filter fun ns => !o.isCandidate fs ns).forM fun ns =>
    Run.log (.skipping (o.root.below ns))
  match walk.fault with
  | some e => throw (.io e.path (.fileSystem e.fault))
  | none => return o.candidatesAmong fs walk.met

/-- Edits a candidate, counts it, and tells the reporter if it has changes. -/
def visit (o : ScanOptions) (reporter : Reporter Cause ρ) (s : Summary) (p : Path) :
    Run ρ Summary := do
  let changes ← editFile o.dryRun p
  if changes ≠ 0 then
    Run.log (.edited ⟨p, changes⟩)
    Run.tell reporter (.fileChanged ⟨p, changes⟩)
  return s.record changes

/-- A whole scan: walk, edits, summary. -/
def scan (o : ScanOptions) (reporter : Reporter Cause ρ) : Run ρ Summary := do
  if !(← Run.files).isDirectory o.root then throw (.rootNotFound o.root)
  let found ← Run.within (.phase .fileDiscovery) o.walk
  Run.log (.scanning o found.length)
  let total ← Run.within (.phase .editing) (found.foldlM (o.visit reporter) {})
  Run.within (.phase .reporting) do
    Run.tell reporter (.finished total)
    Run.log (.complete total)
  return total

end ScanOptions
end AlphaCodemod
