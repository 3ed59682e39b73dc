/-
Laws of runs. A scan, and a migration as well, is made of a few acts, one behind the other and some of them
under a change of the context. What holds of these acts, each in the context where it belongs, and is kept when
runs are put together, holds of the whole (`Run.Law.scan`, `Run.Law.migration`).
-/
import AlphaCodemod.Migration
import AlphaCodemod.Proofs.Scan.Exits

namespace AlphaCodemod

variable {ρ α β : Type}

/-- The context in which an action belongs, where a run starts from none. -/
def Action.place : Action → Context
  | .readSettings _ => { phase := some .configuration }
  | .checkSettings _ => { phase := some .configuration }
  | .walk _ => { phase := some .fileDiscovery }
  | .read p => { phase := some .editing, file := some p }
  | .write p => { phase := some .editing, file := some p }
  | .report (.fileChanged _) => { phase := some .editing }
  | .report (.finished _) => { phase := some .reporting }

namespace Run

/-- A law about the runs that start in a context: it is kept when runs are put together, and holds of each act
in the context where it belongs. -/
structure Law (reporter : Reporter Cause ρ) (P : Context → ∀ α : Type, Run ρ α → Prop) : Prop where
  pure : ∀ {c : Context} {α : Type} (a : α), P c α (pure a)
  throw : ∀ {c : Context} {α : Type} {e : MigrationError}, (∀ cause, e ≠ .report cause) → P c α (throw e)
  bind : ∀ {c : Context} {α β : Type} {act : Run ρ α} {f : α → Run ρ β},
    P c α act → (∀ a, P c β (f a)) → P c β (act >>= f)
  within : ∀ {c : Context} {α : Type} {act : Run ρ α} (a : Activity), P (c.enter a) α act → P c α (within a act)
  files : ∀ {c : Context}, P c FileSystem files
  log : ∀ {c : Context} (event : Log.Event), P c Unit (log event)
  note : ∀ {c : Context} {a : Action}, a.call? = none → c = a.place → P c Unit (note a)
  writeSource : ∀ {c : Context} {p : Path} (cs : List Char), c = (Action.write p).place → P c Unit (writeSource p cs)
  tell : ∀ {c : Context} {call : ReportCall}, c = (Action.report call).place → P c Unit (tell reporter call)

namespace Law

variable {reporter : Reporter Cause ρ} {P : Context → ∀ α : Type, Run ρ α → Prop} {c : Context}

/-! ## Repeated acts -/

theorem forM (h : Law reporter P) {act : β → Run ρ Unit} (hact : ∀ b, P c Unit (act b)) (xs : List β) :
    P c Unit (xs.forM act) := by
  rw [List.forM_eq_forM]
  induction xs with
  | nil => exact h.pure ()
  | cons x xs ih =>
    rw [List.forM_cons]
    exact h.bind (hact x) fun _ => ih

theorem foldlM (h : Law reporter P) {step : β → α → Run ρ β} (hstep : ∀ b a, P c β (step b a)) (xs : List α) (b : β) :
    P c β (xs.foldlM step b) := by
  induction xs generalizing b with
  | nil => exact h.pure b
  | cons x xs ih =>
    rw [List.foldlM_cons]
    exact h.bind (hstep b x) ih

/-! ## Scans -/

theorem readSource (h : Law reporter P) {p : Path} (hc : c = (Action.read p).place) :
    P c (List Char) (Run.readSource p) := by
  apply h.bind (h.note rfl hc)
  intro _
  apply h.bind h.files
  intro fs
  split
  · exact h.throw nofun
  · split
    · exact h.pure _
    · exact h.throw nofun

theorem editFile (h : Law reporter P) (dryRun : Bool) (p : Path) :
    P { phase := some .editing } Nat (editFile dryRun p) := by
  apply h.within
  apply h.bind (h.readSource rfl)
  intro cs
  apply h.bind (h.forM (fun _ => h.log _) _)
  intro _
  apply h.bind (h.forM (fun _ => h.log _) _)
  intro _
  split
  · exact h.bind (h.writeSource _ rfl) fun _ => h.pure _
  · exact h.pure _

theorem walk (h : Law reporter P) (o : ScanOptions) : P { phase := some .fileDiscovery } (List Path) o.walk := by
  apply h.bind
  · exact h.note rfl rfl
  intro _
  apply h.bind h.files
  intro fs
  apply h.bind (h.forM (fun _ => h.log _) _)
  intro _
  split
  · exact h.throw nofun
  · exact h.pure _

theorem visit (h : Law reporter P) (o : ScanOptions) (s : Summary) (p : Path) :
    P { phase := some .editing } Summary (o.visit reporter s p) := by
  apply h.bind (h.editFile o.dryRun p)
  intro changes
  split
  · apply h.bind (h.log _)
    intro _
    exact h.bind (h.tell rfl) fun _ => h.pure _
  · exact h.pure _

theorem scan (h : Law reporter P) (o : ScanOptions) : P {} Summary (o.scan reporter) := by
  apply h.bind h.files
  intro fs
  split
  · exact h.throw nofun
  apply h.bind
  · exact h.within _ (h.walk o)
  intro found
  apply h.bind (h.log _)
  intro _
  apply h.bind
  · exact h.within _ (h.foldlM (h.visit o) found {})
  intro total
  apply h.bind
  · exact h.within _ (h.bind (h.tell rfl) fun _ => h.log _)
  intro _
  exact h.pure _

/-! ## Migrations -/

theorem loadOr (h : Law reporter P) {absent : Run ρ Settings}
    (habsent : P { phase := some .configuration } Settings absent) (p : Path) :
    P { phase := some .configuration } Settings (Settings.loadOr absent p) := by
  apply h.bind
  · exact h.note rfl rfl
  intro _
  apply h.bind h.files
  intro fs
  split
  · exact habsent
  · exact h.throw nofun
  · split
    · exact h.throw nofun
    · exact h.bind (h.log _) fun _ => h.pure _

theorem base (h : Law reporter P) (m : Migration) : P { phase := some .configuration } Settings m.base := by
  unfold Migration.base
  split
  · apply h.loadOr
    exact h.throw nofun
  · apply h.loadOr
    exact h.bind (h.log _) fun _ => h.pure _

theorem settle (h : Law reporter P) (m : Migration) : P {} Settings m.settle := by
  apply h.within
  apply h.bind h.files
  intro fs
  split
  · exact h.throw nofun
  apply h.bind (h.base m)
  intro s
  apply h.bind
  · exact h.note rfl rfl
  intro _
  split
  · exact h.pure _
  · exact h.throw nofun

theorem migration (h : Law reporter P) (m : Migration) : P {} Summary (m.run reporter) := by
  apply h.bind (h.settle m)
  intro s
  split
  · exact h.scan _
  · exact h.throw nofun

end Law
end Run
end AlphaCodemod
