/-
What the acts of a run do, one law for each: which result they give and what they leave of the world
around them. Writing a source replaces one file as a whole or nothing at all
(`Run.write_replaces_one_file`).
-/
import AlphaCodemod.Scan.Run
import AlphaCodemod.Proofs.FileSystem.Replace
import AlphaCodemod.Proofs.Text.Utf8

namespace AlphaCodemod

variable {ρ α β : Type}

/-- The text of the source that a path leads to, or why there is none. -/
def FileSystem.source (fs : FileSystem) (p : Path) : Except MigrationError (List Char) :=
  match fs.read p with
  | .error f => .error (.io p (.fileSystem f))
  | .ok content =>
    match Utf8.decode? content with
    | some cs => .ok cs
    | none => .error (.notText p)

theorem FileSystem.source_eq_ok_iff {fs : FileSystem} {p : Path} {cs : List Char} :
    fs.source p = .ok cs ↔ ∃ l mode, LeadsToFile fs p l (Utf8.encode cs) mode ∧ fs.mayRead mode = true := by
  unfold source
  constructor
  · intro h
    split at h
    · cases h
    rename_i content hread
    split at h
    · rename_i cs' hdecode
      obtain rfl := Except.ok.inj h
      obtain rfl := Utf8.decode?_eq_some_iff.1 hdecode
      exact read_eq_ok_iff.1 hread
    · cases h
  · intro h
    rw [read_eq_ok_iff.2 h]
    simp

/-- The error of a source names its path. -/
theorem FileSystem.source_error_cases {fs : FileSystem} {p : Path} {e : MigrationError} (h : fs.source p = .error e) :
    e = .notText p ∨ ∃ f, e = .io p (.fileSystem f) := by
  unfold source at h
  split at h
  · rename_i f _
    exact Or.inr ⟨f, (Except.error.inj h).symm⟩
  · split at h
    · cases h
    · exact Or.inl (Except.error.inj h).symm

/-- The world with one more action behind it. -/
def World.noting (w : World ρ) (a : Action) : World ρ := { w with actions := w.actions ++ [(w.context, a)] }

namespace Run

/-! ## Results -/

/-- What a run gives. -/
def result (r : Run ρ α) (w : World ρ) : Except MigrationError α :=
  match r.run w with
  | .ok a _ => .ok a
  | .error e _ => .error e

/-- The world that a run leaves, whether it fails or not. -/
def world (r : Run ρ α) (w : World ρ) : World ρ :=
  match r.run w with
  | .ok _ w' => w'
  | .error _ w' => w'

variable {r : Run ρ α} {f : α → Run ρ β} {w w' : World ρ} {a : α} {e : MigrationError}

theorem run_bind_ok (h : r.run w = .ok a w') : (r >>= f).run w = (f a).run w' := by rw [EStateM.run_bind, h]

theorem run_bind_error (h : r.run w = .error e w') : (r >>= f).run w = .error e w' := by rw [EStateM.run_bind, h]

theorem world_of_run_ok (h : r.run w = .ok a w') : r.world w = w' := by rw [world, h]

theorem world_of_run_error (h : r.run w = .error e w') : r.world w = w' := by rw [world, h]

theorem result_of_run_error (h : r.run w = .error e w') : r.result w = .error e := by rw [result, h]

/-- What follows a run starts from the world that this leaves, or does not start at all. -/
theorem world_bind (r : Run ρ α) (f : α → Run ρ β) (w : World ρ) :
    (∃ a, r.run w = .ok a (r.world w) ∧ (r >>= f).world w = (f a).world (r.world w) ∧
      (r >>= f).result w = (f a).result (r.world w)) ∨
    (∃ e, r.run w = .error e (r.world w) ∧ (r >>= f).world w = r.world w ∧ (r >>= f).result w = .error e) := by
  unfold world result
  rw [EStateM.run_bind]
  cases r.run w with
  | ok a w' => exact Or.inl ⟨a, rfl, rfl, rfl⟩
  | error e w' => exact Or.inr ⟨e, rfl, rfl, rfl⟩

/-! ## Acts -/

theorem run_within (activity : Activity) (r : Run ρ α) (w : World ρ) :
    (within activity r).run w =
      match r.run { w with context := w.context.enter activity } with
      | .ok a w' => .ok a { w' with context := w.context }
      | .error e w' => .error e { w' with context := w.context } := rfl

theorem world_within (activity : Activity) (r : Run ρ α) (w : World ρ) :
    (within activity r).world w =
      { r.world { w with context := w.context.enter activity } with context := w.context } := by
  unfold world
  rw [run_within]
  cases r.run { w with context := w.context.enter activity } <;> rfl

theorem result_within (activity : Activity) (r : Run ρ α) (w : World ρ) :
    (within activity r).result w = r.result { w with context := w.context.enter activity } := by
  unfold result
  rw [run_within]
  cases r.run { w with context := w.context.enter activity } <;> rfl

@[simp] theorem run_note (act : Action) (w : World ρ) : (note act).run w = .ok () (w.noting act) := rfl

@[simp] theorem run_files (w : World ρ) : files.run w = .ok w.files w := rfl

@[simp] theorem run_log (event : Log.Event) (w : World ρ) :
    (log event).run w = .ok () { w with log := w.log ++ [event] } := rfl

@[simp] theorem run_forM_log (events : α → Log.Event) (xs : List α) (w : World ρ) :
    (forM xs fun x => log (events x)).run w = .ok () { w with log := w.log ++ xs.map events } := by
  induction xs generalizing w with
  | nil => simp
  | cons x xs ih => simp [ih]

@[simp] theorem run_readSource (p : Path) (w : World ρ) :
    (readSource p).run w =
      match w.files.source p with
      | .ok cs => .ok cs (w.noting (.read p))
      | .error e => .error e (w.noting (.read p)) := by
  simp only [readSource, EStateM.run_bind, run_note, run_files, World.noting, FileSystem.source]
  cases w.files.read p with
  | error f => rfl
  | ok content =>
    dsimp only
    cases Utf8.decode? content <;> rfl

@[simp] theorem run_onFiles (work : FileSystem.Work α) (w : World ρ) :
    (onFiles work).run w =
      match work.run w.files with
      | .ok a fs => .ok a { w with files := fs }
      | .error f fs => .error (.io f.path (.fileSystem f.fault)) { w with files := fs } := rfl

@[simp] theorem run_writeSource (p : Path) (cs : List Char) (w : World ρ) :
    (writeSource p cs).run w =
      match (FileSystem.replace p (Utf8.encode cs)).run w.files with
      | .ok _ fs => .ok () { w.noting (.write p) with files := fs }
      | .error f fs => .error (.io f.path (.fileSystem f.fault)) { w.noting (.write p) with files := fs } := by
  have hfiles : (w.noting (.write p)).files = w.files := rfl
  rw [writeSource, run_bind_ok (run_note (.write p) w), run_onFiles, hfiles]
  cases (FileSystem.replace p (Utf8.encode cs)).run w.files <;> rfl

/-- A write changes one content, or it is refused and changes no file. -/
theorem writeSource_cases (p : Path) (cs : List Char) (w : World ρ) :
    (∃ l old mode, FileSystem.LeadsToFile w.files p l old mode ∧ w.files.IsWritable p ∧
      (writeSource p cs).run w =
        .ok () { w.noting (.write p) with files := w.files.withContent l (Utf8.encode cs) }) ∨
    ∃ f, w.files.Refusal p f ∧
      (writeSource p cs).run w = .error (.io f.path (.fileSystem f.fault)) (w.noting (.write p)) := by
  rw [run_writeSource]
  rcases FileSystem.replace_cases w.files p (Utf8.encode cs) with ⟨l, old, mode, hp, hw, hrun⟩ | ⟨f, hf, hrun⟩
  · exact Or.inl ⟨l, old, mode, hp, hw, by rw [hrun]⟩
  · exact Or.inr ⟨f, hf, by rw [hrun]; rfl⟩

@[simp] theorem run_tell (reporter : Reporter Cause ρ) (call : ReportCall) (w : World ρ) :
    (tell reporter call).run w =
      match (reporter call).run w.reporter with
      | .ok _ r => .ok () { w.noting (.report call) with reporter := r }
      | .error c r => .error (.report c) { w.noting (.report call) with reporter := r } := by
  refine (run_bind_ok (run_note (.report call) w)).trans ?_
  rfl

end Run
end AlphaCodemod
