/-
What a migration is doing at each moment. Every action takes place in the context where it belongs, no file is
changed and no call is made but by an action, and at the end, be it good or bad, the context is empty again
(`Migration.context_follows_the_run`).
-/
import AlphaCodemod.Proofs.Migration
import AlphaCodemod.Proofs.Scan.Telling

namespace AlphaCodemod

variable {ρ α β : Type}

/-! ## Traces -/

/-- The second world comes from the first by actions that all take place where they belong. The context is again
what it was, paths lead where they led, and only files that are written have changed. -/
structure World.Traced (w : World ρ) (done : List (Context × Action)) (w' : World ρ) : Prop where
  actions : w'.actions = w.actions ++ done
  context : w'.context = w.context
  placed : ∀ d ∈ done, d.1 = d.2.place
  resolve : ∀ p, w'.files.resolve true p = w.files.resolve true p
  written : ∀ l, w'.files.node? l ≠ w.files.node? l → ∃ p ∈ writes done, w.files.resolve true p = .ok l

namespace World.Traced

variable {w w' w'' : World ρ} {done more : List (Context × Action)}

theorem of_files_eq (hactions : w'.actions = w.actions ++ done) (hcontext : w'.context = w.context)
    (hplaced : ∀ d ∈ done, d.1 = d.2.place) (hfiles : w'.files = w.files) : w.Traced done w' where
  actions := hactions
  context := hcontext
  placed := hplaced
  resolve := fun _ => by rw [hfiles]
  written := fun _ h => absurd (by rw [hfiles]) h

theorem refl (w : World ρ) : w.Traced [] w := of_files_eq (List.append_nil _).symm rfl (by simp) rfl

theorem trans (h : w.Traced done w') (h' : w'.Traced more w'') : w.Traced (done ++ more) w'' where
  actions := by rw [h'.actions, h.actions, List.append_assoc]
  context := h'.context.trans h.context
  placed := by
    intro d hd
    rcases List.mem_append.1 hd with hd | hd
    · exact h.placed d hd
    · exact h'.placed d hd
  resolve := fun p => (h'.resolve p).trans (h.resolve p)
  written := by
    intro l hl
    rw [writes_append]
    by_cases hfirst : w'.files.node? l = w.files.node? l
    · obtain ⟨p, hp, hresolve⟩ := h'.written l (hfirst ▸ hl)
      exact ⟨p, List.mem_append_right _ hp, (h.resolve p).symm.trans hresolve⟩
    · obtain ⟨p, hp, hresolve⟩ := h.written l hfirst
      exact ⟨p, List.mem_append_left _ hp, hresolve⟩

end World.Traced

namespace Run

/-- A run that starts in a context does all it does where it belongs, and leaves the context as it was. -/
def Traces (c : Context) (act : Run ρ α) : Prop := ∀ w : World ρ, w.context = c → ∃ done, w.Traced done (act.world w)

variable {reporter : Reporter Cause ρ} {c : Context} {act : Run ρ α} {f : α → Run ρ β}

theorem traces_note {a : Action} (hc : c = a.place) : Traces c (note a : Run ρ Unit) := by
  intro w hw
  refine ⟨[(w.context, a)], World.Traced.of_files_eq rfl rfl ?_ rfl⟩
  simp [hw, hc]

theorem traces_writeSource {p : Path} (cs : List Char) (hc : c = (Action.write p).place) :
    Traces c (writeSource p cs : Run ρ Unit) := by
  intro w hw
  have hplaced : ∀ d ∈ [(w.context, Action.write p)], d.1 = d.2.place := by simp [hw, hc]
  refine ⟨[(w.context, .write p)], ?_⟩
  rcases writeSource_cases p cs w with ⟨l, old, mode, hp, -, hrun⟩ | ⟨f, -, hrun⟩
  · rw [world_of_run_ok hrun]
    refine ⟨rfl, rfl, hplaced, fun q => FileSystem.resolve_withContent _ l _ true q, ?_⟩
    -- the one file that has changed is where the path leads
    intro k hk
    by_cases hkl : k = l
    · exact ⟨p, List.mem_singleton.2 rfl, hkl ▸ hp.resolve⟩
    · exact absurd (FileSystem.node?_withContent_of_ne _ _ hkl) hk
  · rw [world_of_run_error hrun]
    exact World.Traced.of_files_eq rfl rfl hplaced rfl

theorem traces_tell {call : ReportCall} (hc : c = (Action.report call).place) : Traces c (tell reporter call) := by
  intro w hw
  have hplaced : ∀ d ∈ [(w.context, Action.report call)], d.1 = d.2.place := by simp [hw, hc]
  refine ⟨[(w.context, .report call)], ?_⟩
  rw [world, run_tell]
  cases (reporter call).run w.reporter <;> exact World.Traced.of_files_eq rfl rfl hplaced rfl

theorem Traces.bind (h : Traces c act) (hf : ∀ a, Traces c (f a)) : Traces c (act >>= f) := by
  intro w hw
  obtain ⟨done, hdone⟩ := h w hw
  rcases world_bind act f w with ⟨a, -, hworld, -⟩ | ⟨e, -, hworld, -⟩
  · obtain ⟨more, hmore⟩ := hf a (act.world w) (hdone.context.trans hw)
    rw [hworld]
    exact ⟨_, hdone.trans hmore⟩
  · rw [hworld]
    exact ⟨_, hdone⟩

theorem Traces.within {activity : Activity} (h : Traces (c.enter activity) act) : Traces c (within activity act) := by
  intro w hw
  obtain ⟨done, hdone⟩ := h { w with context := w.context.enter activity } (by rw [hw])
  rw [world_within]
  exact ⟨done, hdone.actions, rfl, hdone.placed, hdone.resolve, hdone.written⟩

theorem law_traces (reporter : Reporter Cause ρ) : Law reporter fun c _ act => Traces c act where
  pure := fun _ w _ => ⟨[], World.Traced.refl w⟩
  throw := fun _ w _ => ⟨[], World.Traced.refl w⟩
  bind := Traces.bind
  within := fun _ => Traces.within
  files := fun w _ => ⟨[], World.Traced.refl w⟩
  log := fun _ _ _ => ⟨[], World.Traced.of_files_eq (List.append_nil _).symm rfl (by simp) rfl⟩
  note := fun _ => traces_note
  writeSource := traces_writeSource
  tell := traces_tell

end Run

/-! ## Migrations -/

namespace Migration

variable {m : Migration} {reporter : Reporter Cause ρ} {w w' : World ρ} {total : Summary}

theorem root_of_options {s : Settings} {o : ScanOptions} (h : m.options s = .ok o) : o.root = m.root := by
  unfold options at h
  cases hpatterns : s.patterns with
  | error f =>
    rw [hpatterns] at h
    cases h
  | ok gs =>
    rw [hpatterns] at h
    obtain rfl := Except.ok.inj h
    rfl

/-- A migration that ends well has read and checked its settings, then walked, then come to each candidate, and
has told of the summary last. -/
theorem actions_of_ok (h : (m.run reporter).run w = .ok total w') :
    ∃ s o ps visits, m.options s = .ok o ∧ o.candidates w.files = .ok ps ∧ visits.filterMap Action.readPath? = ps ∧
      w'.actions.map (·.2) = w.actions.map (·.2) ++
        ([.readSettings m.settingsPath, .checkSettings s, .walk m.root] ++ visits ++ [.report (.finished total)]) := by
  obtain ⟨e | o, hsettlement⟩ := m.exists_settlement w.files
  · obtain ⟨w1, hsettle, -⟩ := settle_of_error hsettlement
    cases (Run.run_bind_error hsettle).symm.trans h
  · obtain ⟨s, w1, hsettle, hoptions, hprepared⟩ := settle_of_scan hsettlement
    rw [run, Run.run_bind_ok hsettle, hoptions] at h
    have hexit := ScanOptions.exit_scan o reporter w1
    rw [h] at hexit
    cases hexit with
    | @complete ps r _ _ hfound _ hafter =>
      rw [hprepared.files] at hfound hafter
      refine ⟨s, o, ps, (o.deedsOf (w1.context.enter (.phase .editing)) w.files ps).map (·.2), hoptions, hfound, ?_, ?_⟩
      · rw [List.filterMap_map]
        exact ScanOptions.reads_deedsOf _ o w.files ps
      · rw [hafter.actions, hprepared.actions, ScanOptions.deedsUpTo, root_of_options hoptions]
        simp [hprepared.files]

/-- Settings are read and checked in the phase of configuration, and the walk is in that of discovery, both without
a file in hand. A source is read and written in the phase of editing with that source in hand; the reporter is told
of it without one, and of the summary in the phase of reporting. No change of a file and no call to the reporter is
missing among the actions, nor, if the migration ends well, its settings, its walk and the reading of a candidate.
At the end, good or bad, there is neither phase nor file. -/
theorem context_follows_the_run (m : Migration) (reporter : Reporter Cause ρ) (fs : FileSystem) (r : ρ) :
    let w : World ρ := { files := fs, reporter := r }
    let w' := (m.run reporter).world w
    w'.context = {} ∧
    (∀ c a, (c, a) ∈ w'.actions → c = a.place) ∧
    (∀ l, w'.files.node? l ≠ fs.node? l → ∃ p ∈ writes w'.actions, fs.resolve true p = .ok l) ∧
    w'.reporter = reporter.after r (calls w'.actions) ∧
    ∀ total, (m.run reporter).run w = .ok total w' →
      ∃ s o ps visits, m.options s = .ok o ∧ o.candidates fs = .ok ps ∧ visits.filterMap Action.readPath? = ps ∧
        w'.actions.map (·.2) =
          [.readSettings m.settingsPath, .checkSettings s, .walk m.root] ++ visits ++ [.report (.finished total)] := by
  intro w w'
  obtain ⟨done, hdone⟩ := (Run.law_traces reporter).migration m w rfl
  obtain ⟨told, htold, hreporter⟩ := Run.law_relays.migration m w
  obtain rfl : w'.actions = done := hdone.actions
  obtain rfl : w'.actions = told := htold
  exact ⟨hdone.context, fun c a h => hdone.placed (c, a) h, hdone.written, hreporter, fun total h => actions_of_ok h⟩

end Migration
end AlphaCodemod
