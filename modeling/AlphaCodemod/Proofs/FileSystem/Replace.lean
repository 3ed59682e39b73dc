/-
What a replacement does: the file that the path leads to has the new content, and that is all that has
changed; or a step fails, and nothing has (`replace_cases`). Until then every file is read as before
(`read_put_of_isVacant`), so that no part of a content is ever seen. A file is replaced if the caller may write it and
there is room for a temporary file beside it (`IsWritable`). Where that fails, the fault is that of the first
step that could not be taken, at the path by which it was tried (`Refusal`).
-/
import AlphaCodemod.Proofs.FileSystem.Temporary

namespace AlphaCodemod
namespace FileSystem

variable {fs fs' : FileSystem} {p : Path} {l : Location} {old content : Bytes} {mode : Nat}

/-! ## Looking at nodes -/

theorem find_eq_ok_iff {last : Bool} {n : Node} :
    fs.find last p = .ok n ↔ ∃ l, fs.resolve last p = .ok l ∧ fs.node? l = some n := by
  unfold find
  cases h : fs.resolve last p with
  | error f => simp [bind, Except.bind]
  | ok l =>
    cases hl : fs.node? l with
    | none => simp [bind, Except.bind, hl, throw, throwThe, MonadExceptOf.throw]
    | some m => simp [bind, Except.bind, hl, pure, Except.pure]

/-- The path leads to a file. -/
structure LeadsToFile (fs : FileSystem) (p : Path) (l : Location) (content : Bytes) (mode : Nat) : Prop where
  resolve : fs.resolve true p = .ok l
  node : fs.node? l = some (.file content mode)

theorem find_eq_file_iff : fs.find true p = .ok (.file content mode) ↔ ∃ l, LeadsToFile fs p l content mode := by
  rw [find_eq_ok_iff]
  exact ⟨fun ⟨l, h, hl⟩ => ⟨l, h, hl⟩, fun ⟨l, h⟩ => ⟨l, h.resolve, h.node⟩⟩

theorem read_of_leadsToFile (h : LeadsToFile fs p l content mode) :
    fs.read p = if fs.mayRead mode then .ok content else .error .permissionDenied := by
  unfold read
  rw [find_eq_file_iff.2 ⟨l, h⟩]
  rfl

theorem read_eq_ok_iff :
    fs.read p = .ok content ↔ ∃ l mode, LeadsToFile fs p l content mode ∧ fs.mayRead mode = true := by
  constructor
  · intro h
    cases hf : fs.find true p with
    | error f => simp [read, hf, bind, Except.bind] at h
    | ok n =>
      cases n with
      | directory => simp [read, hf, bind, Except.bind, throw, throwThe, MonadExceptOf.throw] at h
      | link t => simp [read, hf, bind, Except.bind, throw, throwThe, MonadExceptOf.throw] at h
      | file c mode =>
        obtain ⟨l, hl⟩ := find_eq_file_iff.1 hf
        rw [read_of_leadsToFile hl] at h
        split at h
        · rename_i hmay
          obtain rfl := Except.ok.inj h
          exact ⟨l, mode, hl, hmay⟩
        · cases h
  · rintro ⟨l, mode, h, hmay⟩
    rw [read_of_leadsToFile h, if_pos hmay]

/-- Files are read as ever while a temporary file is there, whatever it holds at the moment. -/
theorem read_put_of_isVacant {v : Location} {n : Node} (h : fs.IsVacant v) (hread : fs.read p = .ok content) :
    (fs.put v n).read p = .ok content := by
  obtain ⟨l, mode, hp, hmay⟩ := read_eq_ok_iff.1 hread
  refine read_eq_ok_iff.2 ⟨l, mode, ⟨h.resolve_put hp.resolve, h.node?_put_of_some hp.node⟩, ?_⟩
  rw [mayRead, privileged_put]
  exact hmay

/-- Why a file cannot be read does not depend on its content. -/
theorem read_withContents_of_error (f : Location → Bytes → Bytes) (h : ∀ content, fs.read p ≠ .ok content) :
    (fs.withContents f).read p = fs.read p := by
  unfold read find at h ⊢
  rw [resolve_withContents]
  cases hl : fs.resolve true p with
  | error e => rfl
  | ok l =>
    simp only [hl, bind, Except.bind, node?_withContents] at h ⊢
    cases hnode : fs.node? l with
    | none => rfl
    | some n =>
      cases n with
      | directory => rfl
      | link t => rfl
      | file content mode =>
        have hmay : fs.mayRead mode = false := by
          rw [← Bool.not_eq_true]
          intro hmay
          refine h content ?_
          simp only [hnode, pure, Except.pure, hmay, if_true]
        simp only [Option.map_some, Node.mapContent, pure, Except.pure, mayRead_withContents, hmay]
        rfl

/-! ## The place of a replacement -/

/-- A path with a canonical one leads to something, and the canonical path leads nowhere else. -/
theorem resolve_of_canonical {t : Path} (h : fs.canonical p = .ok t) :
    ∃ l m, t = .absolute l ∧ fs.resolve true p = .ok l ∧ fs.node? l = some m ∧ (∀ s, m ≠ .link s) ∧
      (isSpelled l = true ∨ m = .directory) := by
  unfold canonical at h
  cases hl : fs.lead true isSpelled p with
  | error f => simp [hl, bind, Except.bind] at h
  | ok l =>
    rw [hl] at h
    obtain rfl : Path.absolute l = t := Except.ok.inj h
    obtain ⟨hp, hleads⟩ := lead_eq_ok_iff.1 hl
    obtain ⟨m, hnode, hm, hspelled⟩ := hleads.ends
      (P := fun l => ∃ m, fs.node? l = some m ∧ (∀ s, m ≠ .link s) ∧ (isSpelled l = true ∨ m = .directory))
      (Path.names_ne_nil hp.nonempty)
      (fun l hl => ⟨_, hl, by simp, Or.inr rfl⟩)
      (fun l m hl hm hin => ⟨m, hl, hm, Or.inl hin⟩)
      (fun h => by cases h)
    exact ⟨l, m, rfl, lead_eq_ok_iff.2 ⟨hp, hleads.anywhere⟩, hnode, hm, hspelled⟩

theorem eq_of_resolve_canonical {t : Path} {l' : Location} (h : fs.canonical p = .ok t) (ht : fs.resolve true t = .ok l') :
    fs.resolve true p = .ok l' := by
  obtain ⟨l, m, rfl, hp, hnode, hm, -⟩ := resolve_of_canonical h
  have hshort := (lead_eq_ok_iff.1 ht).1.short
  have hl : fs.resolve true (.absolute l) = .ok l := resolve_absolute hnode hm (by simpa [isSpelled] using hshort)
  rw [hp, ← hl, ht]

/-- What is written is the path itself, which is no link, or its canonical path. -/
theorem target_cases {t : Path} (ht : fs.target p = .ok t) :
    (t = p ∧ ∀ s, fs.find false p ≠ .ok (.link s)) ∨ fs.canonical p = .ok t := by
  unfold target at ht
  cases hf : fs.find false p with
  | error f => simp [hf, bind, Except.bind] at ht
  | ok n =>
    rw [hf] at ht
    cases n with
    | link s => exact Or.inr ht
    | directory => exact Or.inl ⟨(Except.ok.inj ht).symm, by simp⟩
    | file => exact Or.inl ⟨(Except.ok.inj ht).symm, by simp⟩

/-- The path that is written leads to the same file. -/
theorem leadsToFile_target_iff {t : Path} (ht : fs.target p = .ok t) :
    LeadsToFile fs t l old mode ↔ LeadsToFile fs p l old mode := by
  rcases target_cases ht with ⟨rfl, -⟩ | hcanonical
  · rfl
  refine ⟨fun h => ⟨eq_of_resolve_canonical hcanonical h.resolve, h.node⟩, fun h => ⟨?_, h.node⟩⟩
  obtain ⟨l', m, rfl, hp, hnode, hm, hspelled⟩ := resolve_of_canonical hcanonical
  obtain rfl : l' = l := Except.ok.inj (hp.symm.trans h.resolve)
  have hfile : m ≠ .directory := by
    rintro rfl
    rw [h.node] at hnode
    cases hnode
  exact resolve_absolute hnode hm (hspelled.resolve_right hfile)

/-- The path that is written is no link, so that what is renamed to it takes the place of the file. -/
theorem resolve_false_of_target {t : Path} (ht : fs.target p = .ok t) (h : LeadsToFile fs t l old mode) :
    fs.resolve false t = .ok l := by
  rcases target_cases ht with ⟨rfl, hlink⟩ | hcanonical
  · obtain ⟨husable, hleads⟩ := lead_eq_ok_iff.1 h.resolve
    obtain ⟨k, hk, rfl | ⟨s, hs⟩⟩ := hleads.leave_last
    · exact lead_eq_ok_iff.2 ⟨husable, hk⟩
    · exact absurd (find_eq_ok_iff.2 ⟨k, lead_eq_ok_iff.2 ⟨husable, hk⟩, hs⟩) (hlink s)
  · obtain ⟨l', m, rfl, hp, hnode, hm, -⟩ := resolve_of_canonical hcanonical
    obtain rfl : l' = l := Except.ok.inj (hp.symm.trans (eq_of_resolve_canonical hcanonical h.resolve))
    have hshort := (lead_eq_ok_iff.1 h.resolve).1.short
    exact resolve_absolute hnode hm (by simpa [isSpelled] using hshort)

theorem openToWrite_of_leadsToFile (h : LeadsToFile fs p l old mode) :
    fs.openToWrite p = if fs.mayWrite mode then .ok ⟨l, mode⟩ else .error .permissionDenied := by
  unfold openToWrite
  rw [h.resolve]
  simp only [bind, Except.bind, h.node]
  rfl

theorem leadsToFile_of_openToWrite {file : Opened} (h : fs.openToWrite p = .ok file) :
    ∃ old, LeadsToFile fs p file.location old file.mode ∧ fs.mayWrite file.mode = true := by
  unfold openToWrite at h
  cases hl : fs.resolve true p with
  | error f => simp [hl, bind, Except.bind] at h
  | ok l =>
    simp only [hl, bind, Except.bind] at h
    split at h
    · rename_i old mode hnode
      split at h
      · rename_i hmay
        obtain rfl := Except.ok.inj h
        exact ⟨old, ⟨hl, hnode⟩, hmay⟩
      · cases h
    · cases h
    · cases h

/-! ## Replacements -/

/-- The file that the path leads to can be replaced: the caller may write it, there is room for a temporary
file in its directory, and the device has no trouble with it. -/
def IsWritable (fs : FileSystem) (p : Path) : Prop :=
  ∃ t l old mode temp, fs.target p = .ok t ∧ LeadsToFile fs p l old mode ∧ fs.mayWrite mode = true ∧
    fs.vacancy t.directory = .ok temp ∧ fs.device.troubles.lookup l = none

/-- Why a file cannot be replaced: the path that is to be written does not lead anywhere; the file there cannot
be opened for writing; there is no room for a temporary file in its directory; or the device has trouble with
the temporary file. Each fault is at the path by which the step was tried that failed. -/
inductive Refusal (fs : FileSystem) (p : Path) : FaultAt → Prop where
  | noTarget {f : Fault} (ht : fs.target p = .error f) : Refusal fs p ⟨p, f⟩
  | notOpened {t : Path} {f : Fault} (ht : fs.target p = .ok t) (hopen : fs.openToWrite t = .error f) :
    Refusal fs p ⟨t, f⟩
  | noRoom {t : Path} {file : Opened} {f : Fault} (ht : fs.target p = .ok t) (hopen : fs.openToWrite t = .ok file)
    (hroom : fs.vacancy t.directory = .error f) : Refusal fs p ⟨t.directory, f⟩
  | trouble {t : Path} {file : Opened} {temp : Temporary} {trouble : Trouble} (ht : fs.target p = .ok t)
    (hopen : fs.openToWrite t = .ok file) (hroom : fs.vacancy t.directory = .ok temp)
    (htrouble : fs.device.troubles.lookup file.location = some trouble) :
    Refusal fs p (trouble.faultAt t temp)

theorem not_isWritable_of_refusal {f : FaultAt} (h : fs.Refusal p f) : ¬ fs.IsWritable p := by
  rintro ⟨t, l, old, mode, temp, ht, hp, hmay, hroom, hnone⟩
  have hopen := openToWrite_of_leadsToFile ((leadsToFile_target_iff ht).2 hp)
  rw [if_pos hmay] at hopen
  cases h with
  | noTarget ht' => cases ht.symm.trans ht'
  | notOpened ht' hopen' =>
    obtain rfl := Except.ok.inj (ht.symm.trans ht')
    cases hopen.symm.trans hopen'
  | noRoom ht' _ hroom' =>
    obtain rfl := Except.ok.inj (ht.symm.trans ht')
    cases hroom.symm.trans hroom'
  | trouble ht' hopen' _ htrouble =>
    obtain rfl := Except.ok.inj (ht.symm.trans ht')
    obtain rfl := Except.ok.inj (hopen.symm.trans hopen')
    cases hnone.symm.trans htrouble

theorem run_supplant {t : Path} {file : Opened} {temp : Temporary} (ht : fs.resolve false t = .ok file.location)
    (hfile : fs.node? file.location = some (.file old file.mode)) (hroom : fs.vacancy t.directory = .ok temp)
    (htrouble : fs.device.troubles.lookup file.location = none) :
    (supplant t file content).run fs = .ok () (fs.withContent file.location content) := by
  unfold supplant
  rw [Work.run_bind_ok (EStateM.run_get fs), htrouble, Work.run_bind_ok (run_makeTemporary hroom (by simp)),
    Work.run_tryCatch, Temporary.run_install (isVacant_of_vacancy hroom) ht hfile]

/-- Trouble ends the work, and the temporary file is gone then, if it was there at all. -/
theorem run_supplant_of_trouble {t : Path} {file : Opened} {temp : Temporary} {trouble : Trouble}
    (hroom : fs.vacancy t.directory = .ok temp) (htrouble : fs.device.troubles.lookup file.location = some trouble) :
    (supplant t file content).run fs = .error (trouble.faultAt t temp) fs := by
  unfold supplant
  rw [Work.run_bind_ok (EStateM.run_get fs), htrouble]
  by_cases hmade : ∃ f, trouble = .making f
  · obtain ⟨f, rfl⟩ := hmade
    exact Work.run_bind_error (Work.run_ask_bind t.directory hroom)
  · have hvacant := isVacant_of_vacancy hroom
    obtain ⟨last, hrun⟩ :=
      Temporary.run_install_of_trouble hvacant (fun f hf => hmade ⟨f, hf⟩) content file.mode t
    have hmade' : ∀ f, some trouble ≠ some (.making f) := fun f hf => hmade ⟨f, Option.some.inj hf⟩
    rw [Work.run_bind_ok (run_makeTemporary hroom hmade'), Work.run_tryCatch, hrun]
    exact Work.run_bind_ok (Temporary.run_remove hvacant)

/-- A replacement is made and changes one content, or it is refused and changes nothing. -/
theorem replace_cases (fs : FileSystem) (p : Path) (content : Bytes) :
    (∃ l old mode, LeadsToFile fs p l old mode ∧ fs.IsWritable p ∧
      (replace p content).run fs = .ok () (fs.withContent l content)) ∨
    ∃ f, fs.Refusal p f ∧ (replace p content).run fs = .error f fs := by
  unfold replace
  cases ht : fs.target p with
  | error f => exact Or.inr ⟨_, .noTarget ht, Work.run_ask_bind_error p ht⟩
  | ok t =>
    rw [Work.run_ask_bind p ht]
    cases hopen : fs.openToWrite t with
    | error f => exact Or.inr ⟨_, .notOpened ht hopen, Work.run_ask_bind_error t hopen⟩
    | ok file =>
      rw [Work.run_ask_bind t hopen]
      obtain ⟨old, hfile, hmay⟩ := leadsToFile_of_openToWrite hopen
      cases hroom : fs.vacancy t.directory with
      | error f =>
        refine Or.inr ⟨_, .noRoom ht hopen hroom, (Work.run_bind_ok (EStateM.run_get fs)).trans ?_⟩
        exact Work.run_bind_error (Work.run_ask_bind_error t.directory hroom)
      | ok temp =>
        cases htrouble : fs.device.troubles.lookup file.location with
        | none =>
          have hp := (leadsToFile_target_iff ht).1 hfile
          refine Or.inl ⟨_, _, _, hp, ⟨t, _, _, _, temp, ht, hp, hmay, hroom, htrouble⟩, ?_⟩
          exact run_supplant (resolve_false_of_target ht hfile) hfile.node hroom htrouble
        | some trouble =>
          exact Or.inr ⟨_, .trouble ht hopen hroom htrouble, run_supplant_of_trouble hroom htrouble⟩

/-- A file `a` of one byte, and nothing else. -/
def loneFile (privileged : Bool) (device : Device) (mode : Nat) : FileSystem where
  privileged := privileged
  device := device
  entries := [([[97]], .file [49] mode)]
  nodup := by simp
  housed := by
    intro e he
    rw [List.mem_singleton.1 he]
    rfl

example : (replace ⟨[97]⟩ [50, 51]).run (loneFile false {} 0o444) =
    .error ⟨⟨[97]⟩, .permissionDenied⟩ (loneFile false {} 0o444) := rfl

-- the device is full after one byte: the temporary file in `/./` is named, and gone
example : (replace ⟨[97]⟩ [50, 51]).run (loneFile true { troubles := [([[97]], .filling 1 .noSpace)] } 0o644) =
    .error ⟨.absolute [Path.here, drawnName 0], .noSpace⟩
      (loneFile true { troubles := [([[97]], .filling 1 .noSpace)] } 0o644) := rfl

/-! ## Replacements of other contents -/

section

variable (fs) (f : Location → Bytes → Bytes)

@[simp] theorem target_withContents (p : Path) : (fs.withContents f).target p = fs.target p := by
  unfold target find
  rw [resolve_withContents, canonical_withContents]
  cases fs.resolve false p with
  | error e => rfl
  | ok l =>
    simp only [bind, Except.bind, node?_withContents]
    rcases fs.node? l with _ | _ | _ | _ <;> rfl

@[simp] theorem openToWrite_withContents (p : Path) : (fs.withContents f).openToWrite p = fs.openToWrite p := by
  unfold openToWrite
  rw [resolve_withContents]
  cases fs.resolve true p with
  | error e => rfl
  | ok l =>
    simp only [bind, Except.bind, node?_withContents]
    rcases fs.node? l with _ | _ | _ | _ <;> rfl

theorem freeNameIn?_withContents (l : Location) : (fs.withContents f).freeNameIn? l = fs.freeNameIn? l := by
  have htaken (n : Name) : ((fs.withContents f).node? (l ++ [n])).isSome = (fs.node? (l ++ [n])).isSome := by simp
  simp only [freeNameIn?, htaken, device_withContents]

@[simp] theorem vacancy_withContents (d : Path) : (fs.withContents f).vacancy d = fs.vacancy d := by
  have hroot : (fs.withContents f).fromRoot d = fs.fromRoot d := rfl
  have hdir (l : Location) : (fs.withContents f).node? l ≠ some .directory ↔ fs.node? l ≠ some .directory := by
    rw [node?_withContents]
    rcases fs.node? l with _ | _ | _ | _ <;> simp [Node.mapContent]
  unfold vacancy
  simp only [hroot, resolve_withContents, hdir, freeNameIn?_withContents]

end

theorem refusal_of_withContents {f : Location → Bytes → Bytes} {e : FaultAt} (h : (fs.withContents f).Refusal p e) :
    fs.Refusal p e := by
  cases h with
  | noTarget ht => exact .noTarget (by simpa using ht)
  | notOpened ht hopen => exact .notOpened (by simpa using ht) (by simpa using hopen)
  | noRoom ht hopen hroom => exact .noRoom (by simpa using ht) (by simpa using hopen) (by simpa using hroom)
  | trouble ht hopen hroom htrouble =>
    exact .trouble (by simpa using ht) (by simpa using hopen) (by simpa using hroom) htrouble

end FileSystem
end AlphaCodemod
