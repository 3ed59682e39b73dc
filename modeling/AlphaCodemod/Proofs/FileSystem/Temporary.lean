/-
A temporary file stands at a location that was free, and nothing else changes while it is made, filled and
given a mode (`run_makeTemporary`, `Temporary.run_fill`, `Temporary.run_grant`). So it leaves no trace: where
it is removed, the file system is the first one again (`Temporary.run_remove`), and where it is renamed, the
first one with one other content (`Temporary.run_moveTo`).
-/
import AlphaCodemod.FileSystem.Replace
import AlphaCodemod.Proofs.FileSystem.Contents
import AlphaCodemod.Proofs.FileSystem.Resolve

namespace AlphaCodemod
namespace FileSystem

variable {fs fs' : FileSystem} {p : Path} {l k v : Location} {n m : Node} {old content : Bytes} {mode : Nat}

/-! ## Nodes that are put at a location -/

@[simp] theorem cwd_put : (fs.put l n).cwd = fs.cwd := by
  unfold put
  split <;> rfl

@[simp] theorem privileged_put : (fs.put l n).privileged = fs.privileged := by
  unfold put
  split <;> rfl

@[simp] theorem device_put : (fs.put l n).device = fs.device := by
  unfold put
  split <;> rfl

theorem node?_put (h : fs.admits l n = true) : (fs.put l n).node? k = if k = l then some n else fs.node? k := by
  have hl : l ≠ [] := by
    simp only [admits, Bool.and_eq_true] at h
    exact ne_nil_of_isHoused h.1
  unfold put
  rw [dif_pos h]
  exact nodeAmong_setAmong hl

theorem put_file (h : fs.node? l = some (.file old mode)) : fs.put l (.file content mode) = fs.withContent l content := by
  have hl : l ≠ [] := by
    rintro rfl
    cases h
  have hlookup : fs.entries.lookup l = some (.file old mode) := (node?_eq_lookup hl).symm.trans h
  have hadmits : fs.admits l (.file content mode) = true := by
    simp [admits, h, fs.housed _ (mem_of_lookup hlookup)]
  unfold put
  rw [dif_pos hadmits]
  refine eq_of_entries rfl rfl rfl ?_
  simp only [setAmong, hlookup, Option.isSome_some, if_true, withContent, withContents]
  refine List.map_congr_left ?_
  rintro ⟨k, n⟩ he
  by_cases hk : k = l
  · subst hk
    obtain rfl : n = .file old mode := Option.some.inj ((node?_of_mem he).symm.trans h)
    simp [Node.mapContent]
  · cases n <;> simp [hk, Node.mapContent]

theorem erase_withContents (f : Location → Bytes → Bytes) : (fs.withContents f).erase v = (fs.erase v).withContents f := by
  refine eq_of_entries rfl rfl rfl ?_
  simp only [erase, withContents, List.filter_map]
  rfl

/-! ## Free locations -/

/-- There is nothing at the location, but a file could be. -/
structure IsVacant (fs : FileSystem) (v : Location) : Prop where
  empty : fs.node? v = none
  housed : isHoused fs.entries v = true

namespace IsVacant

variable (h : fs.IsVacant v)
include h

theorem admits : fs.admits v n = true := by simp [FileSystem.admits, h.housed, h.empty]

theorem node?_put_self : (fs.put v n).node? v = some n := by rw [node?_put h.admits, if_pos rfl]

theorem node?_put_of_some (hk : fs.node? k = some m) : (fs.put v n).node? k = some m := by
  have hne : k ≠ v := by
    rintro rfl
    rw [h.empty] at hk
    cases hk
  rw [node?_put h.admits, if_neg hne, hk]

/-- What comes to a free location comes behind all other entries. -/
theorem entries_put : (fs.put v n).entries = fs.entries ++ [(v, n)] := by
  have hlookup : fs.entries.lookup v = none := (node?_eq_lookup (ne_nil_of_isHoused h.housed)).symm.trans h.empty
  unfold put
  rw [dif_pos h.admits]
  simp [setAmong, hlookup]

/-- No entry is at a free location or below it. -/
theorem isPrefixOf_eq_false {e : Location × Node} (he : e ∈ fs.entries) : v.isPrefixOf e.1 = false := by
  rw [← Bool.not_eq_true, List.isPrefixOf_iff_prefix]
  rintro ⟨b, hb⟩
  have hnode : fs.node? (v ++ b) = some e.2 := by
    rw [hb]
    exact node?_of_mem he
  have hempty := h.empty
  by_cases hnil : b = []
  · rw [hnil, List.append_nil, hempty] at hnode
    cases hnode
  · rw [node?_take hnode hnil] at hempty
    cases hempty

/-- What has come to a free location goes without a trace. -/
theorem erase_put : (fs.put v n).erase v = fs := by
  refine eq_of_entries cwd_put privileged_put device_put ?_
  show (fs.put v n).entries.filter _ = _
  rw [h.entries_put, List.filter_append, List.filter_eq_self.2 fun e he => by rw [h.isPrefixOf_eq_false he]; rfl]
  simp

theorem ne_of_mem {e : Location × Node} (he : e ∈ fs.entries) : e.1 ≠ v := by
  rintro rfl
  have hempty := h.empty
  rw [node?_of_mem he] at hempty
  cases hempty

/-- A file that has come to a free location gives way to another. -/
theorem put_put (hn : n ≠ .directory) : (fs.put v n).put v m = fs.put v m := by
  have hlookup : (fs.put v n).entries.lookup v = some n :=
    (node?_eq_lookup (ne_nil_of_isHoused h.housed)).symm.trans h.node?_put_self
  have hadmits : (fs.put v n).admits v m = true := by
    simp [FileSystem.admits, h.node?_put_self, hn, (fs.put v n).housed _ (mem_of_lookup hlookup)]
  have hset : setAmong (fs.put v n).entries v m = fs.entries ++ [(v, m)] := by
    rw [setAmong, hlookup, Option.isSome_some, if_pos rfl, h.entries_put, List.map_append,
      List.map_congr_left fun e he => if_neg (h.ne_of_mem he)]
    simp
  refine eq_of_entries (by simp) (by simp) (by simp) ?_
  rw [h.entries_put, put, dif_pos hadmits]
  exact hset

/-- A path that leads somewhere leads there still. -/
theorem resolve_put {last : Bool} (hp : fs.resolve last p = .ok l) : (fs.put v n).resolve last p = .ok l := by
  obtain ⟨husable, hleads⟩ := lead_eq_ok_iff.1 hp
  refine lead_eq_ok_iff.2 ⟨husable, ?_⟩
  rw [cwd_put]
  exact hleads.mono fun k m => h.node?_put_of_some

/-- A file that takes the place of another after it has stood at a free location. -/
theorem move_file (hl : fs.node? l = some (.file old mode)) :
    ((fs.put v (.file content mode)).put l (.file content mode)).erase v = fs.withContent l content := by
  rw [put_file (h.node?_put_of_some hl), withContent, erase_withContents, h.erase_put]
  rfl

end IsVacant

/-! ## Names that are drawn -/

theorem length_letters (k n : Nat) : (letters k n).length = k := by
  induction k generalizing n with
  | zero => rfl
  | succ k ih => rw [letters, List.length_cons, ih]

theorem letter_ne {n : Nat} (hn : n < 62) : letter n ≠ Path.slash ∧ letter n ≠ 0 := by
  revert n
  decide

theorem mem_letters {k n : Nat} {b : UInt8} (h : b ∈ letters k n) : b ≠ Path.slash ∧ b ≠ 0 := by
  induction k generalizing n with
  | zero => cases h
  | succ k ih =>
    rcases List.mem_cons.1 h with rfl | h
    · exact letter_ne (Nat.mod_lt n (by decide))
    · exact ih h

/-- An entry can have any name that is drawn. -/
theorem isName_drawnName (draw : Nat) : isName (drawnName draw) = true := by
  have hlength : (drawnName draw).length = 10 := by simp [drawnName, length_letters]
  have hmem {b : UInt8} (hb : b ∈ drawnName draw) : b ≠ Path.slash ∧ b ≠ 0 := by
    rcases List.mem_append.1 hb with hb | hb
    · simp only [List.mem_cons, List.not_mem_nil, or_false] at hb
      rcases hb with rfl | rfl | rfl | rfl <;> decide
    · exact mem_letters hb
  refine isName_iff.2 ⟨?_, ?_, ?_, fun h => (hmem h).1 rfl, fun h => (hmem h).2 rfl, ?_⟩
  · intro h
    simp [h] at hlength
  · intro h
    simp [h, Path.here] at hlength
  · intro h
    simp [h, Path.up] at hlength
  · rw [hlength]
    decide

theorem freeName?_eq_some {isTaken : Name → Bool} {tries draw : Nat} {n : Name}
    (h : freeName? isTaken tries draw = some n) : isTaken n = false ∧ isName n = true := by
  induction tries generalizing draw with
  | zero => cases h
  | succ tries ih =>
    unfold freeName? at h
    split at h
    · exact ih h
    · rename_i hfree
      obtain rfl := Option.some.inj h
      exact ⟨Bool.not_eq_true _ ▸ hfree, isName_drawnName draw⟩

/-- There is room for a temporary file where it is said to be. -/
theorem isVacant_of_vacancy {d : Path} {temp : Temporary} (h : fs.vacancy d = .ok temp) : fs.IsVacant temp.location := by
  unfold vacancy at h
  cases hd : fs.resolve true (fs.fromRoot d) with
  | error f => simp [hd, bind, Except.bind] at h
  | ok l =>
    simp only [hd, bind, Except.bind] at h
    split at h
    · cases h
    rename_i hdir
    split at h
    · cases h
    rename_i n hfree
    split at h
    · cases h
    obtain rfl := Except.ok.inj h
    obtain ⟨htaken, hname⟩ := freeName?_eq_some hfree
    refine ⟨by simpa using htaken, ?_⟩
    simpa [isHoused, hname, node?] using hdir

/-! ## Steps of the work -/

namespace Work

variable {α β : Type} {act : Work α} {next : α → Work β} {a : α} {f : FaultAt}

theorem run_bind_ok (h : act.run fs = .ok a fs') : (act >>= next).run fs = (next a).run fs' := by rw [EStateM.run_bind, h]

theorem run_bind_error (h : act.run fs = .error f fs') : (act >>= next).run fs = .error f fs' := by
  rw [EStateM.run_bind, h]

@[simp] theorem run_ask (p : Path) (question : FileSystem → Except Fault α) (fs : FileSystem) :
    (ask p question).run fs =
      match question fs with
      | .ok a => .ok a fs
      | .error f => .error ⟨p, f⟩ fs := rfl

theorem run_ask_bind {question : FileSystem → Except Fault α} (p : Path) (h : question fs = .ok a) :
    (ask p question >>= next).run fs = (next a).run fs := run_bind_ok (by rw [run_ask, h])

theorem run_ask_bind_error {question : FileSystem → Except Fault α} {f : Fault} (p : Path) (h : question fs = .error f) :
    (ask p question >>= next).run fs = .error ⟨p, f⟩ fs := run_bind_error (by rw [run_ask, h])

@[simp] theorem run_tryCatch (act : Work α) (handle : FaultAt → Work α) (fs : FileSystem) :
    (tryCatch act handle).run fs =
      match act.run fs with
      | .ok a fs' => .ok a fs'
      | .error f fs' => (handle f).run fs' := by
  show EStateM.tryCatch act handle fs = _
  unfold EStateM.tryCatch EStateM.run
  cases act fs <;> rfl

end Work

/-- The fault at which a replacement ends that the device has trouble with. -/
def Trouble.faultAt (t : Path) (temp : Temporary) : Trouble → FaultAt
  | .making f => ⟨t.directory, f⟩
  | .filling _ f => ⟨temp.path, f⟩
  | .granting f => ⟨temp.path, f⟩
  | .moving f => ⟨t, f⟩

/-- A temporary file is made at a free location, and nothing else is done. -/
theorem run_makeTemporary {d : Path} {temp : Temporary} {trouble : Option Trouble} (h : fs.vacancy d = .ok temp)
    (htrouble : ∀ f, trouble ≠ some (.making f)) :
    (makeTemporary trouble d).run fs = .ok temp (fs.put temp.location (.file [] temporaryMode)) := by
  unfold makeTemporary
  rw [Work.run_ask_bind d h]
  split
  · rename_i f
    exact absurd rfl (htrouble f)
  · rfl

namespace Temporary

variable {temp : Temporary} (h : fs.IsVacant temp.location)
include h

/-! Each step is taken with the file at a location that is free otherwise. -/

theorem run_fill {trouble : Option Trouble} {start : Bytes} (htrouble : ∀ written f, trouble ≠ some (.filling written f)) :
    (temp.fill trouble content).run (fs.put temp.location (.file start mode)) =
      .ok () (fs.put temp.location (.file content temporaryMode)) := by
  unfold fill
  split
  · rename_i written f
    exact absurd rfl (htrouble written f)
  · rw [EStateM.run_modify, h.put_put (by simp)]

theorem run_fill_partly {start : Bytes} (written : Nat) (f : Fault) :
    (temp.fill (some (.filling written f)) content).run (fs.put temp.location (.file start mode)) =
      .error ⟨temp.path, f⟩ (fs.put temp.location (.file (content.take written) temporaryMode)) := by
  unfold fill
  rw [EStateM.run_bind, EStateM.run_modify, h.put_put (by simp)]
  rfl

theorem run_grant {trouble : Option Trouble} {first : Nat} (htrouble : ∀ f, trouble ≠ some (.granting f)) :
    (temp.grant trouble mode).run (fs.put temp.location (.file content first)) =
      .ok () (fs.put temp.location (.file content mode)) := by
  unfold grant
  split
  · rename_i f
    exact absurd rfl (htrouble f)
  · simp only [EStateM.run_modify, h.node?_put_self, h.put_put (n := .file content first) (by simp)]

theorem run_moveTo {trouble : Option Trouble} {t : Path} (htrouble : ∀ f, trouble ≠ some (.moving f))
    (ht : fs.resolve false t = .ok l) (hl : fs.node? l = some (.file old mode)) :
    (temp.moveTo trouble t).run (fs.put temp.location (.file content mode)) = .ok () (fs.withContent l content) := by
  unfold moveTo
  split
  · rename_i f
    exact absurd rfl (htrouble f)
  · rw [Work.run_ask_bind t (h.resolve_put ht)]
    simp only [EStateM.run_modify, h.node?_put_self, h.move_file hl]

theorem run_remove : temp.remove.run (fs.put temp.location n) = .ok () fs := by
  unfold remove
  rw [EStateM.run_modify, h.erase_put]

/-- Without trouble all steps are taken, and there is one other content in the end. -/
theorem run_install {t : Path} (ht : fs.resolve false t = .ok l) (hl : fs.node? l = some (.file old mode)) :
    (temp.install none content mode t).run (fs.put temp.location (.file [] temporaryMode)) =
      .ok () (fs.withContent l content) := by
  unfold install
  rw [Work.run_bind_ok (run_fill h (by simp)), Work.run_bind_ok (run_grant h (by simp))]
  exact run_moveTo h (by simp) ht hl

/-- Trouble ends the steps at the one that it is about, while the temporary file is still there. -/
theorem run_install_of_trouble {trouble : Trouble} (hmade : ∀ f, trouble ≠ .making f) (content : Bytes) (mode : Nat)
    (t : Path) :
    ∃ last, (temp.install (some trouble) content mode t).run (fs.put temp.location (.file [] temporaryMode)) =
      .error (trouble.faultAt t temp) (fs.put temp.location last) := by
  unfold install
  cases trouble with
  | making f => exact absurd rfl (hmade f)
  | filling written f =>
    exact ⟨_, Work.run_bind_error (run_fill_partly h written f)⟩
  | granting f =>
    rw [Work.run_bind_ok (run_fill h (by simp))]
    exact ⟨_, Work.run_bind_error rfl⟩
  | moving f =>
    rw [Work.run_bind_ok (run_fill h (by simp)), Work.run_bind_ok (run_grant h (by simp))]
    exact ⟨_, rfl⟩

end Temporary
end FileSystem
end AlphaCodemod
