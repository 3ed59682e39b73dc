/-
Files that a scan is to leave alone: those that a pattern excludes, and those without the extension. A scan
goes by the names it meets and edits what they lead to, so such a file keeps its content unless a link with
another name, one that is sought, leads to it (`ScanOptions.scan_leaves_alone_what_no_link_leads_to`). If one
does, the file is edited.
-/
import AlphaCodemod.Proofs.Scan.Walk

namespace AlphaCodemod

variable {ρ : Type}

/-- Visits leave alone what they do not lead to. -/
theorem FileSystem.node?_settled_of_unreached {fs : FileSystem} {l : Location} {ps : List Path} (dryRun : Bool)
    (h : ∀ p ∈ ps, fs.resolve true p ≠ .ok l) : (fs.settled dryRun ps).node? l = fs.node? l := by
  cases dryRun with
  | true => rfl
  | false =>
    rw [settled_false, node?_completing, if_neg]
    intro hreached
    obtain ⟨p, hp, hl⟩ := isReached_iff.1 hreached
    exact h p hp hl

namespace ScanOptions

variable {o : ScanOptions} {fs : FileSystem} {l : Location} {above : List Name} {n : Name}

/-- What is sought and no link leads to where its name stands. -/
theorem Sought.resolve (h : o.Sought fs l above n) (hroot : fs.resolve true o.root = .ok l)
    (hlink : ∀ t, fs.node? (l ++ (above ++ [n])) ≠ some (.link t)) :
    fs.resolve true (o.root.below (above ++ [n])) = .ok (l ++ (above ++ [n])) := by
  obtain ⟨m, hm⟩ := h.there
  obtain ⟨k, content, mode, hk⟩ := h.leads
  refine FileSystem.resolve_below hroot hm ?_ (by simp) (FileSystem.lead_eq_ok_iff.1 hk.resolve).1
  rintro t rfl
  exact hlink t hm

/-- A file below the root that a pattern excludes, or whose name has not the extension, has its content and its
mode still, however the scan ends, unless a link that is sought itself leads to it. -/
theorem scan_leaves_alone_what_no_link_leads_to (o : ScanOptions) (reporter : Reporter Cause ρ) (w : World ρ)
    {l : Location} {above : List Name} {n : Name} {content : Bytes} {mode : Nat}
    (hroot : w.files.resolve true o.root = .ok l)
    (hfile : w.files.node? (l ++ (above ++ [n])) = some (.file content mode))
    (hleft : (∃ g ∈ o.exclude, ∃ cs, Utf8.decode? (Path.joinNames (above ++ [n])) = some cs ∧ g.matches cs = true) ∨
      ¬ '.' :: o.extension.toList <:+ Utf8.decodeLossy n)
    (hlinks : ∀ above' n' t, w.files.node? (l ++ (above' ++ [n'])) = some (.link t) → o.Sought w.files l above' n' →
      w.files.resolve true (o.root.below (above' ++ [n'])) ≠ .ok (l ++ (above ++ [n]))) :
    ((o.scan reporter).world w).files.node? (l ++ (above ++ [n])) = some (.file content mode) := by
  have hdir : w.files.node? l = some .directory := FileSystem.node?_take hfile (by simp)
  have hnot : ¬ o.Sought w.files l above n := by
    intro hsought
    rcases hleft with ⟨g, hg, cs, hcs, hmatches⟩ | hname
    · have hkept := hsought.kept cs hcs g hg
      rw [hmatches] at hkept
      cases hkept
    · exact hname hsought.named
  obtain ⟨ps, hps, hfiles⟩ := files_world_scan_among o reporter w
  rw [hfiles, FileSystem.node?_settled_of_unreached, hfile]
  intro p hp hresolve
  obtain ⟨found, hfound, hmem⟩ := hps p hp
  obtain ⟨above', n', rfl, hsought⟩ := (mem_candidates_iff hroot hdir hfound).1 hmem
  by_cases hlink : ∃ t, w.files.node? (l ++ (above' ++ [n'])) = some (.link t)
  · obtain ⟨t, ht⟩ := hlink
    exact hlinks above' n' t ht hsought hresolve
  · -- a candidate that is no link is the file itself, which is none
    have hself := hsought.resolve hroot fun t ht => hlink ⟨t, ht⟩
    have hsame := Except.ok.inj (hself.symm.trans hresolve)
    obtain ⟨rfl, hn⟩ := List.append_inj' (List.append_cancel_left hsame) rfl
    cases hn
    exact hnot hsought

/-- A project with a file that is excluded, one without the extension, and a link to each. -/
def pointedAt : FileSystem where
  entries :=
    [([Utf8.encode ['p']], .directory),
      ([Utf8.encode ['p'], Utf8.encode "gen".toList], .directory),
      ([Utf8.encode ['p'], Utf8.encode "gen".toList, Utf8.encode "x.dart".toList],
        .file (Utf8.encode "c.withOpacity(0.5)".toList) 420),
      ([Utf8.encode ['p'], Utf8.encode "notes.txt".toList], .file (Utf8.encode "c.withOpacity(1)".toList) 420),
      ([Utf8.encode ['p'], Utf8.encode "a.dart".toList], .link (Path.ofString "gen/x.dart")),
      ([Utf8.encode ['p'], Utf8.encode "b.dart".toList], .link (Path.ofString "notes.txt"))]
  nodup := by decide +kernel
  housed := by decide +kernel

/-- The scan of that project for text files; the links are none. -/
def ofTexts : ScanOptions := { root := Path.ofString "/p", extension := "txt" }

theorem scan_of_texts_leaves_a_source_alone :
    pointedAt.resolve true ofTexts.root = .ok [Utf8.encode ['p']] ∧
      ¬ '.' :: ofTexts.extension.toList <:+ Utf8.decodeLossy (Utf8.encode "x.dart".toList) ∧
      ((ofTexts.scan silent).world { files := pointedAt, reporter := () }).files.node?
          [Utf8.encode ['p'], Utf8.encode "gen".toList, Utf8.encode "x.dart".toList] =
        some (.file (Utf8.encode "c.withOpacity(0.5)".toList) 420) := by
  have hroot : pointedAt.resolve true ofTexts.root = .ok [Utf8.encode ['p']] := by cbv
  have hdir : pointedAt.node? [Utf8.encode ['p']] = some .directory := by decide +kernel
  have hfile :
      pointedAt.node? ([Utf8.encode ['p']] ++ ([Utf8.encode "gen".toList] ++ [Utf8.encode "x.dart".toList])) =
        some (.file (Utf8.encode "c.withOpacity(0.5)".toList) 420) := by decide +kernel
  have hname : ¬ '.' :: ofTexts.extension.toList <:+ Utf8.decodeLossy (Utf8.encode "x.dart".toList) := by decide +kernel
  have hfound : ofTexts.candidates pointedAt = .ok [Path.ofString "/p/notes.txt"] := by cbv
  have hnotes : pointedAt.resolve true (Path.ofString "/p/notes.txt") =
      .ok [Utf8.encode ['p'], Utf8.encode "notes.txt".toList] := by cbv
  refine ⟨hroot, hname, ?_⟩
  refine scan_leaves_alone_what_no_link_leads_to ofTexts silent { files := pointedAt, reporter := () } hroot hfile
    (Or.inr hname) ?_
  intro above' n' t _ hsought hresolve
  have hmem := (mem_candidates_iff hroot hdir hfound).2 ⟨above', n', rfl, hsought⟩
  rw [List.mem_singleton.1 hmem, hnotes] at hresolve
  exact absurd hresolve (by decide +kernel)

/-- The pattern `gen/**`. -/
def generated : Glob.Pattern := ⟨"gen/**", [.char 'g', .char 'e', .char 'n', .char '/', .anyDirs]⟩

/-- The scan of that project without what is under `gen`. -/
def ofPointedAt : ScanOptions := { root := Path.ofString "/p", exclude := [generated] }

theorem candidates_pointedAt :
    ofPointedAt.candidates pointedAt = .ok [Path.ofString "/p/a.dart", Path.ofString "/p/b.dart"] := by cbv

theorem canBeEdited_pointedAt (dryRun : Bool) :
    ∀ p ∈ [Path.ofString "/p/a.dart", Path.ofString "/p/b.dart"], pointedAt.CanBeEdited dryRun p := by
  have ha : pointedAt.source (Path.ofString "/p/a.dart") = .ok "c.withOpacity(0.5)".toList := by cbv
  have hb : pointedAt.source (Path.ofString "/p/b.dart") = .ok "c.withOpacity(1)".toList := by cbv
  have hatarget : pointedAt.target (Path.ofString "/p/a.dart") = .ok (Path.ofString "/p/gen/x.dart") := by cbv
  have hbtarget : pointedAt.target (Path.ofString "/p/b.dart") = .ok (Path.ofString "/p/notes.txt") := by cbv
  have haroom : pointedAt.vacancy (Path.ofString "/p/gen/x.dart").directory =
      .ok ⟨Path.ofString "/p/gen/.tmp000000",
        [Utf8.encode ['p'], Utf8.encode "gen".toList, Utf8.encode ".tmp000000".toList]⟩ := by cbv
  have hbroom : pointedAt.vacancy (Path.ofString "/p/notes.txt").directory =
      .ok ⟨Path.ofString "/p/.tmp000000", [Utf8.encode ['p'], Utf8.encode ".tmp000000".toList]⟩ := by cbv
  refine List.forall_mem_cons.2 ⟨FileSystem.canBeEdited_of_privileged ha hatarget haroom rfl rfl dryRun, ?_⟩
  exact List.forall_mem_singleton.2 (FileSystem.canBeEdited_of_privileged hb hbtarget hbroom rfl rfl dryRun)

/-- Both the excluded file and the one without the extension are edited, since a link leads to each. -/
theorem scan_edits_what_links_lead_to :
    Glob.Pattern.read "gen/**" = .ok generated ∧ generated.matches "gen/x.dart".toList = true ∧
      ¬ '.' :: ofPointedAt.extension.toList <:+ Utf8.decodeLossy (Utf8.encode "notes.txt".toList) ∧
      ∃ w', (ofPointedAt.scan silent).run { files := pointedAt, reporter := () } = .ok ⟨2, 2, 2⟩ w' ∧
        w'.files.node? [Utf8.encode ['p'], Utf8.encode "gen".toList, Utf8.encode "x.dart".toList] =
          some (.file (Utf8.encode "c.withAlpha(128)".toList) 420) ∧
        w'.files.node? [Utf8.encode ['p'], Utf8.encode "notes.txt".toList] =
          some (.file (Utf8.encode "c.withAlpha(255)".toList) 420) := by
  have hread : Glob.Pattern.read "gen/**" = .ok generated := by cbv
  refine ⟨hread, by decide +kernel, by decide +kernel, ?_⟩
  have hroot : pointedAt.isDirectory ofPointedAt.root = true := by decide +kernel
  have htally : ofPointedAt.tally {} pointedAt [Path.ofString "/p/a.dart", Path.ofString "/p/b.dart"] = ⟨2, 2, 2⟩ := by
    decide +kernel
  obtain ⟨r, w', hrun, hafter⟩ := scan_succeeds (w := { files := pointedAt, reporter := () }) silent hroot
    candidates_pointedAt (canBeEdited_pointedAt false) not_refuses_silent
  refine ⟨w', htally ▸ hrun, ?_, ?_⟩
  · rw [hafter.files]
    decide +kernel
  · rw [hafter.files]
    decide +kernel

end ScanOptions
end AlphaCodemod
