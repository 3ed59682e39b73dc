/-
What a walk finds: exactly the files that are sought below the root (`ScanOptions.Sought`), each once, in
the order of the names that lead to them (`ScanOptions.walk_finds_the_sought`). Directories are gone
through where they stand; a link to one is not, but a link to a file is as good as the file.
-/
import AlphaCodemod.Proofs.FileSystem.Below
import AlphaCodemod.Proofs.FileSystem.Descent
import AlphaCodemod.Proofs.Scan.Exits

namespace AlphaCodemod.ScanOptions

open FileSystem (LeadsToFile WalkLt isName)

variable {ρ : Type} {o : ScanOptions} {fs : FileSystem} {l : Location} {ps : List Path} {above : List Name} {n : Name}

/-! ## What is sought -/

/-- What a scan looks for below the location of its root: a name that is reached through directories alone, that
leads to a file, by itself or as a link, that has the extension, and that no pattern excludes. -/
structure Sought (o : ScanOptions) (fs : FileSystem) (l : Location) (above : List Name) (n : Name) : Prop where
  through : ∀ d, d <+: above → fs.node? (l ++ d) = some .directory
  there : ∃ m, fs.node? (l ++ (above ++ [n])) = some m
  leads : ∃ k content mode, LeadsToFile fs (o.root.below (above ++ [n])) k content mode
  named : '.' :: o.extension.toList <:+ Utf8.decodeLossy n
  kept : ∀ cs, Utf8.decode? (Path.joinNames (above ++ [n])) = some cs → ∀ g ∈ o.exclude, g.matches cs = false

theorem isFile_iff {p : Path} : fs.isFile p = true ↔ ∃ k content mode, LeadsToFile fs p k content mode := by
  unfold FileSystem.isFile
  constructor
  · intro h
    split at h
    · rename_i content mode hfind
      obtain ⟨k, hk⟩ := FileSystem.find_eq_file_iff.1 hfind
      exact ⟨k, content, mode, hk⟩
    · cases h
  · rintro ⟨k, content, mode, hk⟩
    rw [FileSystem.find_eq_file_iff.2 ⟨k, hk⟩]

theorem hasExtension_iff : o.hasExtension n = true ↔ '.' :: o.extension.toList <:+ Utf8.decodeLossy n :=
  List.isSuffixOf_iff_suffix

theorem excludes_eq_false_iff {ns : List Name} :
    o.excludes ns = false ↔
      ∀ cs, Utf8.decode? (Path.joinNames ns) = some cs → ∀ g ∈ o.exclude, g.matches cs = false := by
  unfold excludes
  split
  · rename_i cs hdecode
    simp [hdecode]
  · rename_i hdecode
    simp [hdecode]

/-- A name that is met on a walk is a candidate exactly if it is sought. -/
theorem isCandidate_iff {m : Node} (hroot : o.root.bytes ≠ []) (hnode : fs.node? (l ++ (above ++ [n])) = some m) :
    o.isCandidate fs (above ++ [n]) = true ↔ o.Sought fs l above n := by
  have hnames : ∀ k ∈ above ++ [n], isName k = true := fun k hk => FileSystem.isName_of_mem hnode k (by simp [hk])
  have hthrough : ∀ d, d <+: above → fs.node? (l ++ d) = some .directory := by
    rintro d ⟨more, rfl⟩
    rw [List.append_assoc, ← List.append_assoc] at hnode
    exact FileSystem.node?_take hnode (by simp)
  simp only [isCandidate, Path.fileName?_below hroot hnames, Option.any_some, Bool.and_eq_true, Bool.not_eq_true',
    isFile_iff, hasExtension_iff, excludes_eq_false_iff]
  constructor
  · rintro ⟨⟨hleads, hnamed⟩, hkept⟩
    exact ⟨hthrough, ⟨m, hnode⟩, hleads, hnamed, hkept⟩
  · intro h
    exact ⟨⟨h.leads, h.named⟩, h.kept⟩

/-! ## What is met -/

/-- A walk that meets no fault meets all that is below. -/
theorem met_walkFrom (h : (o.walkFrom fs l).fault = none) : (o.walkFrom fs l).met = [] :: fs.below l := by
  unfold walkFrom at h ⊢
  dsimp only at h ⊢
  split at h
  · rfl
  · rename_i unread rest hunread
    -- the walk would have stopped at the first directory that cannot be read
    have hfault : (o.readFault? fs l unread).isNone = false := by
      have := List.head?_dropWhile_not (fun relative => (o.readFault? fs l relative).isNone) ([] :: fs.below l)
      rw [hunread] at this
      simpa using this
    rw [show o.readFault? fs l unread = none from h] at hfault
    cases hfault

theorem candidates_eq (hroot : fs.resolve true o.root = .ok l) (hdir : fs.node? l = some .directory)
    (h : o.candidates fs = .ok ps) : ps = ((fs.below l).filter (o.isCandidate fs)).map o.root.below := by
  unfold candidates at h
  split at h
  · cases h
  rename_i hfault
  obtain rfl := Except.ok.inj h
  unfold candidatesAmong
  unfold visited at hfault ⊢
  rw [hroot] at hfault ⊢
  cases hfind : fs.find false o.root with
  | error f =>
    rw [hfind] at hfault
    cases hfault
  | ok m =>
    rw [hfind] at hfault
    simp only [hdir] at hfault ⊢
    rw [met_walkFrom hfault, List.filter_cons_of_neg]
    -- the root is a directory and no candidate itself
    simp [isCandidate, Path.below, FileSystem.isFile, FileSystem.find_eq_ok_iff.2 ⟨l, hroot, hdir⟩]

theorem mem_candidates_iff (hroot : fs.resolve true o.root = .ok l) (hdir : fs.node? l = some .directory)
    (h : o.candidates fs = .ok ps) {p : Path} :
    p ∈ ps ↔ ∃ above n, p = o.root.below (above ++ [n]) ∧ o.Sought fs l above n := by
  have hbytes := (FileSystem.lead_eq_ok_iff.1 hroot).1.nonempty
  rw [candidates_eq hroot hdir h]
  simp only [List.mem_map, List.mem_filter, FileSystem.mem_below]
  constructor
  · rintro ⟨ns, ⟨⟨hns, m, hm⟩, hcandidate⟩, rfl⟩
    obtain ⟨above, n, rfl⟩ : ∃ above n, ns = above ++ [n] := ⟨_, _, (List.dropLast_concat_getLast hns).symm⟩
    exact ⟨above, n, rfl, (isCandidate_iff hbytes hm).1 hcandidate⟩
  · rintro ⟨above, n, rfl, hsought⟩
    obtain ⟨m, hm⟩ := hsought.there
    exact ⟨above ++ [n], ⟨⟨by simp, m, hm⟩, (isCandidate_iff hbytes hm).2 hsought⟩, rfl⟩

/-- Candidates come in the order of their names. -/
theorem pairwise_candidates (hroot : fs.resolve true o.root = .ok l) (hdir : fs.node? l = some .directory)
    (h : o.candidates fs = .ok ps) : ps.Pairwise fun p q => WalkLt p.names q.names := by
  have hbytes := (FileSystem.lead_eq_ok_iff.1 hroot).1.nonempty
  have hnames {ns : List Name} (hns : ns ∈ fs.below l) : (o.root.below ns).names = o.root.trunk ++ ns := by
    obtain ⟨hne, m, hm⟩ := FileSystem.mem_below.1 hns
    exact Path.names_below hbytes hne fun n hn => FileSystem.isName_of_mem hm n (by simp [hn])
  rw [candidates_eq hroot hdir h, List.pairwise_map]
  refine ((FileSystem.pairwise_below l).filter _).imp_of_mem ?_
  intro ns ms hns hms hlt
  rw [hnames (List.mem_filter.1 hns).1, hnames (List.mem_filter.1 hms).1]
  exact List.Lex.append_left _ hlt _

/-! ## Walks -/

/-- A walk that ends well, from a root that leads to a directory, finds exactly what is sought below it, each path
once, and in the order of the names of the paths: the first name in which two of them differ decides, by its
bytes. -/
theorem walk_finds_the_sought {w w' : World ρ} (hroot : w.files.resolve true o.root = .ok l)
    (hdir : w.files.node? l = some .directory) (h : o.walk.run w = .ok ps w') :
    (∀ p, p ∈ ps ↔ ∃ above n, p = o.root.below (above ++ [n]) ∧ o.Sought w.files l above n) ∧
      ps.Nodup ∧ ps.Pairwise fun p q => WalkLt p.names q.names := by
  have hfound : o.candidates w.files = .ok ps := by
    cases hcandidates : o.candidates w.files with
    | error f =>
      obtain ⟨w1, hwalk, -⟩ := walk_of_fault hcandidates
      rw [h] at hwalk
      cases hwalk
    | ok qs =>
      obtain ⟨w1, hwalk, -⟩ := walk_of_candidates hcandidates
      rw [h] at hwalk
      cases hwalk
      rfl
  have horder := pairwise_candidates hroot hdir hfound
  refine ⟨fun p => mem_candidates_iff hroot hdir hfound, ?_, horder⟩
  -- no path comes before itself
  apply horder.imp
  rintro p q hlt rfl
  exact List.lex_irrefl (List.lex_irrefl UInt8.lt_irrefl) _ hlt

/-- A project with a directory, a source whose name goes on from the name of the directory, and links: to the
directory, to the source in it, and to nothing. -/
def linkedProject : FileSystem where
  entries :=
    [([Utf8.encode ['p']], .directory),
      ([Utf8.encode ['p'], Utf8.encode "a.dart".toList], .file [] 420),
      ([Utf8.encode ['p'], Utf8.encode ['a']], .directory),
      ([Utf8.encode ['p'], Utf8.encode ['a'], Utf8.encode "z.dart".toList], .file [] 420),
      ([Utf8.encode ['p'], Utf8.encode ['b']], .link (Path.ofString "a")),
      ([Utf8.encode ['p'], Utf8.encode "c.dart".toList], .link (Path.ofString "a/z.dart")),
      ([Utf8.encode ['p'], Utf8.encode "d.dart".toList], .link (Path.ofString "nowhere"))]
  nodup := by decide +kernel
  housed := by decide +kernel

/-- The directory comes before the source beside it, the link to it is not gone through, and the link to nothing is
left out. -/
theorem walk_of_a_linked_project :
    linkedProject.resolve true ofLinkedSource.root = .ok [Utf8.encode ['p']] ∧
      linkedProject.node? [Utf8.encode ['p']] = some .directory ∧
      ∃ w', (ofLinkedSource.walk : Run Unit (List Path)).run { files := linkedProject, reporter := () } =
          .ok [Path.ofString "/p/a/z.dart", Path.ofString "/p/a.dart", Path.ofString "/p/c.dart"] w' ∧
        ∀ p, p ∈ [Path.ofString "/p/a/z.dart", Path.ofString "/p/a.dart", Path.ofString "/p/c.dart"] ↔
          ∃ above n, p = ofLinkedSource.root.below (above ++ [n]) ∧
            ofLinkedSource.Sought linkedProject [Utf8.encode ['p']] above n := by
  have hfound : ofLinkedSource.candidates linkedProject =
      .ok [Path.ofString "/p/a/z.dart", Path.ofString "/p/a.dart", Path.ofString "/p/c.dart"] := by cbv
  have hroot : linkedProject.resolve true ofLinkedSource.root = .ok [Utf8.encode ['p']] := by cbv
  have hdir : linkedProject.node? [Utf8.encode ['p']] = some .directory := by decide +kernel
  obtain ⟨w', hwalk, -⟩ := walk_of_candidates (w := { files := linkedProject, reporter := () }) hfound
  exact ⟨hroot, hdir, w', hwalk, (walk_finds_the_sought hroot hdir hwalk).1⟩

end AlphaCodemod.ScanOptions
