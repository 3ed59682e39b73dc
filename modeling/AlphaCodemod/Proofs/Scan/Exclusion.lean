/-
What is excluded from a scan. A walk with exclude patterns finds what it would find without them, less the paths
that one of them matches, and the order of the patterns does not matter. So a scan whose patterns are the usual ones
leaves out what these are meant for, and nothing else (`ScanOptions.idioms_exclude_what_they_cover`).
-/
import AlphaCodemod.Proofs.Glob.Idiom
import AlphaCodemod.Proofs.Migration
import AlphaCodemod.Proofs.Scan.Walk

namespace AlphaCodemod

variable {ρ : Type}

theorem Settings.patterns_of_idioms (extension : String) (idioms : List Glob.Idiom) :
    (Settings.mk extension (idioms.map (·.text))).patterns = .ok (idioms.map (·.pattern)) := by
  apply patterns_of_compile
  induction idioms with
  | nil => exact .nil
  | cons i idioms ih => exact .cons i.read_text ih

namespace ScanOptions

variable {o : ScanOptions} {fs : FileSystem} {ns : List Name} {idioms : List Glob.Idiom}

/-! ## Walks with and without patterns -/

/-- The same scan without a pattern. -/
def unfiltered (o : ScanOptions) : ScanOptions := { o with exclude := [] }

/-- What would be found without a pattern, as names from the root on. -/
def allFound (o : ScanOptions) (fs : FileSystem) : List (List Name) :=
  (o.unfiltered.visited fs).met.filter (o.unfiltered.isCandidate fs)

theorem excludes_unfiltered (o : ScanOptions) (ns : List Name) : o.unfiltered.excludes ns = false :=
  excludes_eq_false_iff.2 fun _ _ g hg => by cases hg

theorem isCandidate_eq (o : ScanOptions) (fs : FileSystem) (ns : List Name) :
    o.isCandidate fs ns = (!o.excludes ns && o.unfiltered.isCandidate fs ns) := by
  have hopen : o.unfiltered.isCandidate fs ns =
      (fs.isFile (o.root.below ns) && (o.root.below ns).fileName?.any o.hasExtension &&
        !o.unfiltered.excludes ns) := rfl
  rw [hopen, excludes_unfiltered, Bool.not_false, Bool.and_true, Bool.and_comm]
  rfl

theorem result_walk (o : ScanOptions) (w : World ρ) :
    o.walk.result w = (o.candidates w.files).mapError fun f => .io f.path (.fileSystem f.fault) := by
  cases hfound : o.candidates w.files with
  | error f =>
    obtain ⟨w', hwalk, -⟩ := walk_of_fault hfound
    rw [Run.result, hwalk]
    rfl
  | ok ps =>
    obtain ⟨w', hwalk, -⟩ := walk_of_candidates hfound
    rw [Run.result, hwalk]
    rfl

/-- A walk with patterns fails as it would without, or finds what it would find without, less what is excluded. -/
theorem walk_cases (o : ScanOptions) (w : World ρ) :
    (∃ e, o.unfiltered.walk.result w = .error e ∧ o.walk.result w = .error e) ∨
      o.unfiltered.walk.result w = .ok ((o.allFound w.files).map o.root.below) ∧
      o.walk.result w = .ok (((o.allFound w.files).filter fun ns => !o.excludes ns).map o.root.below) := by
  have hvisited : o.unfiltered.visited w.files = o.visited w.files := rfl
  rw [result_walk, result_walk, candidates, candidates, hvisited]
  cases (o.visited w.files).fault with
  | some f => exact .inl ⟨_, rfl, rfl⟩
  | none =>
    refine .inr ⟨rfl, ?_⟩
    have hboth : o.isCandidate w.files = fun ns => !o.excludes ns && o.unfiltered.isCandidate w.files ns :=
      funext (o.isCandidate_eq w.files)
    rw [allFound, List.filter_filter, ← hboth]
    rfl

/-! ## The usual patterns -/

/-- A path is kept if it is no text, or a text that no idiom covers; the order of the patterns does not matter. -/
theorem excludes_of_idioms (ho : o.exclude.Perm (idioms.map (·.pattern))) :
    o.excludes ns = false ↔ ∀ path ∈ Utf8.decode? (Path.joinNames ns), ∀ i ∈ idioms, ¬ i.Covers path := by
  rw [excludes_eq_false_iff]
  refine forall₂_congr fun path _ => ?_
  simp only [ho.mem_iff, List.forall_mem_map, ← Glob.Idiom.matches_pattern_iff, Bool.not_eq_true]

/-- The usual exclude patterns can be read, with any plain text in them. In a scan that has them, in whatever order,
they exclude exactly the paths that they are meant for: those that start with the directory and a slash, and those
that end in the text. The walk fails as it would without them, or it finds what it would find without them, in the
same order, less the paths that are text and that one of them is meant for. -/
theorem idioms_exclude_what_they_cover (idioms : List Glob.Idiom) :
    (∀ extension, (Settings.mk extension (idioms.map (·.text))).patterns = .ok (idioms.map (·.pattern))) ∧
    ∀ o : ScanOptions, o.exclude.Perm (idioms.map (·.pattern)) →
      (∀ ns path, Utf8.decode? (Path.joinNames ns) = some path →
        (o.excludes ns = true ↔ ∃ i ∈ idioms, i.Covers path)) ∧
      ∀ w : World ρ,
        (∃ e, o.unfiltered.walk.result w = .error e ∧ o.walk.result w = .error e) ∨
          o.unfiltered.walk.result w = .ok ((o.allFound w.files).map o.root.below) ∧
          o.walk.result w = .ok (((o.allFound w.files).filter fun ns =>
            ∀ path ∈ Utf8.decode? (Path.joinNames ns), ∀ i ∈ idioms, ¬ i.Covers path).map o.root.below) := by
  refine ⟨fun extension => Settings.patterns_of_idioms extension idioms, fun o ho => ⟨?_, fun w => ?_⟩⟩
  · intro ns path hpath
    have hkept : o.excludes ns = false ↔ _ := excludes_of_idioms ho
    rw [hpath] at hkept
    rw [← Bool.not_eq_false, hkept]
    simp
  · have hkept : (fun ns => !o.excludes ns) =
        fun ns => decide (∀ path ∈ Utf8.decode? (Path.joinNames ns), ∀ i ∈ idioms, ¬ i.Covers path) := by
      funext ns
      rw [Bool.eq_iff_iff, Bool.not_eq_true', decide_eq_true_iff]
      exact excludes_of_idioms ho
    rw [← hkept]
    exact o.walk_cases w

/-- What is built, and what is generated. -/
def builtAndGenerated : List Glob.Idiom :=
  [.under ⟨"build".toList, by decide⟩, .ending ⟨".g.dart".toList, by decide⟩]

/-- A project with a directory for what is built, one with a longer name, one of the same name further down, and
generated sources at the root and further down. -/
def builtProject : FileSystem where
  entries :=
    [([Utf8.encode ['p']], .directory),
      ([Utf8.encode ['p'], Utf8.encode "build".toList], .directory),
      ([Utf8.encode ['p'], Utf8.encode "build".toList, Utf8.encode "a.dart".toList], .file [] 420),
      ([Utf8.encode ['p'], Utf8.encode "builds".toList], .directory),
      ([Utf8.encode ['p'], Utf8.encode "builds".toList, Utf8.encode "b.dart".toList], .file [] 420),
      ([Utf8.encode ['p'], Utf8.encode "lib".toList], .directory),
      ([Utf8.encode ['p'], Utf8.encode "lib".toList, Utf8.encode "build".toList], .directory),
      ([Utf8.encode ['p'], Utf8.encode "lib".toList, Utf8.encode "build".toList, Utf8.encode "c.dart".toList],
        .file [] 420),
      ([Utf8.encode ['p'], Utf8.encode "lib".toList, Utf8.encode "d.g.dart".toList], .file [] 420),
      ([Utf8.encode ['p'], Utf8.encode "e.g.dart".toList], .file [] 420)]
  nodup := by decide +kernel
  housed := by decide +kernel

/-- The scan of that project without what is built or generated; the patterns are in the other order. -/
def ofBuiltProject : ScanOptions :=
  { root := Path.ofString "/p", exclude := (builtAndGenerated.map (·.pattern)).reverse }

/-- Neither the directory with the longer name nor the one further down is left out. -/
theorem walk_of_a_built_project :
    builtAndGenerated.map (·.text) = ["build/**", "**/*.g.dart"] ∧
      ofBuiltProject.exclude.Perm (builtAndGenerated.map (·.pattern)) ∧
      (ofBuiltProject.walk : Run Unit (List Path)).result { files := builtProject, reporter := () } =
        .ok [Path.ofString "/p/builds/b.dart", Path.ofString "/p/lib/build/c.dart"] := by
  have horder : ofBuiltProject.exclude.Perm (builtAndGenerated.map (·.pattern)) := List.reverse_perm _
  have hall : ofBuiltProject.unfiltered.candidates builtProject = .ok
      [Path.ofString "/p/build/a.dart", Path.ofString "/p/builds/b.dart", Path.ofString "/p/e.g.dart",
        Path.ofString "/p/lib/build/c.dart", Path.ofString "/p/lib/d.g.dart"] := by cbv
  have hfound : ofBuiltProject.allFound builtProject =
      [[Utf8.encode "build".toList, Utf8.encode "a.dart".toList],
        [Utf8.encode "builds".toList, Utf8.encode "b.dart".toList], [Utf8.encode "e.g.dart".toList],
        [Utf8.encode "lib".toList, Utf8.encode "build".toList, Utf8.encode "c.dart".toList],
        [Utf8.encode "lib".toList, Utf8.encode "d.g.dart".toList]] := by cbv
  refine ⟨by cbv, horder, ?_⟩
  rcases ((idioms_exclude_what_they_cover builtAndGenerated).2 ofBuiltProject horder).2
    { files := builtProject, reporter := () } with ⟨e, he, -⟩ | ⟨-, hwalk⟩
  · rw [result_walk, hall] at he
    cases he
  · rw [hwalk, hfound]
    decide +kernel

end ScanOptions
end AlphaCodemod
