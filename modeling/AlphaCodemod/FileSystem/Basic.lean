/-
File systems: what stands at each location. A location is the list of names that lead to it from
the root, which is a directory and has no entry of its own. Every entry is a name in a directory.

The files are the caller's own. A mode says what the caller may do with a file, unless modes do not
bind the caller. Directories have no modes: the caller may list, enter and change all of them.
-/
import AlphaCodemod.FileSystem.Fault
import AlphaCodemod.Path

namespace AlphaCodemod

/-- A place in a file system, by the names that lead there from the root. -/
abbrev Location := List Name

inductive Node where
  | directory
  | file (content : Bytes) (mode : Nat)
  | link (target : Path)
deriving DecidableEq, Repr

namespace FileSystem

/-- A name has at most this many bytes. -/
def nameLimit : Nat := 255

/-- Whether an entry can have the name: `.` and `..` are taken in every directory, and no path can
spell a name that is empty or has a slash or a NUL in it. -/
def isName (n : Name) : Bool :=
  n ≠ [] && n ≠ Path.here && n ≠ Path.up && !n.contains Path.slash && !n.contains 0 &&
    n.length ≤ nameLimit

/-! ## Entries -/

/-- What stands at a location by the given entries. -/
def nodeAmong (entries : List (Location × Node)) (l : Location) : Option Node :=
  if l = [] then some .directory else entries.lookup l

/-- Whether a location is a name in a directory. -/
def isHoused (entries : List (Location × Node)) (l : Location) : Bool :=
  l.getLast?.any isName && nodeAmong entries l.dropLast = some .directory

/-- Entries with a node at a location, in place of the one that stands there. -/
def setAmong (entries : List (Location × Node)) (l : Location) (n : Node) :
    List (Location × Node) :=
  if (entries.lookup l).isSome then entries.map fun e => if e.1 = l then (l, n) else e
  else entries ++ [(l, n)]

variable {entries : List (Location × Node)} {l d : Location} {n : Node}

theorem ne_nil_of_isHoused (h : isHoused entries l = true) : l ≠ [] := by
  rintro rfl
  simp [isHoused] at h

theorem lookup_cons (k : Location) (m : Node) :
    List.lookup d ((k, m) :: entries) = if d = k then some m else entries.lookup d := by
  by_cases h : d = k
  · simp [h]
  · rw [List.lookup_cons, beq_eq_false_iff_ne.2 h, if_neg h]

theorem lookup_map_same :
    (entries.map fun e => if e.1 = l then (l, n) else e).lookup d =
      if d = l then (entries.lookup l).map fun _ => n else entries.lookup d := by
  induction entries with
  | nil => simp
  | cons e es ih =>
    obtain ⟨k, m⟩ := e
    rw [List.map_cons]
    by_cases hk : k = l
    · simp only [hk, if_true, lookup_cons, ih]
      split <;> rfl
    · simp only [hk, if_false, lookup_cons, ih, Ne.symm hk]
      grind

theorem lookup_setAmong :
    (setAmong entries l n).lookup d = if d = l then some n else entries.lookup d := by
  unfold setAmong
  split
  · rename_i h
    obtain ⟨m, hm⟩ := Option.isSome_iff_exists.1 h
    rw [lookup_map_same, hm]
    rfl
  · rename_i h
    have hl : entries.lookup l = none := Option.not_isSome_iff_eq_none.1 h
    rw [List.lookup_append, lookup_cons]
    by_cases hd : d = l
    · simp [hd, hl]
    · simp [hd]

theorem nodeAmong_setAmong (hl : l ≠ []) :
    nodeAmong (setAmong entries l n) d = if d = l then some n else nodeAmong entries d := by
  unfold nodeAmong
  by_cases hd : d = []
  · simp [hd, Ne.symm hl]
  · simp [hd, lookup_setAmong]

theorem mem_setAmong {e : Location × Node} (h : e ∈ setAmong entries l n) :
    e.1 = l ∨ e ∈ entries := by
  unfold setAmong at h
  split at h
  · obtain ⟨e', he', rfl⟩ := List.mem_map.1 h
    by_cases hl : e'.1 = l
    · exact Or.inl (by simp [hl])
    · exact Or.inr (by simpa [hl] using he')
  · rcases List.mem_append.1 h with h | h
    · exact Or.inr h
    · exact Or.inl (by rw [List.mem_singleton.1 h])

theorem nodup_setAmong (h : (entries.map Prod.fst).Nodup) :
    ((setAmong entries l n).map Prod.fst).Nodup := by
  unfold setAmong
  split
  · have same : (fun e : Location × Node => (if e.1 = l then (l, n) else e).1) = Prod.fst := by
      funext e
      split <;> simp_all
    simpa [List.map_map, Function.comp_def, same] using h
  · rename_i hl
    rw [List.map_append, List.nodup_append]
    refine ⟨h, by simp, fun a ha b hb same => hl ?_⟩
    obtain ⟨e, he, rfl⟩ := List.mem_map.1 ha
    simp only [List.map_cons, List.map_nil, List.mem_singleton] at hb
    exact List.lookup_isSome_iff.2 ⟨e, he, by simp [same, hb]⟩

theorem housed_setAmong (h : ∀ e ∈ entries, isHoused entries e.1 = true)
    (hl : isHoused entries l = true)
    (hn : n = .directory ∨ nodeAmong entries l ≠ some .directory) :
    ∀ e ∈ setAmong entries l n, isHoused (setAmong entries l n) e.1 = true := by
  intro e he
  have old : isHoused entries e.1 = true := by
    rcases mem_setAmong he with same | he
    · rw [same, hl]
    · exact h e he
  simp only [isHoused, Bool.and_eq_true, decide_eq_true_eq] at old ⊢
  refine ⟨old.1, ?_⟩
  rw [nodeAmong_setAmong (ne_nil_of_isHoused hl)]
  split
  · rename_i parent
    rcases hn with rfl | hn
    · rfl
    · exact absurd (parent ▸ old.2) hn
  · exact old.2

theorem lookup_filter (p : Location → Bool) :
    (entries.filter fun e => p e.1).lookup d = if p d then entries.lookup d else none := by
  induction entries with
  | nil => simp
  | cons e es ih =>
    obtain ⟨k, m⟩ := e
    by_cases hk : p k = true
    · simp only [hk, List.filter_cons_of_pos, lookup_cons, ih]
      split <;> simp_all
    · simp only [hk, Bool.false_eq_true, not_false_eq_true, List.filter_cons_of_neg, lookup_cons, ih]
      grind

theorem housed_filter (h : ∀ e ∈ entries, isHoused entries e.1 = true) (l : Location) :
    ∀ e ∈ entries.filter (fun e => !l.isPrefixOf e.1),
      isHoused (entries.filter fun e => !l.isPrefixOf e.1) e.1 = true := by
  intro e he
  obtain ⟨he, kept⟩ := List.mem_filter.1 he
  have old := h e he
  simp only [isHoused, Bool.and_eq_true, decide_eq_true_eq] at old ⊢
  refine ⟨old.1, ?_⟩
  have parent : (!l.isPrefixOf e.1.dropLast) = true := by
    simp only [Bool.not_eq_true', ← Bool.not_eq_true, List.isPrefixOf_iff_prefix] at kept ⊢
    exact fun below => kept (below.trans (List.dropLast_prefix _))
  have := old.2
  unfold nodeAmong at this ⊢
  rw [lookup_filter fun k => !l.isPrefixOf k, if_pos parent]
  exact this

end FileSystem

namespace FileSystem

/-- What can go wrong in the replacement of a file by a temporary one, with the fault it comes to:
the temporary file cannot be made; no more than a number of bytes gets into it; it cannot be given
its mode; it cannot be moved. -/
inductive Trouble where
  | making (f : Fault)
  | filling (written : Nat) (f : Fault)
  | granting (f : Fault)
  | moving (f : Fault)
deriving DecidableEq, Repr

/-- What a device adds to what is on it: from which number on names are drawn for temporary files,
and the files that it has trouble to replace. -/
structure Device where
  draw : Nat := 0
  troubles : List (Location × Trouble) := []
deriving DecidableEq, Repr

end FileSystem

/-- The entries of a file system, one for each location in use, the working directory, whether the
caller is privileged, so that modes do not bind, and the device. -/
structure FileSystem where
  cwd : Location := []
  privileged : Bool := true
  device : FileSystem.Device := {}
  entries : List (Location × Node) := []
  nodup : (entries.map Prod.fst).Nodup := by simp
  housed : ∀ e ∈ entries, FileSystem.isHoused entries e.1 = true := by simp
deriving DecidableEq, Repr

namespace FileSystem

/-- What stands at a location. -/
def node? (fs : FileSystem) (l : Location) : Option Node := nodeAmong fs.entries l

/-! ## Changes -/

/-- Whether a node may stand at a location: it is a name in a directory, and only a directory takes
the place of a directory. -/
def admits (fs : FileSystem) (l : Location) (n : Node) : Bool :=
  isHoused fs.entries l && (n = .directory || fs.node? l ≠ some .directory)

/-- Puts a node at a location, in place of the one that stands there, if it may stand there. -/
def put (fs : FileSystem) (l : Location) (n : Node) : FileSystem :=
  if h : fs.admits l n = true then
    { fs with
      entries := setAmong fs.entries l n
      nodup := nodup_setAmong fs.nodup
      housed := by
        simp only [admits, Bool.and_eq_true, Bool.or_eq_true, decide_eq_true_eq] at h
        exact housed_setAmong fs.housed h.1 h.2 }
  else fs

/-- Takes away what stands at a location and below it. -/
def erase (fs : FileSystem) (l : Location) : FileSystem :=
  { fs with
    entries := fs.entries.filter fun e => !l.isPrefixOf e.1
    nodup := fs.nodup.sublist (List.filter_sublist.map _)
    housed := housed_filter fs.housed l }

/-- The locations from the root down to the given one, without the two. -/
def above (l : Location) : List Location :=
  (List.range' 1 (l.length - 1)).map fun k => l.take k

/-- Puts a node at a location and makes the directories above it that are not there. -/
def install (fs : FileSystem) (l : Location) (n : Node) : FileSystem :=
  let made := (above l).foldl
    (fun fs d => if (fs.node? d).isSome then fs else fs.put d .directory) fs
  made.put l n

/-! ## Directories -/

/-- The names in a directory, in the order of their bytes. -/
def namesIn (fs : FileSystem) (d : Location) : List Name :=
  (fs.entries.filterMap fun (l, _) => if l.dropLast = d then l.getLast? else none).mergeSort
    fun a b => decide (a ≤ b)

/-- No location in use has more names. -/
def height (fs : FileSystem) : Nat := (fs.entries.map fun (l, _) => l.length).foldl max 0

/-- Everything below a directory, as names from it on: each name in order, and behind the name of a
directory what is below that, down to a given depth. Links are not followed. -/
def belowWithin (fs : FileSystem) : Nat → Location → List (List Name)
  | 0, _ => []
  | depth + 1, d =>
    (fs.namesIn d).flatMap fun n =>
      [n] ::
        match fs.node? (d ++ [n]) with
        | some .directory => (fs.belowWithin depth (d ++ [n])).map (n :: ·)
        | _ => []

def below (fs : FileSystem) (d : Location) : List (List Name) := fs.belowWithin fs.height d

end FileSystem
end AlphaCodemod
