/-
File systems that differ in nothing but the contents of their files. Where a path leads, which names
a directory has and which candidates a walk finds is the same in all of them, since nothing of this
looks into a file. Writing to a file changes one content (`withContent`), so every state of a run is
the first one with other contents.
-/
import AlphaCodemod.Scan.Options

namespace AlphaCodemod

/-- The node with another content, if it is a file. -/
def Node.mapContent (f : Bytes → Bytes) : Node → Node
  | .directory => .directory
  | .file content mode => .file (f content) mode
  | .link target => .link target

namespace Node

variable {f g : Bytes → Bytes} {n : Node}

@[simp] theorem mapContent_eq_directory : n.mapContent f = .directory ↔ n = .directory := by
  cases n <;> simp [mapContent]

theorem mapContent_mapContent : (n.mapContent f).mapContent g = n.mapContent (g ∘ f) := by
  cases n <;> rfl

end Node

namespace FileSystem

variable {entries : List (Location × Node)} {l : Location}

theorem lookup_map_snd (g : Location → Node → Node) :
    (entries.map fun e => (e.1, g e.1 e.2)).lookup l = (entries.lookup l).map (g l) := by
  induction entries with
  | nil => rfl
  | cons e es ih =>
    obtain ⟨k, n⟩ := e
    rw [List.map_cons, lookup_cons, lookup_cons, ih]
    split
    · rename_i h
      rw [h, Option.map_some]
    · rfl

theorem nodeAmong_mapContent (f : Location → Bytes → Bytes) :
    nodeAmong (entries.map fun e => (e.1, e.2.mapContent (f e.1))) l =
      (nodeAmong entries l).map (Node.mapContent (f l)) := by
  unfold nodeAmong
  split
  · rfl
  · exact lookup_map_snd fun l n => n.mapContent (f l)

theorem isHoused_mapContent (f : Location → Bytes → Bytes) :
    isHoused (entries.map fun e => (e.1, e.2.mapContent (f e.1))) l = isHoused entries l := by
  unfold isHoused
  rw [nodeAmong_mapContent]
  simp

/-- The file system in which every file has another content: what `f` makes of its location and its
content. -/
def withContents (fs : FileSystem) (f : Location → Bytes → Bytes) : FileSystem where
  cwd := fs.cwd
  privileged := fs.privileged
  device := fs.device
  entries := fs.entries.map fun e => (e.1, e.2.mapContent (f e.1))
  nodup := by
    rw [List.map_map]
    exact fs.nodup
  housed := by
    intro e he
    obtain ⟨e', he', rfl⟩ := List.mem_map.1 he
    rw [isHoused_mapContent]
    exact fs.housed e' he'

/-- The file system in which one file has another content. -/
def withContent (fs : FileSystem) (l : Location) (content : Bytes) : FileSystem :=
  fs.withContents fun k old => if k = l then content else old

variable (fs : FileSystem) (f g : Location → Bytes → Bytes)

@[simp] theorem cwd_withContents : (fs.withContents f).cwd = fs.cwd := rfl

@[simp] theorem device_withContents : (fs.withContents f).device = fs.device := rfl

@[simp] theorem mayRead_withContents (mode : Nat) : (fs.withContents f).mayRead mode = fs.mayRead mode := rfl

@[simp] theorem mayWrite_withContents (mode : Nat) : (fs.withContents f).mayWrite mode = fs.mayWrite mode := rfl

@[simp] theorem node?_withContents : (fs.withContents f).node? l = (fs.node? l).map (Node.mapContent (f l)) :=
  nodeAmong_mapContent f

theorem node?_withContent_of_ne {k : Location} (content : Bytes) (h : k ≠ l) :
    (fs.withContent l content).node? k = fs.node? k := by
  rw [withContent, node?_withContents]
  rcases fs.node? k with _ | _ | _ | _ <;> simp [h, Node.mapContent]

/-! ## Equal file systems -/

variable {fs}

theorem eq_of_entries {fs' : FileSystem} (hcwd : fs.cwd = fs'.cwd) (hprivileged : fs.privileged = fs'.privileged)
    (hdevice : fs.device = fs'.device) (h : fs.entries = fs'.entries) : fs = fs' := by
  cases fs
  cases fs'
  cases hcwd
  cases hprivileged
  cases hdevice
  cases h
  rfl

theorem lookup_of_mem {n : Node} (hnodup : (entries.map Prod.fst).Nodup) (h : (l, n) ∈ entries) :
    entries.lookup l = some n := by
  induction entries with
  | nil => cases h
  | cons e es ih =>
    obtain ⟨k, m⟩ := e
    rw [List.map_cons, List.nodup_cons] at hnodup
    rw [lookup_cons]
    rcases List.mem_cons.1 h with heq | hmem
    · cases heq
      rw [if_pos rfl]
    · have hk : l ≠ k := by
        rintro rfl
        exact hnodup.1 (List.mem_map.2 ⟨_, hmem, rfl⟩)
      rw [if_neg hk, ih hnodup.2 hmem]

theorem node?_of_mem {n : Node} (h : (l, n) ∈ fs.entries) : fs.node? l = some n := by
  have hl : l ≠ [] := ne_nil_of_isHoused (fs.housed _ h)
  unfold node? nodeAmong
  rw [if_neg hl]
  exact lookup_of_mem fs.nodup h

variable {f g}

theorem withContents_congr (h : ∀ l content mode, fs.node? l = some (.file content mode) → f l content = g l content) :
    fs.withContents f = fs.withContents g := by
  refine eq_of_entries rfl rfl rfl (List.map_congr_left ?_)
  rintro ⟨l, n⟩ he
  cases n with
  | directory => rfl
  | link target => rfl
  | file content mode => simp only [Node.mapContent, h l content mode (node?_of_mem he)]

theorem withContents_eq_self (h : ∀ l content mode, fs.node? l = some (.file content mode) → f l content = content) :
    fs.withContents f = fs := by
  rw [withContents_congr (g := fun _ content => content) h]
  refine eq_of_entries rfl rfl rfl ?_
  have same : (fun e : Location × Node => (e.1, e.2.mapContent fun content => content)) = id := by
    funext ⟨l, n⟩
    cases n <;> rfl
  simp only [withContents, same, List.map_id]

theorem withContents_withContents :
    (fs.withContents f).withContents g = fs.withContents fun l content => g l (f l content) := by
  refine eq_of_entries rfl rfl rfl ?_
  simp only [withContents, List.map_map]
  refine List.map_congr_left fun e _ => ?_
  simp [Node.mapContent_mapContent, Function.comp_def]

/-! ## Where paths lead -/

variable (fs f)

theorem followWith_withContents (last : Bool) (within : Location → Bool)
    (onLink : Location → List Name → Except Fault Location) (l : Location) (ns : List Name) :
    (fs.withContents f).followWith last within onLink l ns = fs.followWith last within onLink l ns := by
  induction ns generalizing l with
  | nil => rfl
  | cons n ns ih =>
    unfold followWith
    rw [node?_withContents, node?_withContents]
    rcases fs.node? l with _ | _ | _ | _
    · rfl
    · simp only [Option.map_some, Node.mapContent, ih]
      rcases fs.node? (l ++ [n]) with _ | _ | _ | _ <;> rfl
    · rfl
    · rfl

theorem follow_withContents (last : Bool) (within : Location → Bool) (links : Nat) (l : Location) (ns : List Name) :
    (fs.withContents f).follow last within links l ns = fs.follow last within links l ns := by
  induction links generalizing l ns with
  | zero => exact followWith_withContents fs f last within _ l ns
  | succ links ih =>
    have same : (fs.withContents f).follow last within links = fs.follow last within links := by
      funext l ns
      exact ih l ns
    rw [follow, follow, same]
    exact followWith_withContents fs f last within _ l ns

theorem lead_withContents (last : Bool) (within : Location → Bool) (p : Path) :
    (fs.withContents f).lead last within p = fs.lead last within p := by
  unfold lead
  rw [follow_withContents, cwd_withContents]

@[simp] theorem resolve_withContents (last : Bool) (p : Path) :
    (fs.withContents f).resolve last p = fs.resolve last p := lead_withContents fs f last _ p

theorem resolve_withContent (l : Location) (content : Bytes) (last : Bool) (p : Path) :
    (fs.withContent l content).resolve last p = fs.resolve last p := resolve_withContents fs _ last p

@[simp] theorem canonical_withContents (p : Path) : (fs.withContents f).canonical p = fs.canonical p := by
  unfold canonical
  rw [lead_withContents]

@[simp] theorem isFile_withContents (p : Path) : (fs.withContents f).isFile p = fs.isFile p := by
  unfold isFile find
  rw [resolve_withContents]
  rcases fs.resolve true p with _ | l
  · rfl
  · simp only [bind, Except.bind, node?_withContents]
    rcases fs.node? l with _ | _ | _ | _ <;> rfl

@[simp] theorem isDirectory_withContents (p : Path) : (fs.withContents f).isDirectory p = fs.isDirectory p := by
  unfold isDirectory find
  rw [resolve_withContents]
  rcases fs.resolve true p with _ | l
  · rfl
  · simp only [bind, Except.bind, node?_withContents]
    rcases fs.node? l with _ | _ | _ | _ <;> rfl

/-! ## What a walk meets -/

@[simp] theorem namesIn_withContents (d : Location) : (fs.withContents f).namesIn d = fs.namesIn d := by
  simp only [namesIn, withContents, List.filterMap_map]
  rfl

theorem height_withContents : (fs.withContents f).height = fs.height := by
  simp only [height, withContents, List.map_map]
  rfl

theorem belowWithin_withContents (depth : Nat) (d : Location) :
    (fs.withContents f).belowWithin depth d = fs.belowWithin depth d := by
  induction depth generalizing d with
  | zero => rfl
  | succ depth ih =>
    unfold belowWithin
    rw [namesIn_withContents]
    refine congrArg (fun step => (fs.namesIn d).flatMap step) (funext fun n => ?_)
    rw [node?_withContents]
    rcases fs.node? (d ++ [n]) with _ | _ | _ | _
    · rfl
    · simp only [Option.map_some, Node.mapContent, ih]
    · rfl
    · rfl

theorem below_withContents (d : Location) : (fs.withContents f).below d = fs.below d := by
  unfold below
  rw [height_withContents, belowWithin_withContents]

end FileSystem

namespace ScanOptions

variable (o : ScanOptions) (fs : FileSystem) (f : Location → Bytes → Bytes)

theorem isCandidate_withContents : o.isCandidate (fs.withContents f) = o.isCandidate fs := by
  funext relative
  simp only [isCandidate, FileSystem.isFile_withContents]

theorem readFault?_withContents (l : Location) : o.readFault? (fs.withContents f) l = o.readFault? fs l := by
  funext relative
  unfold readFault?
  rw [FileSystem.resolve_withContents, FileSystem.node?_withContents]
  rcases fs.node? (l ++ relative) with _ | _ | _ | _ <;> rfl

theorem walkFrom_withContents (l : Location) : o.walkFrom (fs.withContents f) l = o.walkFrom fs l := by
  unfold walkFrom
  rw [FileSystem.below_withContents, readFault?_withContents]

theorem visited_withContents : o.visited (fs.withContents f) = o.visited fs := by
  unfold visited FileSystem.find
  rw [FileSystem.resolve_withContents, FileSystem.resolve_withContents]
  rcases fs.resolve false o.root with _ | k
  · rfl
  simp only [bind, Except.bind, FileSystem.node?_withContents, walkFrom_withContents]
  rcases fs.node? k with _ | n
  · rfl
  rcases fs.resolve true o.root with _ | l
  · rfl
  · simp only [Option.map_some, pure, Except.pure]
    rcases fs.node? l with _ | _ | _ | _ <;> rfl

/-- A walk finds the same candidates whatever the contents of the files are. -/
theorem candidates_withContents : o.candidates (fs.withContents f) = o.candidates fs := by
  unfold candidates candidatesAmong
  rw [visited_withContents, isCandidate_withContents]

end ScanOptions
end AlphaCodemod
