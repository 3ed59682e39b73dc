/-
What it means that paths are completed: every file that one of them leads to has its edited text for
content, and everything else is as it was (`FileSystem.completing`). An edit of an edited text changes
nothing, so it does not matter how often and by which of its paths a file is come upon: completing more
paths later is the same as completing all of them at once (`completing_append`).
-/
import AlphaCodemod.Source.Edits
import AlphaCodemod.Proofs.FileSystem.Replace
import AlphaCodemod.Proofs.Source.Content
import AlphaCodemod.Proofs.Text.Utf8

namespace AlphaCodemod

/-! ## Edited contents -/

namespace Source

/-- The content of a file after an edit of its text; what is no text stays as it is. -/
def rewritten (content : Bytes) : Bytes :=
  match Utf8.decode? content with
  | some cs => Utf8.encode (edited cs).content
  | none => content

theorem sites_split_content (cs : List Char) : (split (edited cs).content).sites = [] := by
  refine sites_eq_nil_of_isPlain ?_
  rw [content_edited]
  exact isPlain_editedOf (isPlain_split cs).1 (isPlain_split cs).2

theorem count_eq_zero_iff {cs : List Char} : (edited cs).count = 0 ↔ (split cs).sites = [] := by
  rw [count_edited, List.length_eq_zero_iff]

theorem content_of_count_eq_zero {cs : List Char} (h : (edited cs).count = 0) : (edited cs).content = cs :=
  (content_eq_iff cs).2 (count_eq_zero_iff.1 h)

theorem rewritten_of_decode? {content : Bytes} {cs : List Char} (h : Utf8.decode? content = some cs) :
    rewritten content = Utf8.encode (edited cs).content := by
  unfold rewritten
  rw [h]

/-- A text in edited content has nothing left to be replaced. -/
theorem count_of_decode?_rewritten {content : Bytes} {cs : List Char} (h : Utf8.decode? (rewritten content) = some cs) :
    (edited cs).count = 0 := by
  unfold rewritten at h
  split at h
  · rw [Utf8.decode?_encode] at h
    obtain rfl := Option.some.inj h
    exact count_eq_zero_iff.2 (sites_split_content _)
  · rename_i hnone
    rw [hnone] at h
    cases h

theorem rewritten_of_count_eq_zero {content : Bytes} {cs : List Char} (h : Utf8.decode? content = some cs)
    (hcount : (edited cs).count = 0) : rewritten content = content := by
  rw [rewritten_of_decode? h, content_of_count_eq_zero hcount]
  exact (Utf8.decode?_eq_some_iff.1 h).symm

@[simp] theorem rewritten_rewritten (content : Bytes) : rewritten (rewritten content) = rewritten content := by
  cases h : Utf8.decode? (rewritten content) with
  | none =>
    nth_rewrite 1 [rewritten]
    rw [h]
  | some cs => exact rewritten_of_count_eq_zero h (count_of_decode?_rewritten h)

end Source

/-! ## Completed paths -/

namespace FileSystem

variable (fs : FileSystem) {l : Location} {p : Path}

/-- Whether one of the paths leads to a location. -/
def isReached (ps : List Path) (l : Location) : Bool := ps.any fun p => (fs.resolve true p).toOption = some l

/-- The file system in which the files that the paths lead to are edited. -/
def completing (ps : List Path) : FileSystem :=
  fs.withContents fun l content => if fs.isReached ps l then Source.rewritten content else content

variable {fs}

theorem isReached_iff {ps : List Path} : fs.isReached ps l = true ↔ ∃ p ∈ ps, fs.resolve true p = .ok l := by
  simp only [isReached, List.any_eq_true, decide_eq_true_eq]
  refine exists_congr fun p => and_congr_right fun _ => ?_
  cases fs.resolve true p <;> simp [Except.toOption]

@[simp] theorem isReached_completing (ps qs : List Path) : (fs.completing ps).isReached qs = fs.isReached qs := by
  funext l
  unfold isReached completing
  simp only [resolve_withContents]

@[simp] theorem completing_nil : fs.completing [] = fs := withContents_eq_self fun _ _ _ _ => rfl

theorem completing_append (ps qs : List Path) : (fs.completing ps).completing qs = fs.completing (ps ++ qs) := by
  have hreached (l : Location) : fs.isReached (ps ++ qs) l = (fs.isReached ps l || fs.isReached qs l) := by
    simp [isReached]
  rw [completing, isReached_completing, completing, withContents_withContents]
  refine withContents_congr fun l content mode _ => ?_
  rw [hreached]
  cases fs.isReached ps l <;> cases fs.isReached qs l <;> simp

theorem node?_completing (ps : List Path) :
    (fs.completing ps).node? l =
      if fs.isReached ps l then (fs.node? l).map (Node.mapContent Source.rewritten) else fs.node? l := by
  rw [completing, node?_withContents]
  split
  · rfl
  · rcases fs.node? l with _ | _ | _ | _ <;> rfl

/-- A path that leads to one file completes that one. -/
theorem completing_singleton {content : Bytes} {mode : Nat} (h : LeadsToFile fs p l content mode) :
    fs.completing [p] = fs.withContent l (Source.rewritten content) := by
  refine withContents_congr fun k old mode' hk => ?_
  have hreached : fs.isReached [p] k = true ↔ k = l := by
    rw [isReached_iff]
    simp only [List.mem_singleton, exists_eq_left, h.resolve, Except.ok.injEq]
    exact eq_comm
  by_cases hkl : k = l
  · subst hkl
    rw [h.node] at hk
    cases hk
    rw [if_pos (hreached.2 rfl), if_pos rfl]
  · rw [if_neg fun hr => hkl (hreached.1 hr), if_neg hkl]

theorem leadsToFile_completing {content : Bytes} {mode : Nat} (h : LeadsToFile fs p l content mode) (ps : List Path) :
    LeadsToFile (fs.completing ps) p l (if fs.isReached ps l then Source.rewritten content else content) mode where
  resolve := by
    rw [completing, resolve_withContents]
    exact h.resolve
  node := by
    rw [completing, node?_withContents, h.node]
    rfl

end FileSystem
end AlphaCodemod
