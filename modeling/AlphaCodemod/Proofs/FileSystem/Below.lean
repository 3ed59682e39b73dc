/-
What is below a directory: every location in use that has its names first, each once
(`mem_below`), in the order of the names that lead there, compared byte by byte (`pairwise_below`).
A directory comes before what is in it, and all of that before the next name beside it.
-/
import Mathlib.Data.List.Nodup
import AlphaCodemod.Proofs.FileSystem.Contents
import AlphaCodemod.Proofs.FileSystem.Resolve

namespace AlphaCodemod
namespace FileSystem

variable {fs : FileSystem} {d : Location} {n : Name} {ns : List Name}

/-- The order of names: the first byte in which they differ decides, and the shorter of two names comes first if
none does. -/
abbrev NameLt : Name → Name → Prop := List.Lex (· < ·)

/-- The order of a walk: the first name in which two locations differ decides, and what is above comes first if
none does. -/
abbrev WalkLt : List Name → List Name → Prop := List.Lex NameLt

/-! ## Names in a directory -/

theorem eq_append_iff {l : Location} : l = d ++ [n] ↔ l.dropLast = d ∧ l.getLast? = some n := by
  constructor
  · rintro rfl
    simp
  · rintro ⟨rfl, hn⟩
    exact (List.dropLast_append_getLast? n hn).symm

theorem mem_entries_iff {l : Location} {m : Node} (hl : l ≠ []) : (l, m) ∈ fs.entries ↔ fs.node? l = some m := by
  constructor
  · exact node?_of_mem
  · intro h
    rw [node?_eq_lookup hl] at h
    exact mem_of_lookup h

theorem mem_namesIn : n ∈ fs.namesIn d ↔ ∃ m, fs.node? (d ++ [n]) = some m := by
  rw [namesIn, List.mem_mergeSort, List.mem_filterMap]
  constructor
  · rintro ⟨⟨l, m⟩, he, hn⟩
    rw [eq_append_iff.2 (Option.ite_none_right_eq_some.1 hn)] at he
    exact ⟨m, node?_of_mem he⟩
  · rintro ⟨m, hm⟩
    refine ⟨(d ++ [n], m), (mem_entries_iff (by simp)).2 hm, ?_⟩
    simp

theorem nodup_namesIn : (fs.namesIn d).Nodup := by
  refine (List.mergeSort_perm _ _).nodup_iff.2 ?_
  -- the name and the directory together are the location, and no location has two entries
  have hlocations := List.Nodup.filterMap
    (f := fun l : Location => if l.dropLast = d then l.getLast? else none) (fun a b n ha hb => ?_) fs.nodup
  · rwa [List.filterMap_map] at hlocations
  · simp only [Option.mem_def, Option.ite_none_right_eq_some] at ha hb
    rw [eq_append_iff.2 ha, eq_append_iff.2 hb]

theorem pairwise_namesIn : (fs.namesIn d).Pairwise NameLt := by
  have hsorted : (fs.namesIn d).Pairwise fun a b => decide (a ≤ b) = true := by
    refine List.pairwise_mergeSort ?_ ?_ _
    · intro a b c hab hbc
      exact decide_eq_true (List.le_trans (of_decide_eq_true hab) (of_decide_eq_true hbc))
    · intro a b
      rw [Bool.or_eq_true, decide_eq_true_iff, decide_eq_true_iff]
      exact List.le_total a b
  refine (hsorted.and nodup_namesIn).imp ?_
  rintro a b ⟨hle, hne⟩
  exact (List.le_iff_lt_or_eq.1 (of_decide_eq_true hle)).resolve_right hne

/-! ## Down to a depth -/

/-- A name in a directory and what is below it. -/
def behind (fs : FileSystem) (depth : Nat) (d : Location) (n : Name) : List (List Name) :=
  [n] :: if fs.node? (d ++ [n]) = some .directory then (fs.belowWithin depth (d ++ [n])).map (n :: ·) else []

theorem belowWithin_succ (depth : Nat) (d : Location) :
    fs.belowWithin (depth + 1) d = (fs.namesIn d).flatMap (fs.behind depth d) := by
  rw [belowWithin]
  refine congrArg (fun step => (fs.namesIn d).flatMap step) (funext fun n => ?_)
  unfold behind
  rcases fs.node? (d ++ [n]) with _ | _ | _ | _ <;> rfl

theorem mem_behind {depth : Nat} :
    ns ∈ fs.behind depth d n ↔
      ns = [n] ∨ fs.node? (d ++ [n]) = some .directory ∧ ∃ ms ∈ fs.belowWithin depth (d ++ [n]), ns = n :: ms := by
  rw [behind, List.mem_cons]
  refine or_congr_right ?_
  split
  · rename_i hdir
    simp only [List.mem_map, hdir, true_and, eq_comm]
  · rename_i hdir
    simp [hdir]

theorem mem_belowWithin {depth : Nat} :
    ns ∈ fs.belowWithin depth d ↔ ns ≠ [] ∧ ns.length ≤ depth ∧ ∃ m, fs.node? (d ++ ns) = some m := by
  induction depth generalizing d ns with
  | zero =>
    constructor
    · intro h
      cases h
    · rintro ⟨hns, hlength, -⟩
      exact absurd (List.length_eq_zero_iff.1 (Nat.le_zero.1 hlength)) hns
  | succ depth ih =>
    rw [belowWithin_succ, List.mem_flatMap]
    constructor
    · rintro ⟨n, hn, hns⟩
      rcases mem_behind.1 hns with rfl | ⟨-, ms, hms, rfl⟩
      · exact ⟨by simp, by simp, mem_namesIn.1 hn⟩
      · obtain ⟨-, hlength, m, hm⟩ := ih.1 hms
        refine ⟨by simp, Nat.succ_le_succ hlength, m, ?_⟩
        rwa [List.append_cons]
    · rintro ⟨hns, hlength, m, hm⟩
      obtain ⟨n, ms, rfl⟩ := List.exists_cons_of_ne_nil hns
      rw [List.append_cons] at hm
      by_cases hms : ms = []
      · subst hms
        rw [List.append_nil] at hm
        exact ⟨n, mem_namesIn.2 ⟨m, hm⟩, mem_behind.2 (Or.inl rfl)⟩
      · -- there is more behind the name, so it is that of a directory
        have hdir := node?_take hm hms
        have hmore : ms ∈ fs.belowWithin depth (d ++ [n]) := ih.2 ⟨hms, Nat.le_of_succ_le_succ hlength, m, hm⟩
        exact ⟨n, mem_namesIn.2 ⟨_, hdir⟩, mem_behind.2 (Or.inr ⟨hdir, ms, hmore, rfl⟩)⟩

theorem pairwise_behind {depth : Nat} (h : (fs.belowWithin depth (d ++ [n])).Pairwise WalkLt) :
    (fs.behind depth d n).Pairwise WalkLt := by
  rw [behind, List.pairwise_cons]
  split
  · constructor
    · intro ns hns
      obtain ⟨ms, hms, rfl⟩ := List.mem_map.1 hns
      obtain ⟨k, ks, rfl⟩ := List.exists_cons_of_ne_nil (mem_belowWithin.1 hms).1
      exact List.Lex.cons List.Lex.nil
    · rw [List.pairwise_map]
      exact h.imp fun hlt => List.Lex.cons hlt
  · simp

theorem pairwise_belowWithin (depth : Nat) (d : Location) : (fs.belowWithin depth d).Pairwise WalkLt := by
  induction depth generalizing d with
  | zero => exact List.Pairwise.nil
  | succ depth ih =>
    rw [belowWithin_succ, List.pairwise_flatMap]
    constructor
    · intro n _
      exact pairwise_behind (ih (d ++ [n]))
    · -- what is behind two names differs in the first
      apply pairwise_namesIn.imp
      intro a b hab x hx y hy
      have hhead {n : Name} {ns : List Name} (hns : ns ∈ fs.behind depth d n) : ∃ ms, ns = n :: ms := by
        rcases mem_behind.1 hns with rfl | ⟨-, ms, -, rfl⟩
        · exact ⟨[], rfl⟩
        · exact ⟨ms, rfl⟩
      obtain ⟨xs, rfl⟩ := hhead hx
      obtain ⟨ys, rfl⟩ := hhead hy
      exact List.Lex.rel hab

/-! ## All the way down -/

theorem length_le_height {l : Location} {m : Node} (h : fs.node? l = some m) : l.length ≤ fs.height := by
  by_cases hl : l = []
  · simp [hl]
  · have hmem : l.length ∈ fs.entries.map fun e => e.1.length :=
      List.mem_map.2 ⟨(l, m), (mem_entries_iff hl).2 h, rfl⟩
    show l.length ≤ List.foldl max 0 _
    rw [List.foldl_max_eq_max (List.ne_nil_of_mem hmem)]
    exact Nat.le_trans (List.le_max_of_mem hmem) (Nat.le_max_right _ _)

theorem mem_below : ns ∈ fs.below d ↔ ns ≠ [] ∧ ∃ m, fs.node? (d ++ ns) = some m := by
  rw [below, mem_belowWithin]
  constructor
  · rintro ⟨hns, -, hm⟩
    exact ⟨hns, hm⟩
  · rintro ⟨hns, m, hm⟩
    have hlength := length_le_height hm
    rw [List.length_append] at hlength
    exact ⟨hns, by omega, m, hm⟩

theorem pairwise_below (d : Location) : (fs.below d).Pairwise WalkLt := pairwise_belowWithin fs.height d

end FileSystem
end AlphaCodemod
