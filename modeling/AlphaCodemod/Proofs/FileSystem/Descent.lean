/-
Paths that go on from another path. Their names are the names of that path and then those that follow
(`Path.names_below`), whether it was written with a slash at its end or not, and they lead on from
where it leads (`FileSystem.resolve_below`).
-/
import AlphaCodemod.Proofs.FileSystem.Resolve

namespace AlphaCodemod

/-! ## The names of longer paths -/

namespace Path

open FileSystem (isName isName_iff)

variable {p : Path} {n : Name} {ns : List Name}

/-- The names of a path, less what a slash at its end asks for. -/
def trunk (p : Path) : List Name := (parts p.bytes).filter (· ≠ [])

theorem names_eq (p : Path) : p.names = if p.bytes.getLast? = some slash then p.trunk ++ [here] else p.trunk := rfl

theorem parts_ne_nil (bs : Bytes) : parts bs ≠ [] := by
  cases bs with
  | nil => simp [parts]
  | cons b bs =>
    unfold parts
    split
    · simp
    · split <;> simp

theorem parts_append_slash (as bs : Bytes) : parts (as ++ slash :: bs) = parts as ++ parts bs := by
  induction as with
  | nil => simp [parts]
  | cons b as ih =>
    rw [List.cons_append, parts, ih, parts]
    split
    · rfl
    · obtain ⟨m, ms, hparts⟩ := List.exists_cons_of_ne_nil (parts_ne_nil as)
      rw [hparts]
      rfl

/-- A slash goes between a path and a name, unless the path has one at its end already. -/
theorem trunk_join (hp : p.bytes ≠ []) (hn : isName n = true) : (p.join n).trunk = p.trunk ++ [n] := by
  obtain ⟨hne, -, -, hslash, -⟩ := isName_iff.1 hn
  have hname : [n].filter (· ≠ []) = [n] := by simp [hne]
  obtain ⟨bs, b, hb⟩ : ∃ bs b, p.bytes = bs ++ [b] := ⟨_, _, (List.dropLast_concat_getLast hp).symm⟩
  unfold join trunk
  rw [hb, List.getLast?_concat]
  dsimp only
  split
  · rename_i hslash'
    rw [hslash', List.append_assoc]
    simp [parts_append_slash, parts_name hslash, parts, hne]
  · rw [parts_append_slash, parts_name hslash, List.filter_append, hname]

theorem getLast?_join (hn : isName n = true) : (p.join n).bytes.getLast? ≠ some slash := by
  obtain ⟨hne, -, -, hslash, -⟩ := isName_iff.1 hn
  have hlast : n.getLast? ≠ some slash := fun h => hslash (List.mem_of_getLast? h)
  have hends (bs : Bytes) : (bs ++ n).getLast? = n.getLast? := by
    rw [List.getLast?_append, List.getLast?_eq_some_getLast hne, Option.some_or]
  unfold join
  split
  · exact hlast
  · split
    · rwa [hends]
    · rwa [List.append_cons, hends]

theorem below_concat (p : Path) (ns : List Name) (n : Name) : p.below (ns ++ [n]) = (p.below ns).join n := by
  simp [below]

theorem prefix_bytes_below (p : Path) (ns : List Name) : p.bytes <+: (p.below ns).bytes := by
  induction ns using List.reverseRecOn with
  | nil => exact List.prefix_refl _
  | append_singleton ns n ih =>
    rw [below_concat]
    refine ih.trans ?_
    unfold join
    split
    · rename_i hnil
      rw [List.getLast?_eq_none_iff.1 hnil]
      exact List.nil_prefix
    · split <;> exact List.prefix_append _ _

theorem bytes_below_ne_nil (hp : p.bytes ≠ []) (ns : List Name) : (p.below ns).bytes ≠ [] := by
  intro hnil
  have hprefix := prefix_bytes_below p ns
  rw [hnil] at hprefix
  exact hp (List.prefix_nil.1 hprefix)

theorem trunk_below (hp : p.bytes ≠ []) (hns : ∀ n ∈ ns, isName n = true) : (p.below ns).trunk = p.trunk ++ ns := by
  induction ns using List.reverseRecOn with
  | nil => simp [below]
  | append_singleton ns n ih =>
    have hns' : ∀ k ∈ ns, isName k = true := fun k hk => hns k (by simp [hk])
    rw [below_concat, trunk_join (bytes_below_ne_nil hp ns) (hns n (by simp)), ih hns', List.append_assoc]

theorem names_below (hp : p.bytes ≠ []) (hne : ns ≠ []) (hns : ∀ n ∈ ns, isName n = true) :
    (p.below ns).names = p.trunk ++ ns := by
  rw [names_eq, if_neg, trunk_below hp hns]
  obtain ⟨a, n, rfl⟩ : ∃ a n, ns = a ++ [n] := ⟨_, _, (List.dropLast_concat_getLast hne).symm⟩
  rw [below_concat]
  exact getLast?_join (hns n (by simp))

theorem fileName?_below (hp : p.bytes ≠ []) (hns : ∀ k ∈ ns ++ [n], isName k = true) :
    (p.below (ns ++ [n])).fileName? = some n := by
  obtain ⟨-, hhere, hup, -⟩ := isName_iff.1 (hns n (by simp))
  rw [fileName?, names_below hp (by simp) hns, ← List.append_assoc, List.filter_append]
  simp [hhere, hup]

theorem isAbsolute_below (hp : p.bytes ≠ []) (ns : List Name) : (p.below ns).isAbsolute = p.isAbsolute := by
  obtain ⟨more, hmore⟩ := prefix_bytes_below p ns
  unfold isAbsolute
  rw [← hmore, List.head?_append, List.head?_eq_some_head hp, Option.some_or]

end Path

namespace FileSystem

variable {fs : FileSystem} {last : Bool} {within : Location → Bool} {a l l' : Location} {xs ys : List Name} {links : Nat}

/-! ## Going on -/

/-- Names lead on from where other names have led. -/
theorem Leads.append (h : Leads fs true within links a xs l) (hys : ys ≠ [])
    (hmore : ∀ links, Leads fs last within links l ys l') : Leads fs last within links a (xs ++ ys) l' := by
  induction h with
  | done => exact hmore _
  | here hdir _ ih => exact .here hdir (ih hmore)
  | up hdir _ ih => exact .up hdir (ih hmore)
  | enter hnode hlink hin _ ih => exact .enter hnode hlink hin (ih hmore)
  | @through _ _ _ _ ns t hnode hin _ _ ih =>
    have hrest := ih hmore
    rw [List.append_assoc] at hrest
    exact .through hnode hin (Or.inl (List.append_ne_nil_of_right_ne_nil ns hys)) hrest
  | stay _ _ hstay => cases hstay

/-- Names lead to the same place without a `.` at their end. -/
theorem Leads.of_concat_here (h : Leads fs true within links a (xs ++ [Path.here]) l) :
    Leads fs true within links a xs l := by
  -- no entry has the name `.`, so that it is neither entered nor a link
  have hname {l : Location} {m : Node} : fs.node? (l ++ [Path.here]) ≠ some m := by
    intro hnode
    exact (isName_iff.1 (housed_of_node? hnode).1).2.1 rfl
  generalize hns : xs ++ [Path.here] = ns at h
  induction h generalizing xs with
  | done => simp at hns
  | here hdir rest ih =>
    rcases List.append_eq_cons_iff.1 hns with ⟨rfl, hrest⟩ | ⟨xs', rfl, hrest⟩
    · cases hrest
      exact rest
    · exact .here hdir (ih hrest.symm)
  | up hdir _ ih =>
    rcases List.append_eq_cons_iff.1 hns with ⟨rfl, hrest⟩ | ⟨xs', rfl, hrest⟩
    · cases hrest
    · exact .up hdir (ih hrest.symm)
  | enter hnode hlink hin _ ih =>
    rcases List.append_eq_cons_iff.1 hns with ⟨rfl, hrest⟩ | ⟨xs', rfl, hrest⟩
    · cases hrest
      exact absurd hnode hname
    · exact .enter hnode hlink hin (ih hrest.symm)
  | through hnode hin _ _ ih =>
    rcases List.append_eq_cons_iff.1 hns with ⟨rfl, hrest⟩ | ⟨xs', rfl, hrest⟩
    · cases hrest
      exact absurd hnode hname
    · refine .through hnode hin (Or.inr rfl) (ih ?_)
      rw [hrest, List.append_assoc]
  | stay _ _ hstay => cases hstay

theorem Leads.trunk {p : Path} (h : Leads fs true within links a p.names l) : Leads fs true within links a p.trunk l := by
  rw [Path.names_eq] at h
  split at h
  · exact h.of_concat_here
  · exact h

/-- A path that goes on from another by the names of a location below leads to that location. -/
theorem resolve_below {p : Path} {ns : List Name} {m : Node} (hp : fs.resolve true p = .ok l)
    (hnode : fs.node? (l ++ ns) = some m) (hm : ∀ t, m ≠ .link t) (hns : ns ≠ []) (husable : Usable (p.below ns)) :
    fs.resolve last (p.below ns) = .ok (l ++ ns) := by
  obtain ⟨hroot, hleads⟩ := lead_eq_ok_iff.1 hp
  have hnames : ∀ n ∈ ns, isName n = true := fun n hn => isName_of_mem hnode n (by simp [hn])
  refine lead_eq_ok_iff.2 ⟨husable, ?_⟩
  have hstart : start fs.cwd (p.below ns) = start fs.cwd p := by
    unfold start
    rw [Path.isAbsolute_below hroot.nonempty]
  rw [Path.names_below hroot.nonempty hns hnames, hstart]
  exact hleads.trunk.append hns fun _ => Leads.own hnode hm

end FileSystem
end AlphaCodemod
