/-
Where paths lead, as a relation (`Leads`): one rule for each thing that can happen to a name, with
no order of checks and no faults. Following names gives a location exactly if the names lead there
(`follow_eq_ok_iff`). What is proved about paths is proved by induction on this relation: the path
that spells a location from the root on leads to it (`resolve_absolute`), and a path that does not end
at a link leads to the same location whether links at the end are followed or not.
-/
import Mathlib.Data.List.Induction
import AlphaCodemod.FileSystem.Resolve

namespace AlphaCodemod

/-! ## The names of spelled paths -/

namespace Path

theorem parts_append {n : Name} (hn : slash ∉ n) (bs : Bytes) : parts (n ++ slash :: bs) = n :: parts bs := by
  induction n with
  | nil => simp [parts]
  | cons b n ih =>
    rw [List.mem_cons, not_or] at hn
    rw [List.cons_append, parts, if_neg (Ne.symm hn.1), ih hn.2]

theorem parts_name {n : Name} (hn : slash ∉ n) : parts n = [n] := by
  induction n with
  | nil => rfl
  | cons b n ih =>
    rw [List.mem_cons, not_or] at hn
    rw [parts, if_neg (Ne.symm hn.1), ih hn.2]

theorem parts_joinNames {ns : List Name} (hns : ns ≠ []) (hslash : ∀ n ∈ ns, slash ∉ n) : parts (joinNames ns) = ns := by
  induction ns with
  | nil => exact absurd rfl hns
  | cons n ns ih =>
    have hn := hslash n (by simp)
    cases ns with
    | nil => exact parts_name hn
    | cons m ns =>
      rw [joinNames, parts_append hn, ih (by simp) fun k hk => hslash k (List.mem_cons_of_mem _ hk)]
      simp

theorem getLast?_joinNames {ns : List Name} {n : Name} (hn : n ≠ []) : (joinNames (ns ++ [n])).getLast? = n.getLast? := by
  induction ns with
  | nil => rfl
  | cons m ns ih =>
    obtain ⟨k, ks, hks⟩ := List.exists_cons_of_ne_nil (show ns ++ [n] ≠ [] by simp)
    rw [List.cons_append, hks, joinNames, ← hks, List.getLast?_append, List.getLast?_cons, ih,
      List.getLast?_eq_some_getLast hn]
    · rfl
    · simp

theorem mem_joinNames {ns : List Name} {b : UInt8} (h : b ∈ joinNames ns) : b = slash ∨ ∃ n ∈ ns, b ∈ n := by
  fun_induction joinNames ns with
  | case1 => cases h
  | case2 n => exact Or.inr ⟨n, by simp, h⟩
  | case3 n ns _ ih =>
    rcases List.mem_append.1 h with h | h
    · exact Or.inr ⟨n, by simp, h⟩
    · rcases List.mem_cons.1 h with h | h
      · exact Or.inl h
      · rcases ih h with h | ⟨m, hm, h⟩
        · exact Or.inl h
        · exact Or.inr ⟨m, by simp [hm], h⟩

theorem exists_mem_parts {bs : Bytes} {b : UInt8} (hb : b ∈ bs) (hslash : b ≠ slash) : ∃ n ∈ parts bs, b ∈ n := by
  induction bs with
  | nil => cases hb
  | cons c cs ih =>
    unfold parts
    split
    · rename_i hc
      have hcs : b ∈ cs := (List.mem_cons.1 hb).resolve_left fun h => hslash (h.trans hc)
      obtain ⟨n, hn, hbn⟩ := ih hcs
      exact ⟨n, by simp [hn], hbn⟩
    · cases hp : parts cs with
      | nil =>
        rcases List.mem_cons.1 hb with rfl | hb
        · exact ⟨[b], by simp⟩
        · obtain ⟨n, hn, -⟩ := ih hb
          rw [hp] at hn
          cases hn
      | cons m ms =>
        rcases List.mem_cons.1 hb with rfl | hb
        · exact ⟨b :: m, by simp⟩
        · obtain ⟨n, hn, hbn⟩ := ih hb
          rw [hp] at hn
          rcases List.mem_cons.1 hn with rfl | hn
          · exact ⟨c :: n, by simp [hbn]⟩
          · exact ⟨n, by simp [hn], hbn⟩

/-- A path that is not empty has a name to follow. -/
theorem names_ne_nil {p : Path} (h : p.bytes ≠ []) : p.names ≠ [] := by
  unfold names
  dsimp only
  split
  · simp
  · rename_i hlast
    obtain ⟨n, hn, hb⟩ := exists_mem_parts (List.getLast_mem h) fun hb => hlast (by
      rw [List.getLast?_eq_some_getLast h, hb])
    intro hnil
    have : n ∈ (parts p.bytes).filter (· ≠ []) := by
      simp [hn, List.ne_nil_of_mem hb]
    rw [hnil] at this
    cases this

end Path

namespace FileSystem

/-! ## Entries stand in directories -/

theorem mem_of_lookup {entries : List (Location × Node)} {l : Location} {n : Node} (h : entries.lookup l = some n) :
    (l, n) ∈ entries := by
  induction entries with
  | nil => cases h
  | cons e es ih =>
    obtain ⟨k, m⟩ := e
    rw [lookup_cons] at h
    split at h
    · rename_i hk
      cases h
      simp [hk]
    · exact List.mem_cons_of_mem _ (ih h)

variable {fs : FileSystem}

theorem node?_eq_lookup {l : Location} (hl : l ≠ []) : fs.node? l = fs.entries.lookup l := if_neg hl

/-- Whatever stands behind a name stands in a directory, and the name is one that an entry can have. -/
theorem housed_of_node? {l : Location} {n : Name} {m : Node} (h : fs.node? (l ++ [n]) = some m) :
    isName n = true ∧ fs.node? l = some .directory := by
  have hmem : (l ++ [n], m) ∈ fs.entries := by
    rw [node?_eq_lookup (by simp)] at h
    exact mem_of_lookup h
  have := fs.housed _ hmem
  simpa [isHoused, node?] using this

theorem node?_take {a b : Location} {m : Node} (h : fs.node? (a ++ b) = some m) (hb : b ≠ []) :
    fs.node? a = some .directory := by
  induction b using List.reverseRecOn generalizing m with
  | nil => exact absurd rfl hb
  | append_singleton b n ih =>
    rw [← List.append_assoc] at h
    have hparent := (housed_of_node? h).2
    by_cases hb' : b = []
    · rwa [hb', List.append_nil] at hparent
    · exact ih hparent hb'

theorem isName_of_mem {l : Location} {m : Node} (h : fs.node? l = some m) : ∀ n ∈ l, isName n = true := by
  induction l using List.reverseRecOn generalizing m with
  | nil => simp
  | append_singleton l n ih =>
    obtain ⟨hn, hl⟩ := housed_of_node? h
    intro k hk
    rcases List.mem_append.1 hk with hk | hk
    · exact ih hl k hk
    · rw [List.mem_singleton.1 hk, hn]

/-! ## The relation -/

/-- From a location on, names lead to another location through at most the given number of links. -/
inductive Leads (fs : FileSystem) (last : Bool) (within : Location → Bool) : Nat → Location → List Name → Location → Prop
  | done {links : Nat} (l : Location) : Leads fs last within links l [] l
  | here {links : Nat} {l l' : Location} {ns : List Name} (hdir : fs.node? l = some .directory)
      (rest : Leads fs last within links l ns l') : Leads fs last within links l (Path.here :: ns) l'
  | up {links : Nat} {l l' : Location} {ns : List Name} (hdir : fs.node? l = some .directory)
      (rest : Leads fs last within links l.dropLast ns l') : Leads fs last within links l (Path.up :: ns) l'
  | enter {links : Nat} {l l' : Location} {n : Name} {ns : List Name} {m : Node}
      (hnode : fs.node? (l ++ [n]) = some m) (hlink : ∀ t, m ≠ .link t) (hin : within (l ++ [n]) = true)
      (rest : Leads fs last within links (l ++ [n]) ns l') : Leads fs last within links l (n :: ns) l'
  | through {links : Nat} {l l' : Location} {n : Name} {ns : List Name} {t : Path}
      (hnode : fs.node? (l ++ [n]) = some (.link t)) (hin : within (l ++ [n]) = true) (hlast : ns ≠ [] ∨ last = true)
      (rest : Leads fs last within links (start l t) (t.names ++ ns) l') :
      Leads fs last within (links + 1) l (n :: ns) l'
  | stay {links : Nat} {l : Location} {n : Name} {t : Path} (hnode : fs.node? (l ++ [n]) = some (.link t))
      (hin : within (l ++ [n]) = true) (hlast : last = false) : Leads fs last within links l [n] (l ++ [n])

theorem isName_iff {n : Name} :
    isName n = true ↔ n ≠ [] ∧ n ≠ Path.here ∧ n ≠ Path.up ∧ Path.slash ∉ n ∧ 0 ∉ n ∧ n.length ≤ nameLimit := by
  simp [isName, and_assoc]

section Follow

variable {last : Bool} {within : Location → Bool} {l l' : Location} {ns : List Name} {links : Nat}

theorem leads_of_followWith {onLink : Location → List Name → Except Fault Location}
    (hon : ∀ l ns l', onLink l ns = .ok l' → ∃ k, links = k + 1 ∧ Leads fs last within k l ns l')
    (h : fs.followWith last within onLink l ns = .ok l') : Leads fs last within links l ns l' := by
  induction ns generalizing l with
  | nil =>
    cases h
    exact .done _
  | cons n ns ih =>
    unfold followWith at h
    split at h
    · cases h
    · cases h
    · cases h
    rename_i hdir
    split at h
    · rename_i hn
      exact hn ▸ .here hdir (ih h)
    split at h
    · rename_i hn
      exact hn ▸ .up hdir (ih h)
    split at h
    · cases h
    rename_i hfits
    have hin : within (l ++ [n]) = true := by
      simp only [Bool.or_eq_true, not_or, Bool.not_eq_true', Bool.not_eq_false] at hfits
      exact hfits.2
    split at h
    · cases h
    · rename_i t hnode
      split at h
      · rename_i hend
        cases h
        simp only [Bool.and_eq_true, List.isEmpty_iff, Bool.not_eq_true'] at hend
        obtain ⟨rfl, hlast⟩ := hend
        exact .stay hnode hin hlast
      · rename_i hend
        obtain ⟨k, rfl, rest⟩ := hon _ _ _ h
        refine .through hnode hin ?_ rest
        cases ns <;> cases last <;> simp_all
    · rename_i m hlink hnode
      exact .enter hnode (fun t ht => hlink t ht) hin (ih h)

theorem leads_of_follow (h : fs.follow last within links l ns = .ok l') : Leads fs last within links l ns l' := by
  induction links generalizing l ns l' with
  | zero => exact leads_of_followWith (fun _ _ _ h => by cases h) h
  | succ links ih => exact leads_of_followWith (fun _ _ _ h => ⟨links, rfl, ih h⟩) h

/-- A name that something stands behind is none of the two that every directory has, and not too long. -/
theorem followWith_name {onLink : Location → List Name → Except Fault Location} {n : Name} {m : Node}
    (hnode : fs.node? (l ++ [n]) = some m) (hin : within (l ++ [n]) = true) :
    fs.followWith last within onLink l (n :: ns) =
      match fs.node? (l ++ [n]) with
      | none => .error .notFound
      | some (.link t) => if ns.isEmpty && !last then .ok (l ++ [n]) else onLink (start l t) (t.names ++ ns)
      | some _ => fs.followWith last within onLink (l ++ [n]) ns := by
  obtain ⟨hn, hdir⟩ := housed_of_node? hnode
  obtain ⟨-, hhere, hup, -, -, hlength⟩ := isName_iff.1 hn
  have hfits : ¬(nameLimit < n.length || !within (l ++ [n])) = true := by
    simp only [hin, Bool.not_true, Bool.or_false, decide_eq_true_eq]
    omega
  rw [followWith, hdir]
  dsimp only
  rewrite [if_neg hhere, if_neg hup, if_neg hfits, hnode]
  cases m <;> rfl

theorem follow_of_leads (h : Leads fs last within links l ns l') : fs.follow last within links l ns = .ok l' := by
  induction h with
  | @done links => cases links <;> rfl
  | @here links _ _ _ hdir _ ih =>
    rw [← ih]
    cases links <;> simp [follow, followWith, hdir]
  | @up links _ _ _ hdir _ ih =>
    have hne : Path.up ≠ Path.here := by decide
    rw [← ih]
    cases links <;> simp [follow, followWith, hdir, hne]
  | @enter links _ _ _ _ m hnode hlink hin _ ih =>
    rw [← ih]
    cases m with
    | link t => exact absurd rfl (hlink t)
    | directory => cases links <;> rw [follow, followWith_name hnode hin, hnode]
    | file content mode => cases links <;> rw [follow, followWith_name hnode hin, hnode]
  | through hnode hin hlast _ ih =>
    rw [follow, followWith_name hnode hin, hnode, ← ih]
    exact if_neg (by rcases hlast with h | h <;> simp [h])
  | @stay links _ _ _ hnode hin hlast =>
    subst hlast
    cases links <;> rw [follow, followWith_name hnode hin, hnode] <;> rfl

/-- Following names gives a location exactly if they lead there. -/
theorem follow_eq_ok_iff : fs.follow last within links l ns = .ok l' ↔ Leads fs last within links l ns l' :=
  ⟨leads_of_follow, follow_of_leads⟩

end Follow

/-- A path that a file system looks at; others it refuses unseen. -/
structure Usable (p : Path) : Prop where
  plain : 0 ∉ p.bytes
  nonempty : p.bytes ≠ []
  short : p.bytes.length < pathLimit

theorem lead_eq_ok_iff {last : Bool} {within : Location → Bool} {p : Path} {l : Location} :
    fs.lead last within p = .ok l ↔ Usable p ∧ Leads fs last within linkLimit (start fs.cwd p) p.names l := by
  rw [← follow_eq_ok_iff]
  unfold lead
  constructor
  · intro h
    split at h
    · cases h
    split at h
    · cases h
    split at h
    · cases h
    exact ⟨⟨by assumption, by assumption, by omega⟩, h⟩
  · rintro ⟨hp, h⟩
    have := hp.short
    rw [if_neg hp.plain, if_neg hp.nonempty, if_neg (by omega), h]

/-! ## Laws of the relation -/

theorem node?_nil : fs.node? [] = some .directory := rfl

theorem node?_dropLast {l : Location} (h : fs.node? l = some .directory) : fs.node? l.dropLast = some .directory := by
  induction l using List.reverseRecOn with
  | nil => exact h
  | append_singleton l n =>
    rw [List.dropLast_concat]
    exact (housed_of_node? h).2

theorem node?_start {l : Location} (h : fs.node? l = some .directory) (t : Path) : fs.node? (start l t) = some .directory := by
  unfold start
  split
  · exact node?_nil
  · exact h

namespace Leads

variable {last : Bool} {within : Location → Bool} {l l' : Location} {ns : List Name} {links : Nat}

theorem anywhere (h : Leads fs last within links l ns l') : Leads fs last (fun _ => true) links l ns l' := by
  induction h with
  | done => exact .done _
  | here hdir _ ih => exact .here hdir ih
  | up hdir _ ih => exact .up hdir ih
  | enter hnode hlink _ _ ih => exact .enter hnode hlink rfl ih
  | through hnode _ hlast _ ih => exact .through hnode rfl hlast ih
  | stay hnode _ hlast => exact .stay hnode rfl hlast

/-- Names that lead somewhere lead there still when other locations come into use. -/
theorem mono {fs' : FileSystem} (h : Leads fs last within links l ns l')
    (hnodes : ∀ k m, fs.node? k = some m → fs'.node? k = some m) : Leads fs' last within links l ns l' := by
  induction h with
  | done => exact .done _
  | here hdir _ ih => exact .here (hnodes _ _ hdir) ih
  | up hdir _ ih => exact .up (hnodes _ _ hdir) ih
  | enter hnode hlink hin _ ih => exact .enter (hnodes _ _ hnode) hlink hin ih
  | through hnode hin hlast _ ih => exact .through (hnodes _ _ hnode) hin hlast ih
  | stay hnode hin hlast => exact .stay (hnodes _ _ hnode) hin hlast

/-- Names that lead somewhere lead there, or to a link, if links at the end are left alone. -/
theorem leave_last (h : Leads fs true within links l ns l') :
    ∃ k, Leads fs false within links l ns k ∧ (k = l' ∨ ∃ t, fs.node? k = some (.link t)) := by
  induction h with
  | done => exact ⟨_, .done _, Or.inl rfl⟩
  | here hdir _ ih =>
    obtain ⟨k, h, hk⟩ := ih
    exact ⟨k, .here hdir h, hk⟩
  | up hdir _ ih =>
    obtain ⟨k, h, hk⟩ := ih
    exact ⟨k, .up hdir h, hk⟩
  | enter hnode hlink hin _ ih =>
    obtain ⟨k, h, hk⟩ := ih
    exact ⟨k, .enter hnode hlink hin h, hk⟩
  | @through _ _ _ _ ns _ hnode hin _ _ ih =>
    by_cases hns : ns = []
    · subst hns
      exact ⟨_, .stay hnode hin rfl, Or.inr ⟨_, hnode⟩⟩
    · obtain ⟨k, h, hk⟩ := ih
      exact ⟨k, .through hnode hin (Or.inl hns) h, hk⟩
  | stay _ _ h => cases h

/-- Where names end: in a directory, or behind a name that was entered or at which they stay, unless there
are none. -/
theorem ends {P : Location → Prop} (h : Leads fs last within links l ns l') (hns : ns ≠ [])
    (hdir : ∀ l, fs.node? l = some .directory → P l)
    (henter : ∀ l m, fs.node? l = some m → (∀ t, m ≠ .link t) → within l = true → P l)
    (hstay : last = false → ∀ l t, fs.node? l = some (.link t) → within l = true → P l) : P l' := by
  have hor : P l' ∨ l' = l ∧ ns = [] := by
    clear hns
    induction h with
    | done => exact Or.inr ⟨rfl, rfl⟩
    | here hl _ ih =>
      rcases ih with h | ⟨rfl, -⟩
      · exact Or.inl h
      · exact Or.inl (hdir _ hl)
    | up hl _ ih =>
      rcases ih with h | ⟨rfl, -⟩
      · exact Or.inl h
      · exact Or.inl (hdir _ (node?_dropLast hl))
    | enter hnode hlink hin _ ih =>
      rcases ih with h | ⟨rfl, -⟩
      · exact Or.inl h
      · exact Or.inl (henter _ _ hnode hlink hin)
    | through hnode _ _ _ ih =>
      rcases ih with h | ⟨rfl, -⟩
      · exact Or.inl h
      · exact Or.inl (hdir _ (node?_start (housed_of_node? hnode).2 _))
    | stay hnode hin hlast => exact Or.inl (hstay hlast _ _ hnode hin)
  exact hor.resolve_right fun h => hns h.2

/-- The names of a location lead to it from any directory above it. -/
theorem own {a b : Location} {m : Node} (h : fs.node? (a ++ b) = some m) (hm : ∀ t, m ≠ .link t) :
    Leads fs last (fun _ => true) links a b (a ++ b) := by
  induction b generalizing a with
  | nil =>
    rw [List.append_nil]
    exact .done a
  | cons n b ih =>
    rw [List.append_cons] at h ⊢
    by_cases hb : b = []
    · subst hb
      rw [List.append_nil] at h ⊢
      exact .enter h hm rfl (.done _)
    · exact .enter (node?_take h hb) (fun _ => by simp) rfl (ih h)

end Leads

/-! ## Spelled paths -/

theorem names_absolute {l : Location} (hl : l ≠ []) (h : ∀ n ∈ l, isName n = true) : (Path.absolute l).names = l := by
  have hparts : Path.parts (Path.absolute l).bytes = [] :: l := by
    rw [Path.absolute, Path.parts, if_pos rfl, Path.parts_joinNames hl fun n hn => (isName_iff.1 (h n hn)).2.2.2.1]
  have hfilter : ([] :: l).filter (· ≠ []) = l := by
    simp only [ne_eq, not_true_eq_false, decide_false, Bool.false_eq_true, not_false_eq_true, List.filter_cons_of_neg]
    exact List.filter_eq_self.2 fun n hn => by simpa using (isName_iff.1 (h n hn)).1
  have hlast : (Path.absolute l).bytes.getLast? ≠ some Path.slash := by
    obtain ⟨a, n, rfl⟩ : ∃ a n, l = a ++ [n] := ⟨_, _, (List.dropLast_concat_getLast hl).symm⟩
    have hn := isName_iff.1 (h n (by simp))
    rw [Path.absolute, List.getLast?_cons, Path.getLast?_joinNames hn.1, List.getLast?_eq_some_getLast hn.1]
    intro heq
    exact hn.2.2.2.1 (by simpa using Option.some.inj heq ▸ List.getLast_mem hn.1)
  unfold Path.names
  rw [hparts]
  dsimp only
  rw [if_neg hlast, hfilter]

/-- The path that spells a location leads to what stands there. -/
theorem resolve_absolute {last : Bool} {l : Location} {m : Node} (h : fs.node? l = some m) (hm : ∀ t, m ≠ .link t)
    (hspelled : isSpelled l = true) : fs.resolve last (.absolute l) = .ok l := by
  have hnames := isName_of_mem h
  refine lead_eq_ok_iff.2 ⟨⟨?_, by simp [Path.absolute], by simpa [isSpelled] using hspelled⟩, ?_⟩
  · intro hzero
    rcases List.mem_cons.1 hzero with hzero | hzero
    · exact absurd hzero (by decide)
    · rcases Path.mem_joinNames hzero with hzero | ⟨n, hn, hzero⟩
      · exact absurd hzero (by decide)
      · exact (isName_iff.1 (hnames n hn)).2.2.2.2.1 hzero
  · by_cases hl : l = []
    · subst hl
      exact .here node?_nil (.done [])
    · rw [names_absolute hl hnames]
      exact Leads.own (a := []) h hm

end FileSystem
end AlphaCodemod
