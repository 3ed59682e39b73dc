/-
Command lines with and without `-v`. A command line that is read to its end is also read without the arguments
that only raise the verbosity, and asks for the same but for that (`Arguments.parse_withoutVerbose`). The two
readings are not in step: an argument that raises the verbosity puts a value that waits into its slot, and
without it the value waits on.
-/
import AlphaCodemod.Arguments.Reader
import Mathlib

namespace AlphaCodemod
namespace Arguments

/-- An argument that does nothing but raise the verbosity. -/
def isVerbose (argument : String) : Bool :=
  match argument.toList with
  | '-' :: '-' :: cs => cs = "verbose".toList
  | '-' :: c :: cs => (c :: cs).all (· = 'v')
  | _ => false

/-- A command line without the arguments that only raise the verbosity. Behind `--` there are none. -/
def withoutVerbose : List String → List String
  | [] => []
  | a :: rest => if a = "--" then a :: rest else if isVerbose a then withoutVerbose rest else a :: withoutVerbose rest

theorem isVerbose_long {a : String} {cs : List Char} (h : a.toList = '-' :: '-' :: cs) :
    isVerbose a = true ↔ cs = "verbose".toList := by
  rw [isVerbose, h]
  exact decide_eq_true_iff

theorem isVerbose_short {a : String} {c : Char} {cs : List Char} (h : a.toList = '-' :: c :: cs) (hc : c ≠ '-') :
    isVerbose a = true ↔ ∀ x ∈ c :: cs, x = 'v' := by
  rw [isVerbose, h]
  split
  · rename_i heq
    cases heq
    exact absurd rfl hc
  · rename_i heq
    cases heq
    simp
  · rename_i hno
    exact absurd rfl (hno c cs)

theorem isVerbose_plain {a : String} (h : ∀ c cs, a.toList ≠ '-' :: c :: cs) : isVerbose a = false := by
  unfold isVerbose
  split
  · rename_i heq
    exact absurd heq (h _ _)
  · rename_i heq
    exact absurd heq (h _ _)
  · rfl

theorem withoutVerbose_of_verbose {a : String} (h : isVerbose a = true) (rest : List String) :
    withoutVerbose (a :: rest) = withoutVerbose rest := by
  have hdashes : a ≠ "--" := by
    rintro rfl
    exact absurd h (by decide)
  rw [withoutVerbose, if_neg hdashes, if_pos h]

theorem withoutVerbose_of_not_verbose {a : String} (hdashes : a ≠ "--") (h : isVerbose a = false) (rest : List String) :
    withoutVerbose (a :: rest) = a :: withoutVerbose rest := by
  rw [withoutVerbose, if_neg hdashes, h]
  rfl

/-- What a command line asks for, the verbosity left out. -/
def quieted (a : Arguments) : Arguments := { a with verbosity := 0 }

theorem exists_of_bind_ok {ε α β : Type} {x : Except ε α} {f : α → Except ε β} {b : β} (h : x >>= f = .ok b) :
    ∃ a, x = .ok a ∧ f a = .ok b := by
  cases x with
  | error e => cases h
  | ok a => exact ⟨a, rfl, h⟩

theorem put_quieted {a b : Arguments} {slot : Slot} {value : String} (h : a.put slot value = .ok b) :
    a.quieted.put slot value = .ok b.quieted := by
  have hput : a.quieted.put slot value = (a.put slot value).map quieted := by
    cases slot with
    | exclude => rfl
    | _ =>
      unfold put
      simp only [apply_ite (Except.map quieted)]
      rfl
  rw [hput, h]
  rfl

namespace Reading

variable {r r' q : Reading} {argument : String} {cs : List Char}

/-! ## Values that wait -/

theorem settle_of_none (h : r.waiting = none) : r.settle = .ok r := by
  unfold settle
  rw [h]
  rfl

theorem settle_of_value {slot : Slot} {value : String} {a : Arguments} (h : r.waiting = some (slot, some value))
    (hput : r.read.put slot value = .ok a) : r.settle = .ok { r with read := a, waiting := none } := by
  unfold settle
  rw [h]
  simp only [hput]
  rfl

/-- What waits, if anything does, is a value, and it has found its slot. -/
theorem settle_cases (h : r.settle = .ok r') :
    (r.waiting = none ∧ r' = r) ∨
      ∃ slot value a, r.waiting = some (slot, some value) ∧ r.read.put slot value = .ok a ∧
        r' = { r with read := a, waiting := none } := by
  unfold settle at h
  split at h
  · rename_i hwaiting
    exact Or.inl ⟨hwaiting, (Except.ok.inj h).symm⟩
  · cases h
  · rename_i slot value hwaiting
    obtain ⟨a, hput, ha⟩ := exists_of_bind_ok h
    exact Or.inr ⟨slot, value, a, hwaiting, hput, (Except.ok.inj ha).symm⟩

theorem waiting_of_settle (h : r.settle = .ok r') : r'.waiting = none := by
  rcases settle_cases h with ⟨hnone, rfl⟩ | ⟨_, _, _, -, -, rfl⟩
  · exact hnone
  · rfl

theorem pathSeen_of_settle (h : r.settle = .ok r') : r'.pathSeen = r.pathSeen := by
  rcases settle_cases h with ⟨-, rfl⟩ | ⟨_, _, _, -, -, rfl⟩ <;> rfl

theorem plain_of_slot {slot : Slot} (h : r.waiting = some (slot, none)) (argument : String) :
    r.plain argument = .ok { r with waiting := some (slot, some argument) } := by
  unfold plain
  rw [h]
  rfl

theorem plain_of_no_slot (h : ∀ slot, r.waiting ≠ some (slot, none)) (argument : String) :
    r.plain argument = r.positional argument := by
  unfold plain
  split
  · rename_i slot hwaiting
    exact absurd hwaiting (h slot)
  · rfl

theorem long_verbose (r : Reading) : r.long "verbose".toList = r.switch .verbose true := rfl

theorem eq_verbose_of_long (hname : longName (splitValue cs).1 = some (.inr .verbose))
    (hvalue : (splitValue cs).2 = none) : cs = "verbose".toList := by
  have hwhole : cs.takeWhile (· ≠ '=') = cs := by
    have hdrop : cs.dropWhile (· ≠ '=') = [] := by
      simp only [splitValue] at hvalue
      split at hvalue
      · assumption
      · cases hvalue
    have happend := List.takeWhile_append_dropWhile (p := (· ≠ '=')) (l := cs)
    rwa [hdrop, List.append_nil] at happend
  have hverbose : String.ofList cs = "verbose" := by
    simp only [splitValue, hwhole] at hname
    unfold longName at hname
    split at hname <;> simp_all
  rw [← hverbose, String.toList_ofList]

/-- A cluster that is read to its end begins with a switch that raises the verbosity. -/
theorem short_cons {c : Char} (h : r.short (c :: cs) = .ok r') :
    c = 'v' ∧ ∃ r1, r.switch .verbose false = .ok r1 ∧ r1.short cs = .ok r' := by
  unfold short at h
  rw [List.foldlM_cons] at h
  obtain ⟨r1, hc, hcs⟩ := exists_of_bind_ok h
  unfold shortName at hc
  split at hc
  · rename_i s hname
    split at hname
    · obtain rfl := Option.some.inj hname
      exact ⟨rfl, r1, hc, hcs⟩
    · obtain rfl := Option.some.inj hname
      obtain ⟨_, -, hc⟩ := exists_of_bind_ok hc
      cases hc
    · obtain rfl := Option.some.inj hname
      obtain ⟨_, -, hc⟩ := exists_of_bind_ok hc
      cases hc
    · cases hname
  · cases hc

/-! ## Kinds of arguments -/

theorem arguments_dashes (r : Reading) (rest : List String) :
    r.arguments ("--" :: rest) = (do (← rest.foldlM positional r).settle) := rfl

theorem arguments_long (h : argument.toList = '-' :: '-' :: cs) (hcs : cs ≠ []) (r : Reading) (rest : List String) :
    r.arguments (argument :: rest) = (do (← r.long cs).arguments rest) := by
  rw [arguments, h]
  cases cs with
  | nil => exact absurd rfl hcs
  | cons c cs => rfl

theorem arguments_short {c : Char} (h : argument.toList = '-' :: c :: cs) (hc : c ≠ '-') (r : Reading)
    (rest : List String) : r.arguments (argument :: rest) = (do (← r.short (c :: cs)).arguments rest) := by
  rw [arguments, h]
  split
  · rename_i heq
    cases heq
    exact absurd rfl hc
  · rename_i heq
    cases heq
    exact absurd rfl hc
  · rename_i heq
    cases heq
    rfl
  · rename_i hno
    exact absurd rfl (hno c cs)

theorem arguments_plain (h : ∀ c cs, argument.toList ≠ '-' :: c :: cs) (r : Reading) (rest : List String) :
    r.arguments (argument :: rest) = (do (← r.plain argument).arguments rest) := by
  rw [arguments]
  split
  · rename_i heq
    exact absurd heq (h _ _)
  · rename_i heq
    exact absurd heq (h _ _)
  · rename_i heq
    exact absurd heq (h _ _)
  · rfl

/-- Every argument is of one of these kinds. -/
theorem argument_cases (argument : String) :
    argument = "--" ∨ (∃ cs, argument.toList = '-' :: '-' :: cs ∧ cs ≠ []) ∨
      (∃ c cs, argument.toList = '-' :: c :: cs ∧ c ≠ '-') ∨ ∀ c cs, argument.toList ≠ '-' :: c :: cs := by
  by_cases hdash : ∃ c cs, argument.toList = '-' :: c :: cs
  · obtain ⟨c, cs, hlist⟩ := hdash
    by_cases hc : c = '-'
    · subst hc
      by_cases hcs : cs = []
      · subst hcs
        exact Or.inl (String.toList_inj.1 hlist)
      · exact Or.inr (Or.inl ⟨cs, hlist, hcs⟩)
    · exact Or.inr (Or.inr (Or.inl ⟨c, cs, hlist, hc⟩))
  · exact Or.inr (Or.inr (Or.inr fun c cs hlist => hdash ⟨c, cs, hlist⟩))

/-! ## Two readings -/

def quieted (r : Reading) : Reading := { r with read := r.read.quieted }

/-- The second reading is where the first is, the verbosity left out; or it comes there as soon as the value that
waits in it is put into its slot. -/
inductive Quiets (r : Reading) : Reading → Prop where
  | same : Quiets r r.quieted
  | behind {q : Reading} {slot : Slot} {value : String} (hwaiting : q.waiting = some (slot, some value))
    (hsettle : q.settle = .ok r.quieted) : Quiets r q

namespace Quiets

theorem settle (h : r.Quiets q) (hr : r.settle = .ok r') : q.settle = .ok r'.quieted := by
  rcases settle_cases hr with ⟨hnone, rfl⟩ | ⟨slot, value, a, hvalue, hput, rfl⟩
  · cases h with
    | same => exact settle_of_none hnone
    | behind _ hsettle => exact hsettle
  · cases h with
    | same => exact settle_of_value hvalue (put_quieted hput)
    | behind hwaiting hsettle =>
      -- nothing waits behind a value that has been put into its slot
      have hnone : r.quieted.waiting = none := waiting_of_settle hsettle
      cases hnone.symm.trans hvalue

theorem pathSeen (h : r.Quiets q) : q.pathSeen = r.pathSeen := by
  cases h with
  | same => rfl
  | behind _ hsettle => exact (pathSeen_of_settle hsettle).symm

theorem switch {s : Switch} {long : Bool} (h : r.Quiets q) (hs : s ≠ .verbose) (hr : r.switch s long = .ok r') :
    q.switch s long = .ok r'.quieted := by
  obtain ⟨r1, hsettle, hr⟩ := exists_of_bind_ok hr
  unfold Reading.switch
  rw [h.settle hsettle]
  cases s with
  | verbose => exact absurd rfl hs
  | help => cases hr
  | version => cases hr
  | dryRun =>
    show (if r1.read.dryRun then _ else _ : Except Halt Reading) = _
    dsimp only at hr
    split at hr
    · cases hr
    · rename_i hdry
      rw [if_neg hdry, ← Except.ok.inj hr]
      rfl

/-- An argument that raises the verbosity is not missed. -/
theorem verbose {long : Bool} (h : r.Quiets q) (hr : r.switch .verbose long = .ok r') : r'.Quiets q := by
  obtain ⟨r1, hsettle, hr⟩ := exists_of_bind_ok hr
  have hquiet : r'.quieted = r1.quieted := by
    rw [← Except.ok.inj hr]
    rfl
  have hq := h.settle hsettle
  rw [← hquiet] at hq
  rcases settle_cases hq with ⟨-, heq⟩ | ⟨slot, value, a, hvalue, -, -⟩
  · rw [← heq]
    exact same
  · exact behind hvalue hq

theorem slot {s : Slot} {attached : Option String} (h : r.Quiets q) (hr : r.slot s attached = .ok r') :
    q.slot s attached = .ok r'.quieted := by
  obtain ⟨r1, hsettle, hr⟩ := exists_of_bind_ok hr
  unfold Reading.slot
  rw [h.settle hsettle]
  cases attached with
  | none =>
    rw [← Except.ok.inj hr]
    rfl
  | some value =>
    obtain ⟨a, hput, hr⟩ := exists_of_bind_ok hr
    show (r1.read.quieted.put s value >>= _ : Except Halt Reading) = _
    rw [put_quieted hput, ← Except.ok.inj hr]
    rfl

theorem positional (h : r.Quiets q) (hr : r.positional argument = .ok r') :
    q.positional argument = .ok r'.quieted := by
  unfold Reading.positional at hr ⊢
  rw [h.pathSeen]
  cases hseen : r.pathSeen with
  | true =>
    rw [hseen] at hr
    cases hr
  | false =>
    rw [hseen] at hr
    obtain ⟨r1, hsettle, hr⟩ := exists_of_bind_ok hr
    show (q.settle >>= _ : Except Halt Reading) = _
    rw [h.settle hsettle, ← Except.ok.inj hr]
    rfl

/-! ## Arguments -/

theorem plain (h : r.Quiets q) (hr : r.plain argument = .ok r') : q.plain argument = .ok r'.quieted := by
  by_cases hslot : ∃ slot, r.waiting = some (slot, none)
  · obtain ⟨slot, hslot⟩ := hslot
    rw [plain_of_slot hslot] at hr
    cases h with
    | same =>
      rw [plain_of_slot (r := r.quieted) hslot, ← Except.ok.inj hr]
      rfl
    | behind hwaiting hsettle =>
      have hnone : r.quieted.waiting = none := waiting_of_settle hsettle
      cases hnone.symm.trans hslot
  · rw [plain_of_no_slot (not_exists.1 hslot)] at hr
    rw [plain_of_no_slot ?_, h.positional hr]
    cases h with
    | same => exact not_exists.1 hslot
    | behind hwaiting _ => simp [hwaiting]

theorem long (h : r.Quiets q) (hcs : cs ≠ "verbose".toList) (hr : r.long cs = .ok r') : q.long cs = .ok r'.quieted := by
  unfold Reading.long at hr ⊢
  simp only at hr ⊢
  split at hr
  · exact h.slot hr
  · rename_i s hname hvalue
    refine h.switch ?_ hr
    rintro rfl
    exact hcs (eq_verbose_of_long hname hvalue)
  · cases hr
  · cases hr

/-- A cluster that is read to its end raises the verbosity and does nothing else. -/
theorem short (h : r.Quiets q) (hr : r.short cs = .ok r') : r'.Quiets q ∧ ∀ c ∈ cs, c = 'v' := by
  induction cs generalizing r with
  | nil =>
    obtain rfl := Except.ok.inj hr
    exact ⟨h, by simp⟩
  | cons c cs ih =>
    obtain ⟨rfl, r1, hc, hr⟩ := short_cons hr
    obtain ⟨hquiets, hcs⟩ := ih (h.verbose hc) hr
    exact ⟨hquiets, by simpa using hcs⟩

theorem positionals {rest : List String} (h : r.Quiets q) (hr : rest.foldlM Reading.positional r = .ok r') :
    ∃ q', rest.foldlM Reading.positional q = .ok q' ∧ r'.Quiets q' := by
  induction rest generalizing r q with
  | nil =>
    obtain rfl := Except.ok.inj hr
    exact ⟨q, rfl, h⟩
  | cons a rest ih =>
    rw [List.foldlM_cons] at hr ⊢
    obtain ⟨r1, ha, hr⟩ := exists_of_bind_ok hr
    rw [h.positional ha]
    exact ih same hr

/-- Both readings come to the same, the verbosity left out. -/
theorem arguments {args : List String} (h : r.Quiets q) (hr : r.arguments args = .ok r') :
    q.arguments (withoutVerbose args) = .ok r'.quieted := by
  induction args generalizing r q with
  | nil => exact h.settle hr
  | cons a rest ih =>
    rcases argument_cases a with rfl | ⟨cs, hlist, hne⟩ | ⟨c, cs, hlist, hc⟩ | hplain
    · -- behind the dashes nothing is left out
      rw [arguments_dashes] at hr
      obtain ⟨r1, hrest, hr⟩ := exists_of_bind_ok hr
      obtain ⟨q', hq, hquiets⟩ := h.positionals hrest
      rw [withoutVerbose, if_pos rfl, arguments_dashes, hq]
      exact hquiets.settle hr
    · rw [arguments_long hlist hne] at hr
      obtain ⟨r1, hlong, hr⟩ := exists_of_bind_ok hr
      by_cases hcs : cs = "verbose".toList
      · rw [hcs, long_verbose] at hlong
        rw [withoutVerbose_of_verbose ((isVerbose_long hlist).2 hcs)]
        exact ih (h.verbose hlong) hr
      · have hdashes : a ≠ "--" := by
          rintro rfl
          exact hne (List.cons.inj (List.cons.inj hlist).2).2.symm
        rw [withoutVerbose_of_not_verbose hdashes (eq_false_of_ne_true (mt (isVerbose_long hlist).1 hcs)),
          arguments_long hlist hne, h.long hcs hlong]
        exact ih same hr
    · rw [arguments_short hlist hc] at hr
      obtain ⟨r1, hshort, hr⟩ := exists_of_bind_ok hr
      obtain ⟨hquiets, hall⟩ := h.short hshort
      rw [withoutVerbose_of_verbose ((isVerbose_short hlist hc).2 hall)]
      exact ih hquiets hr
    · rw [arguments_plain hplain] at hr
      obtain ⟨r1, ha, hr⟩ := exists_of_bind_ok hr
      have hdashes : a ≠ "--" := by
        rintro rfl
        exact hplain '-' [] rfl
      rw [withoutVerbose_of_not_verbose hdashes (isVerbose_plain hplain), arguments_plain hplain, h.plain ha]
      exact ih same hr

end Quiets
end Reading

/-- Without the arguments that only raise the verbosity a command line asks for the same, the verbosity left out. -/
theorem parse_withoutVerbose {environment : Option String} {args : List String} {a : Arguments}
    (h : parse environment args = .ok a) : parse environment (withoutVerbose args) = .ok a.quieted := by
  obtain ⟨r, hread, hr⟩ := exists_of_bind_ok h
  have hquiet : ({} : Reading).arguments (withoutVerbose args) = .ok r.quieted := Reading.Quiets.same.arguments hread
  have hconfig : r.quieted.read.config = r.read.config := rfl
  unfold parse
  rw [hquiet]
  simp only [bind, Except.bind, hconfig]
  dsimp only at hr
  cases hgiven : r.read.config with
  | some c =>
    rw [hgiven] at hr
    obtain rfl := Except.ok.inj hr
    rfl
  | none =>
    rw [hgiven] at hr
    cases environment with
    | none =>
      obtain rfl := Except.ok.inj hr
      rfl
    | some value => exact put_quieted hr

end Arguments
end AlphaCodemod
