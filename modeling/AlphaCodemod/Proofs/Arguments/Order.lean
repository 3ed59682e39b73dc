/-
The order of the arguments does not matter. A command line of a path, switches and slots with their values attached
asks for the same in every order in which the patterns stay behind each other (`Arguments.order_does_not_matter`).
The reader is not in step with this: a path waits until the next argument is understood. So what is followed along
the line is the reading as it would be settled (`Reading.Holds`).
-/
import AlphaCodemod.Proofs.Arguments.Verbosity

namespace AlphaCodemod
namespace Arguments

/-! ## Arguments by themselves -/

/-- An argument that says all by itself: the path, a switch, or a slot with its value. -/
inductive Token where
  | path (value : String)
  | dryRun
  | config (value : String)
  | extension (value : String)
  | exclude (value : String)
  | verbose
deriving DecidableEq, Repr

namespace Token

def text : Token → String
  | .path value => value
  | .dryRun => "--dry-run"
  | .config value => "--config=" ++ value
  | .extension value => "--extension=" ++ value
  | .exclude value => "--exclude=" ++ value
  | .verbose => "-v"

/-- The value for a slot, if it is for that one. -/
def valueFor : Slot → Token → Option String
  | .path, .path value => some value
  | .config, .config value => some value
  | .extension, .extension value => some value
  | .exclude, .exclude value => some value
  | _, _ => none

/-- Paths are not empty, and a path that starts with a dash would be taken for something else. -/
def Allowed : Token → Prop
  | .path value => value ≠ "" ∧ value.toList.head? ≠ some '-'
  | .config value => value ≠ ""
  | _ => True

end Token

/-- The values for a slot in a command line. -/
def valuesFor (slot : Slot) (line : List Token) : List String := line.filterMap (Token.valueFor slot)

@[simp] theorem valuesFor_append (slot : Slot) (line line' : List Token) :
    valuesFor slot (line ++ line') = valuesFor slot line ++ valuesFor slot line' := List.filterMap_append

@[simp] theorem valuesFor_singleton (slot : Slot) (t : Token) : valuesFor slot [t] = (t.valueFor slot).toList := by
  cases h : t.valueFor slot <;> simp [valuesFor, h]

/-- What a command line asks for that gives every slot but that of the patterns one value at most. -/
def asked (line : List Token) : Arguments :=
  { path := (valuesFor .path line).head?
    dryRun := line.contains .dryRun
    config := (valuesFor .config line).head?
    extension := (valuesFor .extension line).head?
    exclude := valuesFor .exclude line
    verbosity := min (line.count .verbose) maxVerbosity }

/-- Nothing is given twice but patterns and the switch that raises the verbosity. -/
structure Single (line : List Token) : Prop where
  path : (valuesFor .path line).length ≤ 1
  config : (valuesFor .config line).length ≤ 1
  extension : (valuesFor .extension line).length ≤ 1
  dryRun : line.count .dryRun ≤ 1

/-- A slot that is given a value has none before. -/
theorem valuesFor_eq_nil {slot : Slot} {done rest : List Token} {t : Token} {value : String}
    (h : (valuesFor slot (done ++ t :: rest)).length ≤ 1) (ht : t.valueFor slot = some value) :
    valuesFor slot done = [] := by
  rw [valuesFor_append, List.length_append] at h
  have hcons : valuesFor slot (t :: rest) = value :: valuesFor slot rest := List.filterMap_cons_some ht
  rw [hcons, List.length_cons] at h
  exact List.length_eq_zero_iff.1 (by omega)

section Put

variable {a : Arguments} {value : String}

theorem put_path (h : value ≠ "") : a.put .path value = .ok { a with path := some value } := by
  rw [put, if_neg (by simpa using h)]
  rfl

theorem put_config (hnone : a.config = none) (h : value ≠ "") :
    a.put .config value = .ok { a with config := some value } := by
  rw [put, if_neg (by simp [hnone]), if_neg (by simpa using h)]
  rfl

theorem put_config_empty (hnone : a.config = none) : a.put .config "" = .error (.refused (.missingValue .config)) := by
  rw [put, if_neg (by simp [hnone])]
  rfl

theorem put_extension (hnone : a.extension = none) :
    a.put .extension value = .ok { a with extension := some value } := by
  rw [put, if_neg (by simp [hnone])]
  rfl

end Put

section Asked

variable {done : List Token} {value : String}

theorem asked_path (h : valuesFor .path done = []) :
    asked (done ++ [.path value]) = { asked done with path := some value } := by
  simp [asked, h, Token.valueFor]

theorem asked_dryRun : asked (done ++ [.dryRun]) = { asked done with dryRun := true } := by
  simp [asked, Token.valueFor]

theorem asked_config (h : valuesFor .config done = []) :
    asked (done ++ [.config value]) = { asked done with config := some value } := by
  simp [asked, h, Token.valueFor]

theorem asked_extension (h : valuesFor .extension done = []) :
    asked (done ++ [.extension value]) = { asked done with extension := some value } := by
  simp [asked, h, Token.valueFor]

theorem asked_exclude :
    asked (done ++ [.exclude value]) = { asked done with exclude := (asked done).exclude ++ [value] } := by
  simp [asked, Token.valueFor]

/-- The count stays at its greatest value once it is there. -/
theorem asked_verbose : asked (done ++ [.verbose]) =
    { asked done with verbosity := min ((asked done).verbosity + 1) maxVerbosity } := by
  have hcount : min (done.count .verbose + 1) maxVerbosity =
      min (min (done.count .verbose) maxVerbosity + 1) maxVerbosity := by omega
  simp [asked, Token.valueFor, hcount]

end Asked

/-! ## One argument -/

namespace Reading

variable {r r' : Reading} {done rest : List Token} {t : Token}

/-- Once settled, the reading is what the arguments so far ask for; and no slot waits for the next one. -/
structure Holds (r : Reading) (done : List Token) : Prop where
  settle : r.settle = .ok { read := asked done, pathSeen := r.pathSeen }
  noSlot : ∀ slot, r.waiting ≠ some (slot, none)
  pathSeen : r.pathSeen = !(valuesFor .path done).isEmpty

theorem holds_nil : Holds {} [] := ⟨rfl, by simp, rfl⟩

/-- The reader takes in an argument and goes on from another reading. -/
def Takes (r : Reading) (t : Token) (r' : Reading) : Prop := ∀ args, r.arguments (t.text :: args) = r'.arguments args

/-- A settled reading holds what it has read. -/
theorem holds_settled {pathSeen : Bool} (hseen : pathSeen = !(valuesFor .path done).isEmpty) :
    Holds { read := asked done, pathSeen := pathSeen } done :=
  ⟨rfl, by simp, hseen⟩

/-- Nothing but a path counts as one. -/
theorem Holds.pathSeen_append (hr : r.Holds done) (ht : t.valueFor .path = none) :
    r.pathSeen = !(valuesFor .path (done ++ [t])).isEmpty := by
  rw [valuesFor_append, valuesFor_singleton, ht, Option.toList_none, List.append_nil]
  exact hr.pathSeen

theorem splitValue_attached {name : List Char} (h : '=' ∉ name) (value : List Char) :
    splitValue (name ++ '=' :: value) = (String.ofList name, some (String.ofList value)) := by
  have hname : ∀ c ∈ name, decide (c ≠ '=') = true := by
    intro c hc
    rw [decide_eq_true_iff]
    rintro rfl
    exact h hc
  unfold splitValue
  rw [List.takeWhile_append_of_pos hname, List.dropWhile_append_of_pos hname]
  simp

/-- A slot with its value attached is filled at once. -/
theorem Holds.attached (hr : r.Holds done) (name : List Char) {slot : Slot} (value : String)
    (htext : t.text.toList = '-' :: '-' :: (name ++ '=' :: value.toList))
    (hname : longName (String.ofList name) = some (.inl slot)) (hno : '=' ∉ name) (hpath : t.valueFor .path = none)
    (hput : (asked done).put slot value = .ok (asked (done ++ [t]))) :
    ∃ r', r.Takes t r' ∧ r'.Holds (done ++ [t]) := by
  have hlong : r.long (name ++ '=' :: value.toList) = .ok { read := asked (done ++ [t]), pathSeen := r.pathSeen } := by
    unfold long
    rw [splitValue_attached hno, String.ofList_toList]
    simp only [hname]
    unfold Reading.slot
    rw [hr.settle]
    show ((asked done).put slot value >>= _ : Except Halt Reading) = _
    rw [hput]
    rfl
  refine ⟨_, fun args => ?_, holds_settled (hr.pathSeen_append hpath)⟩
  rw [arguments_long htext (by simp), hlong]
  rfl

theorem Holds.path {value : String} (hr : r.Holds done) (hallowed : (Token.path value).Allowed)
    (hnone : valuesFor .path done = []) :
    ∃ r', r.Takes (.path value) r' ∧ r'.Holds (done ++ [.path value]) := by
  obtain ⟨hne, hdash⟩ := hallowed
  -- the path is not put in yet: it waits for what follows, and settling puts it in
  have hplain : ∀ c cs, value.toList ≠ '-' :: c :: cs := by
    intro c cs h
    rw [h] at hdash
    exact hdash rfl
  have hseen : r.pathSeen = false := by rw [hr.pathSeen, hnone]; rfl
  have hpositional : r.positional value =
      .ok { read := asked done, waiting := some (.path, some value), pathSeen := true } := by
    unfold positional
    rw [hseen, hr.settle]
    rfl
  have hput : (asked done).put .path value = .ok (asked (done ++ [.path value])) := by
    rw [asked_path hnone, put_path hne]
  refine ⟨{ read := asked done, waiting := some (.path, some value), pathSeen := true }, fun args => ?_,
    settle_of_value rfl hput, by simp, ?_⟩
  · rw [Token.text, arguments_plain hplain, plain_of_no_slot hr.noSlot, hpositional]
    rfl
  · simp [Token.valueFor]

theorem Holds.switch {s : Switch} {long : Bool} (hr : r.Holds done)
    (hset : Reading.switch { read := asked done, pathSeen := r.pathSeen } s long =
      .ok { read := asked (done ++ [t]), pathSeen := r.pathSeen }) :
    r.switch s long = .ok { read := asked (done ++ [t]), pathSeen := r.pathSeen } := by
  rw [← hset]
  unfold Reading.switch
  rw [hr.settle]
  rfl

/-- One more argument, of any kind. -/
theorem Holds.step (hr : r.Holds done) (hallowed : t.Allowed) (hsingle : Single (done ++ t :: rest)) :
    ∃ r', r.Takes t r' ∧ r'.Holds (done ++ [t]) := by
  cases t with
  | path value => exact hr.path hallowed (valuesFor_eq_nil hsingle.path rfl)
  | dryRun =>
    have hcount : done.count .dryRun = 0 := by
      have := hsingle.dryRun
      rw [List.count_append, List.count_cons_self] at this
      omega
    have hnot : (asked done).dryRun = false := by
      simpa [asked] using List.count_eq_zero.1 hcount
    have hswitch : r.switch .dryRun true = .ok { read := asked (done ++ [.dryRun]), pathSeen := r.pathSeen } := by
      refine hr.switch ?_
      rw [asked_dryRun]
      unfold Reading.switch
      rw [settle_of_none rfl]
      simp [bind, Except.bind, hnot, pure, Except.pure]
    have hlong : r.long "dry-run".toList = r.switch .dryRun true := rfl
    have htext : Token.dryRun.text.toList = '-' :: '-' :: "dry-run".toList := rfl
    refine ⟨_, fun args => ?_, holds_settled (hr.pathSeen_append rfl)⟩
    rw [arguments_long htext (by decide), hlong, hswitch]
    rfl
  | config value =>
    have hnone : valuesFor .config done = [] := valuesFor_eq_nil hsingle.config rfl
    have hne : value ≠ "" := hallowed
    refine hr.attached "config".toList value ?_ rfl (by decide) rfl ?_
    · rw [Token.text, String.toList_append]
      rfl
    · rw [asked_config hnone, put_config (by simp [asked, hnone]) hne]
  | extension value =>
    have hnone : valuesFor .extension done = [] := valuesFor_eq_nil hsingle.extension rfl
    refine hr.attached "extension".toList value ?_ rfl (by decide) rfl ?_
    · rw [Token.text, String.toList_append]
      rfl
    · rw [asked_extension hnone, put_extension (by simp [asked, hnone])]
  | exclude value =>
    refine hr.attached "exclude".toList value ?_ rfl (by decide) rfl ?_
    · rw [Token.text, String.toList_append]
      rfl
    · rw [asked_exclude]
      rfl
  | verbose =>
    have hswitch : r.switch .verbose false = .ok { read := asked (done ++ [.verbose]), pathSeen := r.pathSeen } := by
      refine hr.switch ?_
      rw [asked_verbose]
      rfl
    have hshort : r.short ['v'] = r.switch .verbose false := by
      unfold short
      rw [List.foldlM_cons]
      show (r.switch .verbose false >>= fun r => pure r) = _
      rw [bind_pure]
    have htext : Token.verbose.text.toList = '-' :: 'v' :: [] := rfl
    refine ⟨_, fun args => ?_, holds_settled (hr.pathSeen_append rfl)⟩
    rw [arguments_short htext (by decide), hshort, hswitch]
    rfl

/-- A whole command line. -/
theorem Holds.arguments (hr : r.Holds done) (hallowed : ∀ t ∈ rest, t.Allowed) (hsingle : Single (done ++ rest)) :
    ∃ r', r.arguments (rest.map Token.text) = .ok r' ∧ r'.read = asked (done ++ rest) := by
  induction rest generalizing r done with
  | nil => exact ⟨_, hr.settle, by rw [List.append_nil]⟩
  | cons t rest ih =>
    obtain ⟨r1, htakes, hr1⟩ := hr.step (hallowed t (by simp)) hsingle
    rw [List.append_cons] at hsingle
    obtain ⟨r', hread, hasked⟩ := ih hr1 (fun t ht => hallowed t (by simp [ht])) hsingle
    exact ⟨r', (htakes _).trans hread, by rw [hasked, ← List.append_cons]⟩

end Reading

/-! ## Orders -/

/-- What is asked for, one argument after the other. The verbosity is how often it is raised. -/
def tokens (a : Arguments) : List Token :=
  a.path.toList.map .path ++ (if a.dryRun then [.dryRun] else []) ++ a.config.toList.map .config ++
    a.extension.toList.map .extension ++ a.exclude.map .exclude ++ List.replicate a.verbosity .verbose

/-- The values that are asked for in a slot. -/
def given (a : Arguments) : Slot → List String
  | .path => a.path.toList
  | .config => a.config.toList
  | .extension => a.extension.toList
  | .exclude => a.exclude

theorem valuesFor_tokens (a : Arguments) (slot : Slot) : valuesFor slot a.tokens = a.given slot := by
  unfold tokens
  simp only [valuesFor_append]
  unfold valuesFor
  simp only [List.filterMap_map, Function.comp_def, List.filterMap_replicate, apply_ite (List.filterMap _)]
  cases slot <;> simp [Token.valueFor, given]

theorem count_map_eq_zero {f : String → Token} {t : Token} (h : ∀ v, f v ≠ t) (values : List String) :
    (values.map f).count t = 0 := by
  rw [List.count_eq_zero, List.mem_map]
  rintro ⟨v, -, hv⟩
  exact h v hv

theorem count_dryRun_tokens (a : Arguments) : a.tokens.count .dryRun = if a.dryRun then 1 else 0 := by
  cases h : a.dryRun <;> simp [tokens, h, count_map_eq_zero, List.count_replicate]

theorem count_verbose_tokens (a : Arguments) : a.tokens.count .verbose = a.verbosity := by
  cases h : a.dryRun <;> simp [tokens, h, count_map_eq_zero]

theorem allowed_of_mem_tokens {a : Arguments} (hpath : ∀ p ∈ a.path, p ≠ "" ∧ p.toList.head? ≠ some '-')
    (hconfig : ∀ c ∈ a.config, c ≠ "") {t : Token} (ht : t ∈ a.tokens) : t.Allowed := by
  have hslot : ∀ slot value, t.valueFor slot = some value → value ∈ a.given slot := by
    intro slot value hvalue
    rw [← valuesFor_tokens]
    exact List.mem_filterMap.2 ⟨t, ht, hvalue⟩
  cases t with
  | path value => exact hpath value (Option.mem_toList.1 (hslot .path value rfl))
  | config value => exact hconfig value (Option.mem_toList.1 (hslot .config value rfl))
  | _ => trivial

section Permuted

variable {a : Arguments} {line : List Token}

/-- There is only one order of one value. -/
theorem eq_toList_of_perm {values : List String} {value : Option String} (h : values.Perm value.toList) :
    values = value.toList := by
  cases value with
  | none => exact h.eq_nil
  | some value => exact List.perm_singleton.1 h

theorem valuesFor_perm (h : line.Perm a.tokens) (slot : Slot) : (valuesFor slot line).Perm (a.given slot) := by
  rw [← valuesFor_tokens]
  exact h.filterMap _

theorem length_valuesFor_le_one (h : line.Perm a.tokens) {slot : Slot} {value : Option String}
    (hgiven : a.given slot = value.toList) : (valuesFor slot line).length ≤ 1 := by
  rw [(valuesFor_perm h slot).length_eq, hgiven]
  exact Option.length_toList_le

theorem single_of_perm (h : line.Perm a.tokens) : Single line where
  path := length_valuesFor_le_one h rfl
  config := length_valuesFor_le_one h rfl
  extension := length_valuesFor_le_one h rfl
  dryRun := by
    rw [h.count_eq, count_dryRun_tokens]
    split <;> omega

/-- In every order the same is asked for, if only the patterns stay in theirs. -/
theorem asked_of_perm (h : line.Perm a.tokens) (hexclude : valuesFor .exclude line = a.exclude) :
    asked line = { a with verbosity := min a.verbosity maxVerbosity } := by
  have hpath : valuesFor .path line = a.path.toList := eq_toList_of_perm (valuesFor_perm h .path)
  have hconfig : valuesFor .config line = a.config.toList := eq_toList_of_perm (valuesFor_perm h .config)
  have hextension : valuesFor .extension line = a.extension.toList := eq_toList_of_perm (valuesFor_perm h .extension)
  have hdry : line.contains .dryRun = a.dryRun := by
    rw [Bool.eq_iff_iff, List.contains_iff_mem, ← List.count_pos_iff, h.count_eq, count_dryRun_tokens]
    cases a.dryRun <;> simp
  unfold asked
  rw [hpath, hconfig, hextension, hexclude, hdry, h.count_eq, count_verbose_tokens, Option.head?_toList,
    Option.head?_toList, Option.head?_toList]

end Permuted

section Environment

variable {environment : Option String} {args : List String} {r : Reading}

theorem parse_of_read (hread : Reading.arguments {} args = .ok r) (h : r.read.config ≠ none ∨ environment = none) :
    parse environment args = .ok r.read := by
  unfold parse
  rw [hread]
  simp only [bind, Except.bind]
  split
  · simp_all
  · rfl

theorem parse_of_environment (hread : Reading.arguments {} args = .ok r) (hconfig : r.read.config = none)
    (value : String) : parse (some value) args = r.read.put .config value := by
  unfold parse
  rw [hread]
  simp only [bind, Except.bind, hconfig]

end Environment

/-- The arguments of a command line can be given in any order in which the patterns keep theirs: it asks for that
path, settings file, extension, patterns and switch, and for the verbosity up to the greatest one. A settings file
that is given goes before the one that the environment names; if none is given, the environment may not name the
empty one. -/
theorem order_does_not_matter (a : Arguments) (hpath : ∀ p ∈ a.path, p ≠ "" ∧ p.toList.head? ≠ some '-')
    (hconfig : ∀ c ∈ a.config, c ≠ "") (line : List Token) (horder : line.Perm a.tokens)
    (hexclude : valuesFor .exclude line = a.exclude) (environment : Option String) :
    (a.config ≠ none ∨ environment ≠ some "" → parse environment (line.map Token.text) =
      .ok { a with config := a.config.or environment, verbosity := min a.verbosity 255 }) ∧
    (a.config = none ∧ environment = some "" → parse environment (line.map Token.text) =
      .error (.refused (.missingValue .config))) := by
  obtain ⟨r, hread, hasked⟩ := Reading.holds_nil.arguments
    (fun t ht => allowed_of_mem_tokens hpath hconfig (horder.mem_iff.1 ht)) (single_of_perm horder)
  rw [List.nil_append, asked_of_perm horder hexclude] at hasked
  have hgiven : r.read.config = a.config := by rw [hasked]
  constructor
  · intro henvironment
    cases hc : a.config with
    | some c =>
      rw [parse_of_read hread (Or.inl (by simp [hgiven, hc])), hasked, hc]
      rfl
    | none =>
      cases environment with
      | none =>
        rw [parse_of_read hread (Or.inr rfl), hasked, hc]
        rfl
      | some value =>
        -- what the environment names is put in as if it had been given
        have hne : value ≠ "" := by
          rintro rfl
          simp [hc] at henvironment
        rw [parse_of_environment hread (hgiven.trans hc), put_config (hgiven.trans hc) hne, hasked]
        rfl
  · rintro ⟨hc, rfl⟩
    rw [parse_of_environment hread (hgiven.trans hc), put_config_empty (hgiven.trans hc)]

/-- Values that look like arguments, and an environment that would be refused without a settings file. -/
theorem order_of_values_like_arguments :
    parse (some "") ["-v", "--exclude=", "--config=--dry-run", "a=b", "--exclude=--exclude=-v", "-v", "--extension=",
        "--dry-run"] =
      .ok { path := some "a=b", dryRun := true, config := some "--dry-run", extension := some "",
            exclude := ["", "--exclude=-v"], verbosity := 2 } :=
  (order_does_not_matter
    { path := some "a=b", dryRun := true, config := some "--dry-run", extension := some "",
      exclude := ["", "--exclude=-v"], verbosity := 2 }
    (by decide) (by decide)
    [.verbose, .exclude "", .config "--dry-run", .path "a=b", .exclude "--exclude=-v", .verbose, .extension "", .dryRun]
    (by decide) (by decide) (some "")).1 (Or.inl (by decide))

/-- An environment that names the empty settings file is not as good as none: without a settings file on the command
line nothing can be read, not even the command line without arguments. -/
theorem empty_environment_is_refused :
    parse (some "") [] = .error (.refused (.missingValue .config)) ∧ parse (some "") [] ≠ .ok {} := by
  decide

end Arguments
end AlphaCodemod
