/-
Settings can be written and read back. A document has a line for each field that is given, in any order; the fields
are taken in the order of their names, which comes to the same, since each of them is set apart from the other.
-/
import AlphaCodemod.Proofs.Toml.Assignments
import AlphaCodemod.Settings.Document
import Mathlib.Data.List.Perm.Basic

namespace AlphaCodemod
namespace Settings

open Toml

/-! ## Fields -/

/-- A field of a settings document. -/
inductive Field where
  | extension (value : String)
  | exclude (patterns : List String)
deriving DecidableEq, Repr

namespace Field

/-- How a field is written. -/
def assignment : Field → Assignment
  | .extension value => ⟨"extension", .string value, by decide⟩
  | .exclude patterns => ⟨"exclude", .strings patterns, by decide⟩

/-- The settings with a field. -/
def apply (s : Settings) : Field → Settings
  | .extension value => { s with extension := value }
  | .exclude patterns => { s with exclude := patterns }

end Field

/-- The fields of settings of which some may be left to the defaults. -/
def given (extension : Option String) (exclude : Option (List String)) : List Field :=
  (extension.map Field.extension).toList ++ (exclude.map Field.exclude).toList

/-! ## Reading them -/

theorem stringOf_eq {v : Located Value} {s : String} (h : v.value = .string s) : stringOf v = .ok s := by
  rw [stringOf, h]

theorem mapM_stringOf {items : List (Located Value)} {ss : List String} (h : items.map (·.value) = ss.map .string) :
    items.mapM stringOf = .ok ss := by
  induction items generalizing ss with
  | nil =>
    rw [List.map_nil, eq_comm, List.map_eq_nil_iff] at h
    rw [h]
    rfl
  | cons v items ih =>
    cases ss with
    | nil => cases h
    | cons s ss =>
      obtain ⟨hv, hitems⟩ := List.cons.inj h
      rw [List.mapM_cons, stringOf_eq hv, ih hitems]
      rfl

/-- An entry is set as the field that was written. -/
theorem setField_of_holds {entry : Key × Entry} {f : Field} (h : Holds entry f.assignment) (s : Settings) :
    setField s entry = .ok (f.apply s) := by
  obtain ⟨key, entry⟩ := entry
  obtain ⟨hkey, ⟨value, span⟩, rfl, hvalue⟩ := h
  cases f with
  | extension value =>
    have hname : key.value = "extension" := hkey
    rw [setField, if_pos hname, extensionOf, stringOf_eq hvalue]
    rfl
  | exclude patterns =>
    have hname : key.value = "exclude" := hkey
    obtain ⟨items, rfl, hitems⟩ := hvalue
    rw [setField, if_neg (by simp [hname]), if_pos hname, excludeOf, mapM_stringOf hitems]
    rfl

theorem foldlM_setField {entries : Entries} {fields : List Field}
    (h : List.Forall₂ (fun entry f => Holds entry f.assignment) entries fields) (s : Settings) :
    entries.foldlM setField s = .ok (fields.foldl Field.apply s) := by
  induction h generalizing s with
  | nil => rfl
  | cons hhead _ ih =>
    rw [List.foldlM_cons, setField_of_holds hhead]
    exact ih _

/-! ## Order -/

def Field.name (f : Field) : String := f.assignment.key

/-- Fields of different names are set apart from each other. -/
theorem apply_comm {f g : Field} (h : f.name ≠ g.name) (s : Settings) : g.apply (f.apply s) = f.apply (g.apply s) := by
  cases f <;> cases g <;> first | rfl | exact absurd rfl h

theorem foldl_apply_perm {fields fields' : List Field} (h : fields.Perm fields')
    (hnames : (fields.map Field.name).Nodup) (s : Settings) : fields.foldl Field.apply s = fields'.foldl Field.apply s := by
  refine h.foldl_eq' ?_ s
  intro f hf g hg s
  by_cases hname : f.name = g.name
  · -- two fields of one name are the same one
    rw [List.inj_on_of_nodup_map hnames hf hg hname]
  · exact apply_comm hname s

theorem foldl_apply_given (extension : Option String) (exclude : Option (List String)) :
    (given extension exclude).foldl Field.apply {} =
      { extension := extension.getD "dart", exclude := exclude.getD [] } := by
  cases extension <;> cases exclude <;> rfl

theorem nodup_given (extension : Option String) (exclude : Option (List String)) :
    ((given extension exclude).map Field.name).Nodup := by
  cases extension <;> cases exclude <;> simp [given, Field.name, Field.assignment]

/-- The fields of a table are set in the order of their names, which comes to the same as their own order. -/
theorem ofTable_of_holds {t : Table} {fields : List Field}
    (h : List.Forall₂ (fun entry f => Holds entry f.assignment) t.entries fields)
    (hnames : (fields.map Field.name).Nodup) :
    ofTable t = .ok (fields.foldl Field.apply {}) := by
  -- sorting the entries takes the fields along
  obtain ⟨sorted, hsorted, hperm⟩ := List.perm_comp_forall₂ (List.mergeSort_perm t.entries _) h
  rw [foldl_apply_perm hperm.symm hnames]
  exact foldlM_setField hsorted {}

theorem ofDocument_of_fields (l : Layout) {fields : List Field} (hnames : (fields.map Field.name).Nodup) :
    ofDocument (document l (fields.map Field.assignment)) = .ok (fields.foldl Field.apply {}) := by
  have hkeys : ((fields.map Field.assignment).map (·.key)).Nodup := by
    rw [List.map_map]
    exact hnames
  obtain ⟨t, ht, hentries⟩ := ofDocument_document l (fields.map Field.assignment) hkeys
  rw [List.forall₂_map_right_iff] at hentries
  rw [ofDocument, ht]
  exact ofTable_of_holds hentries hnames

/-- Every configuration can be written and read back: whatever the strings hold and in whatever order the lines stand,
the document is read as the fields that it gives, and what is left out is as by default. -/
theorem written_settings_are_read_back (extension : Option String) (exclude : Option (List String)) (l : Layout)
    (fields : List Field) (horder : fields.Perm (given extension exclude)) :
    ofDocument (document l (fields.map Field.assignment)) =
      .ok { extension := extension.getD "dart", exclude := exclude.getD [] } := by
  have hnames : (fields.map Field.name).Nodup :=
    (horder.map Field.name).nodup_iff.2 (nodup_given extension exclude)
  rw [ofDocument_of_fields l hnames, foldl_apply_perm horder hnames, foldl_apply_given]

/-- A document whose strings look like what stands around them. -/
theorem settings_that_look_like_marks :
    ofDocument
        "exclude = [\"\", \"\\\"], [\\\"\", \"\\\\\", \"#\"]\r\nextension = \"\\u000A\\u007F = ]\"".toList =
      .ok { extension := "\n\x7f = ]", exclude := ["", "\"], [\"", "\\", "#"] } :=
  written_settings_are_read_back (some "\n\x7f = ]") (some ["", "\"], [\"", "\\", "#"])
    ⟨true, true, false⟩ [.exclude ["", "\"], [\"", "\\", "#"], .extension "\n\x7f = ]"] (.swap _ _ [])

end Settings
end AlphaCodemod
