/-
Settings in a document: the keys `extension` and `exclude`, both of which may be left out. Keys are
looked at in the order of their names; the first one that is unknown or holds the wrong kind of
value is the fault.
-/
import AlphaCodemod.Settings.Basic
import AlphaCodemod.Text.Quoted
import AlphaCodemod.Number.Shortest
import AlphaCodemod.Toml.Table

namespace AlphaCodemod
namespace Settings

open Toml

/-! ## Kinds -/

/-- What is said about an integer in the wrong place; beyond 64 bits its width is named, and beyond
128 bits it is no integer at all. -/
def integerFault (n : Int) (expected : String) : String :=
  let shown := "invalid type: integer `" ++ toString n ++ "`"
  if -Int.pow 2 63 ≤ n ∧ n < Int.pow 2 64 then shown ++ ", expected " ++ expected
  else if -Int.pow 2 127 ≤ n ∧ n < Int.pow 2 127 then shown ++ " as i128, expected " ++ expected
  else if 0 ≤ n ∧ n < Int.pow 2 128 then shown ++ " as u128, expected " ++ expected
  else "integer number overflowed"

/-- What is said about a value in the wrong place. -/
def kindFault (v : Value) (expected : String) : String :=
  let wrong (found : String) : String := "invalid type: " ++ found ++ ", expected " ++ expected
  match v with
  | .string s => wrong ("string " ++ String.ofList (quoted s.toList))
  | .integer none => "integer number overflowed"
  | .integer (some n) => integerFault n expected
  | .float none => "floating-point number overflowed"
  | .float (some x) => wrong ("floating point `" ++ String.ofList x.text ++ "`")
  | .boolean b => wrong ("boolean `" ++ (if b then "true" else "false") ++ "`")
  | .moment => wrong "map"
  | .array _ => wrong "sequence"
  | .inlineTable => wrong "map"

def mapFault (expected : String) : String := "invalid type: map, expected " ++ expected

def sequenceFault (expected : String) : String := "invalid type: sequence, expected " ++ expected

/-! ## Fields -/

def stringOf (v : Located Value) : Except Fault String :=
  match v.value with
  | .string s => .ok s
  | other => .error (.located v.span (kindFault other "a string"))

/-- The value of `extension`. -/
def extensionOf : Entry → Except Fault String
  | .value v => stringOf v
  | .table _ _ _ span => .error (.located span (mapFault "a string"))
  | .tables _ span => .error (.located span (sequenceFault "a string"))

/-- The value of `exclude`. -/
def excludeOf : Entry → Except Fault (List String)
  | .value ⟨.array items, _⟩ => items.mapM stringOf
  | .value v => .error (.located v.span (kindFault v.value "a sequence"))
  | .table _ _ _ span => .error (.located span (mapFault "a sequence"))
  | .tables items _ => items.mapM fun (_, span) => .error (.located span (mapFault "a string"))

def unknownKey (key : Key) : Fault :=
  .located key.span ("unknown field `" ++ key.value ++ "`, expected `extension` or `exclude`")

/-- Settings with one more field. -/
def setField (s : Settings) (field : Key × Entry) : Except Fault Settings := do
  if field.1.value = "extension" then return { s with extension := ← extensionOf field.2 }
  else if field.1.value = "exclude" then return { s with exclude := ← excludeOf field.2 }
  else throw (unknownKey field.1)

/-! ## Documents -/

def ofTable (t : Table) : Except Fault Settings :=
  (t.entries.mergeSort fun a b => decide (a.1.value ≤ b.1.value)).foldlM setField {}

/-- The settings of a document; what it does not say is as by default. -/
def ofDocument (document : List Char) : Except Fault Settings := do
  ofTable (← Table.ofDocument document)

/-- The name of a settings file. -/
def fileName : String := ".opacity-migrate.toml"

/-- A fault of a settings document in words. -/
def documentFaultText (document : List Char) (f : Fault) : String :=
  "Failed to parse " ++ fileName ++ ": " ++ f.text document

end Settings
end AlphaCodemod
