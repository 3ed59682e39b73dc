/-
The table that the statements of a document make. A key is given once: a second value for it, a
second header for a table, or a header for what is no table, is a fault at the later place. Tables
that only longer keys speak of are implicit, and may still get a header of their own unless a dotted
key made them. Statements are taken in order, and so are the words within them: of several faults in
a document the first is found.
-/
import AlphaCodemod.Toml.Document

namespace AlphaCodemod
namespace Toml

/-- What stands under a key. The places are those of the values, and of the headers or keys that
made the tables. -/
inductive Entry where
  | value (v : Located Value)
  | table (implicit dotted : Bool) (entries : List (Key × Entry)) (span : Span)
  | tables (items : List (List (Key × Entry) × Span)) (span : Span)
deriving Repr

/-- The entries of a table, in the order in which their keys came up. -/
abbrev Entries := List (Key × Entry)

/-- A table that is being filled. -/
structure Table where
  implicit : Bool := false
  dotted : Bool := false
  entries : Entries := []
deriving Repr

namespace Table

def find? (t : Table) (key : Key) : Option Entry :=
  (t.entries.find? fun (k, _) => k.value == key.value).map (·.2)

/-- Gives a new entry to a key that has one, or a first one to a key that has none. -/
def set (t : Table) (key : Key) (e : Entry) : Table :=
  { t with
    entries :=
      if (t.find? key).isSome then
        t.entries.map fun (k, old) => if k.value == key.value then (k, e) else (k, old)
      else t.entries ++ [(key, e)] }

/-- The same for a key that takes the place of an equal one. -/
def setKey (t : Table) (key : Key) (e : Entry) : Table :=
  { t with entries := t.entries.filter (fun (k, _) => k.value != key.value) ++ [(key, e)] }

end Table

/-! ## Faults -/

def duplicateKey (key : Key) : Fault := .located key.span "duplicate key"

def cannotExtend (key : Key) (v : Value) : Fault :=
  .located key.span ("cannot extend value of type " ++ v.kind ++ " with a dotted key")

/-- Too many keys in a row. -/
def tooDeep : Fault := ⟨none, "recursion limit"⟩

/-! ## Filling tables -/

/-- What is filled with values: the tables of the document, or an inline table. -/
inductive Scope where
  | document
  | inlineTable
deriving DecidableEq, Repr

/-- Why a value cannot be gone into. Within an inline table, another one there is a table with a key
of its own. -/
def Scope.closed (scope : Scope) (key : Key) (v : Value) : Fault :=
  match scope, v with
  | .inlineTable, .inlineTable => duplicateKey key
  | _, _ => cannotExtend key v

/-- Changes the table under a path of keys, making the tables on the way that are not there. Of an
array of tables the last one is meant. -/
def Table.descend (scope : Scope) (dotted : Bool) (change : Table → Except Fault Table) :
    List Key → Table → Except Fault Table
  | [], t => change t
  | key :: keys, t =>
    match t.find? key with
    | none => do
      let child ← Table.descend scope dotted change keys { implicit := true, dotted := dotted }
      return t.set key (.table child.implicit child.dotted child.entries key.span)
    | some (.value v) => throw (scope.closed key v.value)
    | some (.table implicit childDotted entries span) => do
      if dotted && !implicit then throw (duplicateKey key)
      let child ← Table.descend scope dotted change keys ⟨implicit, childDotted, entries⟩
      return t.set key (.table child.implicit child.dotted child.entries span)
    | some (.tables items span) => do
      match items.getLast? with
      | none => throw (duplicateKey key)
      | some (entries, itemSpan) =>
        let child ← Table.descend scope dotted change keys ⟨false, false, entries⟩
        return t.set key (.tables (items.dropLast ++ [(child.entries, itemSpan)]) span)

/-- The keys of a path, and the last one apart. -/
def splitLast? (keys : List Key) : Option (List Key × Key) :=
  keys.getLast?.map (keys.dropLast, ·)

/-- Gives a value to a key that has none yet. -/
def Table.assign (scope : Scope) (t : Table) (keys : List Key) (v : Located Value) :
    Except Fault Table :=
  match splitLast? keys with
  | none => .ok t
  | some (path, key) =>
    let dotted := !path.isEmpty
    t.descend scope dotted
      (fun parent =>
        if parent.dotted != dotted || (parent.find? key).isSome then throw (duplicateKey key)
        else return parent.set key (.value v))
      path

/-! ## Reading words -/

/-- The keys that some words spell. -/
def readKeyWords (ws : List Word) : Except Fault (List Key) := do
  let keys ← (ws.take maxDepth).mapM Word.key
  if maxDepth < ws.length then throw tooDeep
  return keys

mutual

/-- The value of an expression. -/
def Expression.value : Expression → Except Fault (Located Value)
  | .word w => w.value
  | .array items span => do return ⟨.array (← Expression.values items), span⟩
  | .inlineTable pairs span => do
    Expression.checkPairs {} pairs
    return ⟨.inlineTable, span⟩

def Expression.values : List Expression → Except Fault (List (Located Value))
  | [] => .ok []
  | e :: es => do
    let v ← e.value
    return v :: (← Expression.values es)

/-- The pairs of an inline table, some of which are in a table already, are free of faults. -/
def Expression.checkPairs (t : Table) : List (List Word × Expression) → Except Fault Unit
  | [] => .ok ()
  | (keys, e) :: pairs => do
    let keys ← readKeyWords keys
    Expression.checkPairs (← t.assign .inlineTable keys (← e.value)) pairs

end

/-! ## Documents -/

/-- A line of a section: an assignment, or that it cannot be read. -/
abbrev Line := Except Fault (List Word × Expression)

/-- A header, or that it cannot be read. -/
structure Header where
  many : Bool
  keys : List Word
  span : Span
deriving Repr

/-- A header with the lines that belong to it. -/
structure Section where
  header : Except Fault Header
  lines : List Line

/-- The lines before the first header, and the sections behind it. -/
def sections : List Statement → List Line × List Section
  | [] => ([], [])
  | s :: rest =>
    let (lines, after) := sections rest
    match s with
    | .assign keys e => (.ok (keys, e) :: lines, after)
    | .unreadable false f => (.error f :: lines, after)
    | .header many keys span => ([], ⟨.ok ⟨many, keys, span⟩, lines⟩ :: after)
    | .unreadable true f => ([], ⟨.error f, lines⟩ :: after)

/-- Fills a table with assignments, in order. -/
def Table.fill (t : Table) (lines : List Line) : Except Fault Table :=
  lines.foldlM
    (fun t line => do
      let (keys, e) ← line
      let keys ← readKeyWords keys
      t.assign .document keys (← e.value))
    t

/-- Adds a section to the table of the document. A table that only longer keys have spoken of so far
keeps what it holds. An array of tables is looked up when its new table has been filled, a single
table before. -/
def Table.addSection (root : Table) (s : Section) : Except Fault Table := do
  let h ← s.header
  match splitLast? (← readKeyWords h.keys) with
  | none => return root
  | some (path, key) =>
    if h.many then
      let t ← Table.fill {} s.lines
      root.descend .document false
        (fun parent =>
          match parent.find? key with
          | none => return parent.set key (.tables [(t.entries, h.span)] h.span)
          | some (.tables items span) =>
            return parent.set key (.tables (items ++ [(t.entries, h.span)]) span)
          | some _ => throw (duplicateKey key))
        path
    else
      root.descend .document false
        (fun parent => do
          let entries ← match parent.find? key with
            | none => pure []
            | some (.table true false entries _) => pure entries
            | some _ => throw (duplicateKey key)
          let t ← Table.fill { entries := entries } s.lines
          return parent.setKey key (.table false false t.entries h.span))
        path

/-- The table of a document. -/
def Table.ofDocument (document : List Char) : Except Fault Table := do
  let (lines, after) := sections (statements document)
  after.foldlM Table.addSection (← Table.fill {} lines)

end Toml
end AlphaCodemod
