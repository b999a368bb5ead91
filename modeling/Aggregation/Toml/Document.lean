import Aggregation.Toml.Value

/-! TOML documents: statements on lines of their own, and the table that they build. -/
namespace Aggregation.Toml

/-- What a line says. -/
inductive Statement where
  /-- A key in the table of the last header gets a value. -/
  | assign (k : Key) (value : Item)
  /-- A header of a table. -/
  | head (k : Key)
  /-- A header of one more table of several. -/
  | begin (k : Key)

/-! ### Reading -/

/-- A header between its brackets. -/
def header (cs : List Char) : Option (Statement × List Char) :=
  match cs with
  | '[' :: rest =>
    match key rest with
    | some (k, ']' :: ']' :: rest) => some (.begin k, rest)
    | _ => none
  | _ =>
    match key cs with
    | some (k, ']' :: rest) => some (.head k, rest)
    | _ => none

/-- A statement, without the end of its line. -/
def statement (cs : List Char) : Option (Statement × List Char) :=
  match cs with
  | '[' :: rest => header rest
  | _ =>
    match key cs with
    | some (k, '=' :: rest) =>
      let rest := skipBlanks rest
      (value (2 * rest.length + 2) depthLimit rest).map fun (v, rest) => (.assign k v, rest)
    | _ => none

/-- All statements of a text; each takes a line. -/
def statements : (fuel : Nat) → List Char → Option (List Statement)
  | 0, _ => none
  | fuel + 1, cs =>
    match skipLines (cs.length + 1) cs with
    | none => none
    | some [] => some []
    | some cs =>
      match statement cs with
      | none => none
      | some (s, rest) =>
        match lineEnd rest with
        | none => none
        | some rest => (statements fuel rest).map fun more => s :: more

/-- A mark of the byte order is skipped. -/
def skipMark : List Char → List Char
  | '\ufeff' :: rest => rest
  | cs => cs

/-! ### Building -/

/-- A document under construction: the path of the last header, and everything so far. -/
structure Draft where
  path : List String
  entries : Entries

/-- The path to a key's own table. -/
def Key.whole (k : Key) : List String :=
  k.path ++ [k.last]

def Draft.add (d : Draft) : Statement → Option Draft
  | .assign k v =>
    (Entries.alter .passed (Entries.assign k v) d.path .headed d.entries).map fun es => ⟨d.path, es⟩
  | .head k => (Entries.head k d.entries).map fun es => ⟨k.whole, es⟩
  | .begin k => (Entries.begin k d.entries).map fun es => ⟨k.whole, es⟩

/-- What a document holds. -/
def document? (cs : List Char) : Option Entries := do
  let read ← statements (cs.length + 1) (skipMark cs)
  let d ← read.foldlM Draft.add ⟨[], []⟩
  return d.entries

end Aggregation.Toml
