/-!
# TOML values

A table remembers how it came to be, since that decides what may still be added to it. A table in
braces is closed; one with a header of its own may get subtables but no second header; one that was
only named on the way to another may still get its header; and one made by a dotted key may get more
dotted keys, but no header.

Floating point numbers and dates are recognised, but no setting has such a value, so nothing of them
is kept.
-/

namespace BrightLexer.Toml

/-- How a table came to be. -/
inductive Origin where
  /-- Written in braces. -/
  | braces
  /-- Opened by a header of its own. -/
  | header
  /-- Named on the way to another table in a header. -/
  | implied
  /-- Named on the way to a value in a dotted key. -/
  | dotted
deriving DecidableEq

/-- A TOML value. -/
inductive Value where
  | string (s : String)
  | integer (i : Int)
  | float
  | boolean (b : Bool)
  | dateTime
  | array (elements : List Value)
  | table (origin : Origin) (fields : List (String × Value))
  /-- The tables that share a header in double brackets. -/
  | tables (elements : List (List (String × Value)))

/-- The keys of a table with their values. -/
abbrev Fields := List (String × Value)

/-- Puts a value in the place of the one that a key has. -/
def Fields.replace (key : String) (v : Value) : Fields → Fields
  | [] => []
  | (k, w) :: fields => if k = key then (k, v) :: fields else (k, w) :: Fields.replace key v fields

/-- Changes the fields of the table at the end of a path, or fails. Tables missing on the way are
made, by a dotted key or on the way to a header; a dotted key may not enter a table with a header; and
of tables that share a header the last one is entered. -/
def Fields.alter (byDottedKey : Bool) (change : Origin → Fields → Option Fields) :
    List String → Origin → Fields → Option Fields
  | [], origin, fields => change origin fields
  | key :: path, _, fields =>
    match fields.lookup key with
    | none =>
      let origin := if byDottedKey then .dotted else .implied
      (Fields.alter byDottedKey change path origin []).map fun sub =>
        fields ++ [(key, .table origin sub)]
    | some (.table origin sub) =>
      if origin = .braces ∨ (byDottedKey ∧ origin = .header) then none
      else (Fields.alter byDottedKey change path origin sub).map fun sub =>
        fields.replace key (.table origin sub)
    | some (.tables elements) =>
      match elements.getLast? with
      | none => none
      | some last => (Fields.alter byDottedKey change path .header last).map fun last =>
        fields.replace key (.tables (elements.dropLast ++ [last]))
    | some _ => none

/-- Adds a key with its value to a table. The path leads to the table from the one the key is written
in, and what it leads to must have been made by dotted keys. A key is added only once. -/
def Fields.insert (path : List String) (key : String) (v : Value) (fields : Fields) : Option Fields :=
  let add (origin : Origin) (fields : Fields) : Option Fields :=
    if (!path.isEmpty && origin ≠ .dotted) || (fields.lookup key).isSome then none
    else some (fields ++ [(key, v)])
  Fields.alter true add path .header fields

/-- A key, as the path to its table and its last part, with its value. -/
structure Pair where
  path : List String
  key : String
  value : Value

/-- Adds keys with their values in turn. -/
def Fields.insertAll (fields : Fields) (pairs : List Pair) : Option Fields :=
  pairs.foldlM (fun fields p => fields.insert p.path p.key p.value) fields

/-- A header with the keys under it. -/
structure Section where
  /-- Whether the header is in double brackets, so that it opens one more table of several. -/
  isElement : Bool
  /-- The path to the table that holds the new one. -/
  path : List String
  /-- The key of the new table. -/
  key : String
  /-- The keys under the header. -/
  pairs : List Pair

/-- Adds a table with a header to a document. -/
def Fields.addSection (root : Fields) (s : Section) : Option Fields :=
  let place (_ : Origin) (fields : Fields) : Option Fields :=
    match s.isElement, fields.lookup s.key with
    | false, none => do
      let new ← Fields.insertAll [] s.pairs
      return fields ++ [(s.key, .table .header new)]
    | false, some (.table .implied sub) => do
      let new ← Fields.insertAll sub s.pairs
      return fields.replace s.key (.table .header new)
    | true, none => do
      let new ← Fields.insertAll [] s.pairs
      return fields ++ [(s.key, .tables [new])]
    | true, some (.tables elements) => do
      let new ← Fields.insertAll [] s.pairs
      return fields.replace s.key (.tables (elements ++ [new]))
    | _, _ => none
  Fields.alter false place s.path .header root

end BrightLexer.Toml
