/-! Values of a TOML document and the tables they are collected in. How a table was written decides
what may still be added to it, so every table remembers its form. -/
namespace ArmMachine.Toml

inductive Form where
  /-- By the header of a table further down. -/
  | implied
  /-- By a dotted key. -/
  | dotted
  /-- By a header of its own. -/
  | header
  /-- In braces, where it is complete. -/
  | inline
  deriving DecidableEq, Repr

/-- A value. Reals and moments are only told apart from the rest: nothing here reads their content.
-/
inductive Value where
  | text (s : String)
  | integer (n : Int)
  | boolean (b : Bool)
  | real
  | moment
  | array (items : List Value)
  /-- An array of tables, one header in double brackets each. Later headers mean the latest one. -/
  | tables (earlier : List Value) (latest : List (String × Value))
  | table (form : Form) (entries : List (String × Value))

/-- The content of a table, in the order of writing. No key occurs twice. -/
abbrev Entries := List (String × Value)

namespace Value

/-- The items of an array, however it was written. -/
def items? : Value → Option (List Value)
  | array items => some items
  | tables earlier latest => some (earlier ++ [table .header latest])
  | _ => none

def isVacant : Value → Bool
  | array [] | table _ [] => true
  | _ => false

end Value

namespace Entries

/-- Replaces the value of a key where it stands, or adds the key at the end. -/
def put (key : String) (value : Value) : Entries → Entries
  | [] => [(key, value)]
  | (k, v) :: rest => if k = key then (key, value) :: rest else (k, v) :: put key value rest

/-- Adds a key. Keys are set once. -/
def add? (es : Entries) (key : String) (value : Value) : Option Entries :=
  if (es.lookup key).isSome then none else some (es ++ [(key, value)])

/-- Sets a dotted key, `path` being its parts but the last. A table on the way is made when it is
missing; the table that takes the key must have been made by dotted keys. -/
def assign? (es : Entries) : List String → String → Value → Option Entries
  | [], key, value => es.add? key value
  | part :: path, key, value =>
    match es.lookup part with
    | none => (assign? [] path key value).map fun inner => es.put part (.table .dotted inner)
    | some (.table form inner) =>
      if form = .dotted || (form = .implied && !path.isEmpty) then
        (assign? inner path key value).map fun inner => es.put part (.table form inner)
      else none
    | some (.tables earlier latest) =>
      if path.isEmpty then none
      else (assign? latest path key value).map fun latest => es.put part (.tables earlier latest)
    | some _ => none

/-- Changes the table under one part of a header. A missing table is implied; of an array of tables
the latest is meant. -/
def within? (es : Entries) (part : String) (change : Entries → Option Entries) : Option Entries :=
  match es.lookup part with
  | none => (change []).map fun inner => es.put part (.table .implied inner)
  | some (.table form inner) =>
    if form = .inline then none else (change inner).map fun inner => es.put part (.table form inner)
  | some (.tables earlier latest) =>
    (change latest).map fun latest => es.put part (.tables earlier latest)
  | some _ => none

/-- Changes the table that a header names. -/
def under? (es : Entries) (change : Entries → Option Entries) : List String → Option Entries
  | [] => change es
  | part :: path => es.within? part fun inner => under? inner change path

def begin? (key : String) (es : Entries) : Option Entries :=
  match es.lookup key with
  | none => some (es.put key (.table .header []))
  | some (.table .implied inner) => some (es.put key (.table .header inner))
  | some _ => none

def beginElement? (key : String) (es : Entries) : Option Entries :=
  match es.lookup key with
  | none => some (es.put key (.tables [] []))
  | some (.tables earlier latest) =>
    some (es.put key (.tables (earlier ++ [.table .header latest]) []))
  | some _ => none

end Entries
end ArmMachine.Toml
