import ArmMachine.Toml.Scalar

/-! Reading a TOML document. A document is a sequence of lines: a header names the table that the
following keys belong to, a key is followed by its value. Every reader takes the text that is left
and answers what it read and what is left after it, or nothing when the text is not TOML. -/
namespace ArmMachine.Toml

/-! ## Between values -/

def skipBlanks (cs : List Char) : List Char := cs.dropWhile isBlank

def skipComment? (cs : List Char) : Option (List Char) :=
  match cs with
  | '#' :: rest =>
    let after := rest.dropWhile isPrintable
    if after.isEmpty || startsLine after then some after else none
  | _ => some cs

def skipLineEnd? : List Char → Option (List Char)
  | '\n' :: rest | '\r' :: '\n' :: rest => some rest
  | _ => none

/-- Skips what may stand between the parts of an array: blanks, comments and ends of lines. The
bound counts lines. -/
def skipLines? : Nat → List Char → Option (List Char)
  | 0, _ => none
  | bound + 1, cs =>
    match skipComment? (skipBlanks cs) with
    | none => none
    | some after =>
      match skipLineEnd? after with
      | none => some after
      | some rest => skipLines? bound rest

/-- The text has fewer lines than it has characters left, and one more. -/
def skipSpace? (cs : List Char) : Option (List Char) := skipLines? (cs.length + 1) cs

/-! ## Keys -/

def isBareKeyChar (c : Char) : Bool := c.isAlphanum || c = '_' || c = '-'

def keyPart? (cs : List Char) : Option (String × List Char) :=
  match lineText? cs with
  | some read => some read
  | none =>
    let part := cs.takeWhile isBareKeyChar
    if part.isEmpty then none else some (String.ofList part, cs.drop part.length)

/-- A key: its parts before the last, the last, and what follows. The bound counts parts. -/
def keyParts? : Nat → List Char → Option (List String × String × List Char)
  | 0, _ => none
  | bound + 1, cs => do
    let (part, after) ← keyPart? (skipBlanks cs)
    match skipBlanks after with
    | '.' :: rest =>
      let (path, key, rest) ← keyParts? bound rest
      return (part :: path, key, rest)
    | rest => return ([], part, rest)

def key? (cs : List Char) : Option (List String × String × List Char) :=
  keyParts? (cs.length + 1) cs

/-! ## Values -/

abbrev ValueReader := List Char → Option (Value × List Char)

/-- A key, its value and what follows. The value begins on the line of the key. -/
def pair? (value? : ValueReader) (cs : List Char) :
    Option (List String × String × Value × List Char) := do
  let (path, key, after) ← key? cs
  match after with
  | '=' :: rest =>
    let (value, rest) ← value? (skipBlanks rest)
    return (path, key, value, rest)
  | _ => none

/-- The rest of an array. The bound counts items; a comma may follow the last one. -/
def arrayRest? (value? : ValueReader) : Nat → List Char → Option (List Value × List Char)
  | 0, _ => none
  | bound + 1, cs => do
    match ← skipSpace? cs with
    | ']' :: rest => return ([], rest)
    | cs =>
      let (item, after) ← value? cs
      match ← skipSpace? after with
      | ',' :: rest =>
        let (items, rest) ← arrayRest? value? bound rest
        return (item :: items, rest)
      | ']' :: rest => return ([item], rest)
      | _ => none

/-- The rest of a table in braces, after the entries that were read. -/
def inlineRest? (value? : ValueReader) : Nat → Entries → List Char → Option (Entries × List Char)
  | 0, _, _ => none
  | bound + 1, entries, cs => do
    match ← skipSpace? cs with
    | '}' :: rest => return (entries, rest)
    | cs =>
      let (path, key, value, after) ← pair? value? cs
      let entries ← entries.assign? path key value
      match ← skipSpace? after with
      | ',' :: rest => inlineRest? value? bound entries rest
      | '}' :: rest => return (entries, rest)
      | _ => none

/-- A value with at most `depth` arrays and tables around one another. -/
def valueWithin? : Nat → ValueReader
  | 0, cs => (quoted? cs).map (fun (s, rest) => (.text s, rest)) |>.or (scalar? cs)
  | depth + 1, cs =>
    match cs with
    | '[' :: rest =>
      (arrayRest? (valueWithin? depth) cs.length rest).map fun (items, rest) => (.array items, rest)
    | '{' :: rest =>
      (inlineRest? (valueWithin? depth) cs.length [] rest).map fun (entries, rest) =>
        (.table .inline entries, rest)
    | _ => (quoted? cs).map (fun (s, rest) => (.text s, rest)) |>.or (scalar? cs)

def maximumDepth : Nat := 80

def value? : ValueReader := valueWithin? maximumDepth

/-! ## Documents -/

/-- What was read so far: all entries, and the table that the latest header names. -/
structure Document where
  root : Entries
  header : List String

namespace Document

def empty : Document := ⟨[], []⟩

def assign? (d : Document) (path : List String) (key : String) (value : Value) : Option Document :=
  (d.root.under? (fun es => es.assign? path key value) d.header).map fun root => { d with root }

def begin? (d : Document) (path : List String) (key : String) : Option Document :=
  (d.root.under? (Entries.begin? key) path).map fun root => ⟨root, path ++ [key]⟩

def beginElement? (d : Document) (path : List String) (key : String) : Option Document :=
  (d.root.under? (Entries.beginElement? key) path).map fun root => ⟨root, path ++ [key]⟩

/-- What a line says, and the rest of it. -/
def statement? (d : Document) (cs : List Char) : Option (Document × List Char) :=
  match cs with
  | '[' :: '[' :: rest => do
    match ← key? rest with
    | (path, key, ']' :: ']' :: rest) => return (← d.beginElement? path key, rest)
    | _ => none
  | '[' :: rest => do
    match ← key? rest with
    | (path, key, ']' :: rest) => return (← d.begin? path key, rest)
    | _ => none
  | '#' :: _ | '\n' :: _ | '\r' :: '\n' :: _ | [] => some (d, cs)
  | _ => do
    let (path, key, value, rest) ← pair? value? cs
    return (← d.assign? path key value, rest)

/-- Reads the lines that are left. The bound counts them. -/
def lines? : Nat → Document → List Char → Option Document
  | 0, _, _ => none
  | bound + 1, d, cs => do
    let (d, after) ← d.statement? (skipBlanks cs)
    let after ← skipComment? (skipBlanks after)
    match after with
    | [] => return d
    | _ => lines? bound d (← skipLineEnd? after)

end Document

/-- The mark that may open a text to tell its encoding. -/
def byteOrderMark : Char := Char.ofNat 0xFEFF

def entries? (text : String) : Option Entries :=
  let cs := match text.toList with
    | c :: rest => if c = byteOrderMark then rest else c :: rest
    | [] => []
  (Document.empty.lines? (cs.length + 1) cs).map Document.root

end ArmMachine.Toml
