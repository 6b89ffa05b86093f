/-! Quoted texts of TOML: on one line or several, with escapes or verbatim. One reader serves all
four; it is told how many characters an escape has already accounted for. -/
namespace ArmMachine.Toml

structure Quoting where
  mark : Char
  /-- Between three marks on either side. -/
  multiline : Bool
  escapes : Bool

def isBlank (c : Char) : Bool := c = ' ' || c = '\t'

/-- Control characters other than the tab appear in no text and no comment. -/
def isPrintable (c : Char) : Bool := c = '\t' || (0x20 ≤ c.toNat && c.toNat ≠ 0x7F)

def startsLine : List Char → Bool
  | '\n' :: _ | '\r' :: '\n' :: _ => true
  | _ => false

def hexValue? (c : Char) : Option Nat :=
  if '0' ≤ c && c ≤ '9' then some (c.toNat - '0'.toNat)
  else if 'a' ≤ c && c ≤ 'f' then some (c.toNat - 'a'.toNat + 10)
  else if 'A' ≤ c && c ≤ 'F' then some (c.toNat - 'A'.toNat + 10)
  else none

/-- The character with a code of exactly `digits` hexadecimal digits. -/
def codedChar? (digits : Nat) (cs : List Char) : Option Char := do
  let values ← (cs.take digits).mapM hexValue?
  if values.length ≠ digits then none
  let code := values.foldl (fun n d => 16 * n + d) 0
  if h : code.isValidChar then some (Char.ofNatAux code h) else none

namespace Quoting

/-- How many characters a backslash before the end of a line skips, up to the next character that is
neither blank nor the end of a line. -/
def joinLength (cs : List Char) : Option Nat :=
  if startsLine (cs.dropWhile isBlank) then
    some (cs.takeWhile fun c => isBlank c || c = '\n' || c = '\r').length
  else none

/-- What stands after a backslash: the characters meant, and how many were written for them. -/
def escape? (q : Quoting) (cs : List Char) : Option (List Char × Nat) :=
  match cs with
  | 'b' :: _ => some (['\x08'], 1)
  | 't' :: _ => some (['\t'], 1)
  | 'n' :: _ => some (['\n'], 1)
  | 'f' :: _ => some (['\x0c'], 1)
  | 'r' :: _ => some (['\r'], 1)
  | 'e' :: _ => some (['\x1b'], 1)
  | '"' :: _ => some (['"'], 1)
  | '\\' :: _ => some (['\\'], 1)
  | 'x' :: rest => (codedChar? 2 rest).map fun c => ([c], 3)
  | 'u' :: rest => (codedChar? 4 rest).map fun c => ([c], 5)
  | 'U' :: rest => (codedChar? 8 rest).map fun c => ([c], 9)
  | _ => if q.multiline then (joinLength cs).map fun n => ([], n) else none

/-- Whether a text ends here: the characters of a run of marks that still belong to it, and how many
marks end it. Up to two marks may stand before the three that close a text of several lines. -/
def close? (q : Quoting) (cs : List Char) : Option (List Char × Nat) :=
  let run := (cs.takeWhile fun c => c = q.mark).length
  if q.multiline then
    if 3 ≤ run then
      let kept := min (run - 3) 2
      some (List.replicate kept q.mark, kept + 3)
    else none
  else if 1 ≤ run then some ([], 1) else none

/-- Whether the first character may stand in a text as it is. -/
def admits (q : Quoting) (cs : List Char) : Bool :=
  match cs with
  | c :: _ => isPrintable c || (q.multiline && startsLine cs)
  | [] => false

/-- The text up to its closing mark and what follows the mark. The first `skip` characters belong to
an escape that was read before. -/
def body? (q : Quoting) : Nat → List Char → Option (List Char × List Char)
  | _, [] => none
  | skip + 1, _ :: rest => body? q skip rest
  | 0, c :: rest =>
    match q.close? (c :: rest) with
    | some (kept, marks) => some (kept, (c :: rest).drop marks)
    | none =>
      if q.escapes && c = '\\' then
        match q.escape? rest with
        | some (meant, written) => (body? q written rest).map fun (s, after) => (meant ++ s, after)
        | none => none
      else if q.admits (c :: rest) then (body? q 0 rest).map fun (s, after) => (c :: s, after)
      else none

/-- A carriage return is admitted only in front of a line feed, which is read next. -/
def afterFirstLineEnd : List Char → List Char
  | '\n' :: rest | '\r' :: '\n' :: rest => rest
  | cs => cs

end Quoting

def basic : Quoting := ⟨'"', false, true⟩
def literal : Quoting := ⟨'\'', false, false⟩
def multilineBasic : Quoting := ⟨'"', true, true⟩
def multilineLiteral : Quoting := ⟨'\'', true, false⟩

/-- A quoted text on one line, as keys may be written. -/
def lineText? (cs : List Char) : Option (String × List Char) :=
  match cs with
  | '"' :: rest => (basic.body? 0 rest).map fun (s, after) => (String.ofList s, after)
  | '\'' :: rest => (literal.body? 0 rest).map fun (s, after) => (String.ofList s, after)
  | _ => none

/-- Any quoted text. The end of a line right after three opening marks is dropped. -/
def quoted? (cs : List Char) : Option (String × List Char) :=
  let long (q : Quoting) (rest : List Char) : Option (String × List Char) :=
    (q.body? 0 (Quoting.afterFirstLineEnd rest)).map fun (s, after) => (String.ofList s, after)
  match cs with
  | '"' :: '"' :: '"' :: rest => long multilineBasic rest
  | '\'' :: '\'' :: '\'' :: rest => long multilineLiteral rest
  | _ => lineText? cs

end ArmMachine.Toml
