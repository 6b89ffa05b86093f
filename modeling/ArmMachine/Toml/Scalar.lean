import ArmMachine.Toml.Quoted
import ArmMachine.Toml.Value

/-! Values of TOML that are written without marks: numbers, truth values, dates and times. A reader
gets the whole run of characters and accepts all of it or none. -/
namespace ArmMachine.Toml

/-! ## Digits -/

/-- The digits after a digit. An underscore stands between two digits only. -/
def digitsAfter? (isDigit : Char → Bool) : List Char → Option (List Char)
  | [] => some []
  | '_' :: c :: rest => if isDigit c then (digitsAfter? isDigit rest).map (c :: ·) else none
  | c :: rest => if isDigit c then (digitsAfter? isDigit rest).map (c :: ·) else none

/-- One digit or more, without their underscores. -/
def digits? (isDigit : Char → Bool) : List Char → Option (List Char)
  | [] => none
  | c :: rest => if isDigit c then (digitsAfter? isDigit rest).map (c :: ·) else none

def isDecimal (c : Char) : Bool := '0' ≤ c && c ≤ '9'

def numberOf (base : Nat) (ds : List Char) : Nat :=
  ds.foldl (fun n d => base * n + (hexValue? d).getD 0) 0

/-- A number in base 2, 8 or 16, whose mark was read. Zeros may lead. -/
def marked? (base : Nat) (cs : List Char) : Option Nat :=
  (digits? (fun c => (hexValue? c).any (· < base)) cs).map (numberOf base)

/-- Decimal digits of a number, of which only zero itself begins with a zero. -/
def plainDigits? (cs : List Char) : Option (List Char) :=
  match digits? isDecimal cs with
  | some ('0' :: _ :: _) => none
  | ds => ds

/-! ## Numbers -/

/-- Integers of more than 128 bits are refused. -/
def inRange (n : Int) : Bool :=
  match n with
  | .ofNat n => n < 0x100000000000000000000000000000000
  | .negSucc n => n < 0x80000000000000000000000000000000

def integer? (cs : List Char) : Option Int :=
  let plain (cs : List Char) : Option Int := (plainDigits? cs).map fun ds => (numberOf 10 ds : Int)
  let read : Option Int := match cs with
    | '0' :: 'x' :: rest => (marked? 16 rest).map Int.ofNat
    | '0' :: 'o' :: rest => (marked? 8 rest).map Int.ofNat
    | '0' :: 'b' :: rest => (marked? 2 rest).map Int.ofNat
    | '+' :: rest => plain rest
    | '-' :: rest => (plain rest).map Int.neg
    | _ => plain cs
  read.filter inRange

/-- The least number that rounds to no finite double-precision real. -/
def realLimit : Nat := 0x3FFFFFFFFFFFFF <<< 970

def powerOfTen (n : Nat) : Nat := Nat.pow 10 n

/-- Whether `ds` with the decimal point moved `exponent` places to the right is a finite
double-precision real. Exponents that settle the question alone are never raised to a power. -/
def isFinite (ds : List Char) (exponent : Int) : Bool :=
  let n := numberOf 10 ds
  match exponent with
  | .ofNat e => n = 0 || (e ≤ 308 && n * powerOfTen e < realLimit)
  | .negSucc k => ds.length ≤ k || n < realLimit * powerOfTen (k + 1)

def sign (cs : List Char) : Bool × List Char :=
  match cs with
  | '+' :: rest => (false, rest)
  | '-' :: rest => (true, rest)
  | _ => (false, cs)

/-- An exponent: a sign and digits, of which zeros may lead. -/
def exponent? (cs : List Char) : Option Int :=
  let (negative, ds) := sign cs
  (digits? isDecimal ds).map fun ds =>
    if negative then -(numberOf 10 ds : Int) else (numberOf 10 ds : Int)

/-- A real: digits, then a fraction, an exponent or both; or one of the named values. -/
def isReal (cs : List Char) : Bool :=
  let body := (sign cs).2
  if body = "inf".toList || body = "nan".toList then true
  else
    let isMark (c : Char) : Bool := c = 'e' || c = 'E'
    let mantissa := body.takeWhile fun c => !isMark c
    let scale := (body.dropWhile fun c => !isMark c).drop 1
    let whole := mantissa.takeWhile (· ≠ '.')
    let part := (mantissa.dropWhile (· ≠ '.')).drop 1
    let hasPart := whole.length < mantissa.length
    let hasScale := mantissa.length < body.length
    let read : Option Bool := do
      let ds ← plainDigits? whole
      let fs ← if hasPart then digits? isDecimal part else some []
      let e ← if hasScale then exponent? scale else some 0
      some (isFinite (ds ++ fs) (e - fs.length))
    (hasPart || hasScale) && read.getD false

/-! ## Dates and times -/

def twoDigits? (a b : Char) : Option Nat :=
  if isDecimal a && isDecimal b then some (numberOf 10 [a, b]) else none

def isLeapYear (year : Nat) : Bool := year % 4 = 0 && (year % 100 ≠ 0 || year % 400 = 0)

def daysIn (year month : Nat) : Nat :=
  if month = 2 then (if isLeapYear year then 29 else 28)
  else if month ∈ [4, 6, 9, 11] then 30 else 31

/-- What follows a date of the calendar. -/
def afterDate? (cs : List Char) : Option (List Char) :=
  match cs with
  | y1 :: y2 :: y3 :: y4 :: '-' :: m1 :: m2 :: '-' :: d1 :: d2 :: rest => do
    let century ← twoDigits? y1 y2
    let year ← twoDigits? y3 y4
    let month ← twoDigits? m1 m2
    let day ← twoDigits? d1 d2
    if 1 ≤ month && month ≤ 12 && 1 ≤ day && day ≤ daysIn (100 * century + year) month then
      some rest
    else none
  | _ => none

/-- What follows an hour and a minute of the day. -/
def afterMinute? (cs : List Char) : Option (List Char) :=
  match cs with
  | h1 :: h2 :: ':' :: m1 :: m2 :: rest => do
    let hour ← twoDigits? h1 h2
    let minute ← twoDigits? m1 m2
    if hour ≤ 23 && minute ≤ 59 then some rest else none
  | _ => none

/-- What follows a time of day. Seconds may be left out, or have a fraction; a minute may have a
leap second. -/
def afterTime? (cs : List Char) : Option (List Char) := do
  match ← afterMinute? cs with
  | ':' :: s1 :: s2 :: rest =>
    let second ← twoDigits? s1 s2
    if 60 < second then none
    else
      match rest with
      | '.' :: rest =>
        let after := rest.dropWhile isDecimal
        if after.length < rest.length then some after else none
      | _ => some rest
  | rest => some rest

/-- Nothing, or the distance of a clock from universal time. -/
def isOffset (cs : List Char) : Bool :=
  match cs with
  | [] | ['Z'] | ['z'] => true
  | '+' :: rest | '-' :: rest => afterMinute? rest = some []
  | _ => false

def isMoment (cs : List Char) : Bool :=
  match afterDate? cs with
  | some [] => true
  | some ('T' :: rest) | some ('t' :: rest) | some (' ' :: rest) => (afterTime? rest).any isOffset
  | some _ => false
  | none => afterTime? cs = some []

/-! ## All of them -/

def isScalarChar (c : Char) : Bool := c.isAlphanum || c ∈ ['_', '+', '-', '.', ':']

def scalarOf? (cs : List Char) : Option Value :=
  if cs = "true".toList then some (.boolean true)
  else if cs = "false".toList then some (.boolean false)
  else
    match integer? cs with
    | some n => some (.integer n)
    | none => if isReal cs then some .real else if isMoment cs then some .moment else none

/-- A scalar and what follows it. One space may stand between a date and its time. -/
def scalar? (cs : List Char) : Option (Value × List Char) :=
  let run := cs.takeWhile isScalarChar
  let after := cs.drop run.length
  match after with
  | ' ' :: c :: _ =>
    if afterDate? run = some [] && isDecimal c then
      let time := (after.drop 1).takeWhile isScalarChar
      (scalarOf? (run ++ ' ' :: time)).map fun v => (v, after.drop (time.length + 1))
    else (scalarOf? run).map fun v => (v, after)
  | _ => (scalarOf? run).map fun v => (v, after)

end ArmMachine.Toml
