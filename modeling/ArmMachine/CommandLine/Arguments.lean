import ArmMachine.Journal

/-! The command line. Options that concern every run may stand before or after the name of the
command; an option at the later place wins. The value of an option is the next argument or follows
an equals sign. Arguments are read in order, so a request for help is granted unless something
before it was wrong. -/
namespace ArmMachine.CommandLine

inductive Command where
  | bin | linux
  deriving DecidableEq, Repr

def Command.name : Command → String
  | bin => "bin" | linux => "linux"

def Command.named? : String → Option Command
  | "bin" => some .bin
  | "linux" => some .linux
  | _ => none

inductive Field where
  | image | base | entry | tree | config | maxInstructions | logLevel
  deriving DecidableEq, Repr

inductive Switch where
  | step | disassemble
  deriving DecidableEq, Repr

/-- What help is about; `none` in the place of a command is the program itself. -/
inductive Topic where
  | program
  | command (c : Command)
  | help
  deriving DecidableEq, Repr

inductive Flag where
  | takes (field : Field)
  | turnsOn (switch : Switch)
  | help
  | version
  deriving DecidableEq, Repr

/-- The flag of a long name at a place, `none` being the place before the command. -/
def Flag.named? (place : Option Command) (name : String) : Option Flag :=
  match name with
  | "config" => some (.takes .config)
  | "max-instructions" => some (.takes .maxInstructions)
  | "log-level" => some (.takes .logLevel)
  | "step" => some (.turnsOn .step)
  | "disasm" => some (.turnsOn .disassemble)
  | "help" => some .help
  | "version" => if place = none then some .version else none
  | "base" => if place = some .bin then some (.takes .base) else none
  | "entry" => if place = some .bin then some (.takes .entry) else none
  | "dtb" => if place = some .linux then some (.takes .tree) else none
  | _ => none

/-! ## Values -/

def digitValue? (base : Nat) (c : Char) : Option Nat :=
  let value :=
    if '0' ≤ c && c ≤ '9' then some (c.toNat - '0'.toNat)
    else if 'a' ≤ c && c ≤ 'z' then some (c.toNat - 'a'.toNat + 10)
    else if 'A' ≤ c && c ≤ 'Z' then some (c.toNat - 'A'.toNat + 10)
    else none
  value.filter (· < base)

/-- Digits of a number below `limit`. A plus sign may stand in front. -/
def natural? (base limit : Nat) (cs : List Char) : Option Nat :=
  let digits := match cs with
    | '+' :: rest => rest
    | _ => cs
  if digits.isEmpty then none
  else
    ((digits.mapM (digitValue? base)).map fun values =>
      values.foldl (fun n d => base * n + d) 0).filter (· < limit)

/-- An address: hexadecimal after `0x` or `0X`, otherwise decimal. -/
def address? (text : String) : Option Word :=
  let value := match text.toList with
    | '0' :: 'x' :: rest | '0' :: 'X' :: rest => natural? 16 wordLimit rest
    | cs => natural? 10 wordLimit cs
  value.map (BitVec.ofNat 32)

def limit? (text : String) : Option Nat := natural? 10 counterLimit text.toList

/-- The name of a verbosity, in letters of either case. -/
def verbosity? (text : String) : Option Verbosity :=
  match text.toLower with
  | "off" => some none
  | "error" => some (some .error)
  | "warn" => some (some .warn)
  | "info" => some (some .info)
  | "debug" => some (some .debug)
  | "trace" => some (some .trace)
  | _ => none

/-- Whether a text is a value of a field. Names of files only have to be there. -/
def Field.accepts (f : Field) (text : String) : Bool :=
  match f with
  | image | tree | config => !text.isEmpty
  | base | entry => (address? text).isSome
  | maxInstructions => (limit? text).isSome
  | logLevel => (verbosity? text).isSome

/-! ## One place -/

/-- What the arguments at one place have set. A value that is an argument of its own is checked when
the next option is met, so it is kept until then; `none` is a value still to come. -/
structure Place where
  pending : Option (Field × Option String)
  values : List (Field × String)
  switches : List Switch
  deriving Repr

namespace Place

def empty : Place := ⟨none, [], []⟩

/-- Sets a field. No field is set twice at one place. -/
def set? (p : Place) (f : Field) (text : String) : Option Place :=
  if f.accepts text && (p.values.lookup f).isNone then
    some { p with values := (f, text) :: p.values }
  else none

def settle? (p : Place) : Option Place :=
  match p.pending with
  | none => some p
  | some (_, none) => none
  | some (f, some text) => { p with pending := none }.set? f text

def turnOn? (p : Place) (s : Switch) : Option Place :=
  if p.switches.contains s then none else some { p with switches := s :: p.switches }

def awaits (p : Place) : Bool := p.pending.any fun (_, text) => text.isNone

def supply (p : Place) (text : String) : Place :=
  { p with pending := p.pending.map fun (f, _) => (f, some text) }

def hasImage (p : Place) : Bool :=
  (p.values.lookup .image).isSome || p.pending.any fun (f, _) => f = .image

/-- An argument without a flag. The only one is the image. -/
def positional? (p : Place) (text : String) : Option Place :=
  if p.hasImage then none
  else p.settle?.map fun p => { p with pending := some (.image, some text) }

end Place

/-! ## The whole line -/

inductive Program where
  | image (path : String) (base : Word) (entry : Option Word)
  | kernel (path tree : String)
  deriving DecidableEq, Repr

structure Arguments where
  program : Program
  config : Option String
  /-- Ask before every instruction. -/
  step : Bool
  /-- Log every executed instruction. -/
  disassemble : Bool
  maxInstructions : Option Nat
  verbosity : Verbosity
  deriving DecidableEq, Repr

inductive Request where
  | help (topic : Topic)
  | version
  | run (arguments : Arguments)
  deriving DecidableEq, Repr

/-- Arguments read so far: what stood before the command, and the current place. -/
structure Reading where
  before : Place
  command : Option Command
  current : Place
  /-- Two hyphens were met: flags are no longer recognised. -/
  verbatim : Bool

namespace Reading

def initial : Reading := ⟨.empty, none, .empty, false⟩

/-- What one more argument leads to: more to read, or an answer at once. -/
inductive Next where
  | proceed (r : Reading)
  | answer (request : Request)

def place (r : Reading) : Topic :=
  match r.command with
  | none => .program
  | some c => .command c

def proceedWith (r : Reading) (p : Option Place) : Option Next :=
  p.map fun p => .proceed { r with current := p }

/-- An answer is given once the value before it was found right. -/
def answerWith (r : Reading) (request : Request) : Option Next :=
  r.current.settle?.map fun _ => .answer request

/-- A flag, and the value that is attached to it. -/
def flag? (r : Reading) (flag : Flag) (attached : Option String) : Option Next :=
  match flag, attached with
  | .takes f, some text =>
    r.proceedWith (r.current.settle?.bind fun p => p.set? f text)
  | .takes f, none =>
    r.proceedWith (r.current.settle?.map fun p => { p with pending := some (f, none) })
  | .turnsOn s, none => r.proceedWith (r.current.settle?.bind fun p => p.turnOn? s)
  | .help, none => r.answerWith (.help r.place)
  | .version, none => r.answerWith .version
  | _, some _ => none

/-- An argument that begins with two hyphens: the name, and after an equals sign the value. -/
def long? (r : Reading) (cs : List Char) : Option Next :=
  let name := cs.takeWhile (· ≠ '=')
  let attached := match cs.drop name.length with
    | [] => none
    | _ :: value => some (String.ofList value)
  (Flag.named? r.command (String.ofList name)).bind fun flag => r.flag? flag attached

/-- An argument that begins with one hyphen, by its first letter. -/
def short? (r : Reading) (letter : Char) : Option Next :=
  if letter = 'h' then r.flag? .help none
  else if letter = 'V' && r.command.isNone then r.flag? .version none
  else none

def positional? (r : Reading) (text : String) : Option Next :=
  if r.command.isSome then r.proceedWith (r.current.positional? text) else none

def next? (r : Reading) (text : String) : Option Next :=
  if r.verbatim then r.positional? text
  else
    match text.toList with
    | ['-', '-'] => some (.proceed { r with verbatim := true })
    | '-' :: '-' :: cs => r.long? cs
    | '-' :: letter :: _ => r.short? letter
    | _ =>
      if r.current.awaits then some (.proceed { r with current := r.current.supply text })
      else if r.command.isSome then r.positional? text
      else
        (Command.named? text).map fun c =>
          .proceed { r with before := r.current, command := some c, current := .empty }

/-- The value of a field; the later place wins. -/
def value? (r : Reading) (f : Field) : Option String :=
  (r.current.values.lookup f).or (r.before.values.lookup f)

def isOn (r : Reading) (s : Switch) : Bool :=
  r.current.switches.contains s || r.before.switches.contains s

def standardVerbosity : Verbosity := some .info

/-- The arguments, both places being settled. What must be given is the command, its image and, for
a kernel, its device tree. -/
def arguments? (r : Reading) : Option Arguments := do
  let path ← r.value? .image
  let program ← match ← r.command with
    | .bin =>
      some (Program.image path (((r.value? .base).bind address?).getD 0)
        ((r.value? .entry).bind address?))
    | .linux => (r.value? .tree).map (Program.kernel path)
  return {
    program
    config := r.value? .config
    step := r.isOn .step
    disassemble := r.isOn .disassemble
    maxInstructions := (r.value? .maxInstructions).bind limit?
    verbosity := ((r.value? .logLevel).bind verbosity?).getD standardVerbosity }

def finish? (r : Reading) : Option Request := do
  let before ← r.before.settle?
  let current ← r.current.settle?
  return .run (← { r with before, current }.arguments?)

def asksHelp (r : Reading) (text : String) : Bool :=
  text = "help" && r.command.isNone && !r.verbatim && !r.current.awaits

end Reading

/-- What help is asked about after the word itself. -/
def Topic.ofNames? : List String → Option Topic
  | [] => some .program
  | ["help"] => some .help
  | [name] => (Command.named? name).map .command
  | _ => none

namespace Request

def read? (r : Reading) : List String → Option Request
  | [] => r.finish?
  | text :: rest =>
    if r.asksHelp text then (Topic.ofNames? rest).map .help
    else
      match r.next? text with
      | none => none
      | some (.answer request) => some request
      | some (.proceed r) => read? r rest

/-- What a command line asks for, or nothing when it is used wrongly. -/
def ofArguments? (args : List String) : Option Request := read? .initial args

end Request
end ArmMachine.CommandLine
