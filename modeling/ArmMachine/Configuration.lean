import ArmMachine.Settings
import ArmMachine.Toml.Document

/-! Settings from a configuration file. A key that is missing keeps its standard value, a key that
is unknown is passed over, and a value of the wrong kind or size makes the whole file invalid. -/
namespace ArmMachine

open Toml (Value Entries)

inductive ConfigurationFailure where
  /-- The text is no TOML, or a value has the wrong kind or size. -/
  | invalid
  | core (cause : Failure)
  deriving DecidableEq, Repr

/-- From the outermost message to the cause. -/
def ConfigurationFailure.messages : ConfigurationFailure → List String
  | invalid => ["invalid runner configuration"]
  | core cause => ["invalid [core] configuration", cause.message]

namespace Configuration

/-- An integer from zero up to, but not including, `limit`. -/
def natural? (limit : Nat) : Value → Option Nat
  | .integer n => if 0 ≤ n ∧ n < limit then some n.toNat else none
  | _ => none

def word? (v : Value) : Option Word := (natural? wordLimit v).map (BitVec.ofNat 32)

def size? (v : Value) : Option Nat := natural? counterLimit v

def boolean? : Value → Option Bool
  | .boolean b => some b
  | _ => none

def profileNamed? (name : String) : Option Profile :=
  match name with
  | "mmu" => some .mmu
  | "bare-metal" => some .bareMetal
  | _ => none

/-- A profile is named by a text, or by the only key of a table, which then has no content. -/
def profile? : Value → Option Profile
  | .text name => profileNamed? name
  | .table _ [(name, content)] => if content.isVacant then profileNamed? name else none
  | _ => none

/-- The value of a key, read if it is there. -/
def setting? {α : Type} (found : Option Value) (read : Value → Option α) (standard : α) :
    Option α :=
  match found with
  | none => some standard
  | some v => read v

/-- The settings of a core from the three values, of which each may be missing. -/
def coreOf? (profile ramBytes trace : Option Value) : Option CoreConfig := do
  let standard := CoreConfig.standard
  return {
    profile := ← setting? profile profile? standard.profile
    ramBytes := ← setting? ramBytes size? standard.ramBytes
    trace := ← setting? trace boolean? standard.trace }

/-- The settings of a core come in a table, or in an array in the order of their keys. A moment
counts as a table of unknown keys. -/
def core? (v : Value) : Option CoreConfig :=
  match v with
  | .table _ es =>
    coreOf? (es.lookup "profile") (es.lookup "memory_bytes") (es.lookup "trace_instructions")
  | .moment => some .standard
  | _ =>
    match v.items? with
    | some items => coreOf? items[0]? items[1]? items[2]?
    | none => none

def settings? (es : Entries) : Option Settings := do
  let standard := Settings.standard
  return {
    core := ← setting? (es.lookup "core") core? standard.core
    timerInterval := ← setting? (es.lookup "timer_interval") word? standard.timerInterval
    treeAddress := ← setting? (es.lookup "dtb_address") word? standard.treeAddress
    kernelAddress := ← setting? (es.lookup "kernel_offset") word? standard.kernelAddress }

end Configuration

/-- The settings a text describes. Memory has to fit below the devices. -/
def Settings.ofToml (text : String) : Except ConfigurationFailure Settings :=
  match (Toml.entries? text).bind Configuration.settings? with
  | none => .error .invalid
  | some settings =>
    match settings.core.validate with
    | .error cause => .error (.core cause)
    | .ok () => .ok settings

end ArmMachine
