import ArmMachine.Status

/-! The condition field, bits 31:28 of every instruction. -/
namespace ArmMachine

inductive Condition where
  | eq | ne | cs | cc | mi | pl | vs | vc | hi | ls | ge | lt | gt | le | al | nv
  deriving DecidableEq, Repr

namespace Condition

def all : List Condition := [eq, ne, cs, cc, mi, pl, vs, vc, hi, ls, ge, lt, gt, le, al, nv]

def ofCode (c : BitVec 4) : Condition :=
  match c.toNat with
  | 0 => eq | 1 => ne | 2 => cs | 3 => cc | 4 => mi | 5 => pl | 6 => vs | 7 => vc
  | 8 => hi | 9 => ls | 10 => ge | 11 => lt | 12 => gt | 13 => le | 14 => al | _ => nv

theorem ofCode_order (c : BitVec 4) : all[c.toNat]? = some (ofCode c) := by
  revert c
  decide

/-- The last code is reserved and never passes. -/
def passes (c : Condition) (s : StatusWord) : Bool :=
  let negative := s.has .negative
  let zero := s.has .zero
  let carry := s.has .carry
  let overflow := s.has .overflow
  match c with
  | eq => zero
  | ne => !zero
  | cs => carry
  | cc => !carry
  | mi => negative
  | pl => !negative
  | vs => overflow
  | vc => !overflow
  | hi => carry && !zero
  | ls => !carry || zero
  | ge => negative == overflow
  | lt => negative != overflow
  | gt => !zero && negative == overflow
  | le => zero || negative != overflow
  | al => true
  | nv => false

def name : Condition → String
  | eq => "Eq" | ne => "Ne" | cs => "Cs" | cc => "Cc" | mi => "Mi" | pl => "Pl" | vs => "Vs"
  | vc => "Vc" | hi => "Hi" | ls => "Ls" | ge => "Ge" | lt => "Lt" | gt => "Gt" | le => "Le"
  | al => "Al" | nv => "Nv"

end Condition
end ArmMachine
