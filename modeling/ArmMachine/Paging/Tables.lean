import ArmMachine.Paging.Access

/-! The two-level page tables. A walk follows the tables for one address and names every
descriptor it reads; whether the mapping it finds may be used is decided afterwards, from the domain
and then from the permission bits. -/
namespace ArmMachine

inductive Granule where
  | megabyte | page
  deriving DecidableEq, Repr

namespace Granule

def domainFault : Granule → FaultStatus
  | megabyte => .sectionDomain
  | page => .pageDomain

def permissionFault : Granule → FaultStatus
  | megabyte => .sectionPermission
  | page => .pagePermission

end Granule

/-- Why an access is refused: a fault with its domain, or a failure met on the way. -/
inductive Refusal where
  | fault (status : FaultStatus) (domain : Byte)
  | failure (cause : Failure)
  deriving DecidableEq, Repr

/-- What the tables say about one address. -/
structure Mapping where
  physical : Word
  permission : Byte
  domain : BitVec 4
  granule : Granule
  deriving DecidableEq, Repr

namespace Tables

def firstLevelAddress (base v : Word) : Word :=
  (base &&& 0xFFFFC000) ||| ((v.extractLsb' 20 12).zeroExtend 32 <<< 2)

/-- Coarse tables hold one descriptor per 4 KiB, fine tables one per 1 KiB. -/
def secondLevelAddress (descriptor v : Word) (fine : Bool) : Word :=
  if fine then (descriptor &&& 0xFFFFF000) ||| ((v.extractLsb' 10 10).zeroExtend 32 <<< 2)
  else (descriptor &&& 0xFFFFFC00) ||| ((v.extractLsb' 12 8).zeroExtend 32 <<< 2)

def quarterPermission (descriptor : Word) (n : BitVec 2) : Byte :=
  (descriptor.extractLsb' (4 + 2 * n.toNat) 2).zeroExtend 8

/-- The address and permission bits of a second-level descriptor: large pages of 64 KiB and small
pages of 4 KiB are checked by quarters, tiny pages of 1 KiB as a whole. -/
def pageEntry? (descriptor v : Word) : Option (Word × Byte) :=
  match (descriptor.extractLsb' 0 2).toFin with
  | 0 => none
  | 1 => some ((descriptor &&& 0xFFFF0000) ||| (v &&& 0xFFFF),
      quarterPermission descriptor (v.extractLsb' 14 2))
  | 2 => some ((descriptor &&& 0xFFFFF000) ||| (v &&& 0xFFF),
      quarterPermission descriptor (v.extractLsb' 10 2))
  | 3 => some ((descriptor &&& 0xFFFFFC00) ||| (v &&& 0x3FF), quarterPermission descriptor 0)

def domainOf (descriptor : Word) : BitVec 4 := descriptor.extractLsb' 5 4

/-- The mapping of a first-level descriptor that maps a whole megabyte. -/
def sectionMapping (descriptor v : Word) : Mapping where
  physical := (descriptor &&& 0xFFF00000) ||| (v &&& 0x000FFFFF)
  permission := (descriptor.extractLsb' 10 2).zeroExtend 8
  domain := domainOf descriptor
  granule := .megabyte

end Tables

/-- The descriptor addresses read, in order, and what they led to. -/
structure Walk where
  reads : List Word
  result : Except Refusal Mapping

namespace Walk

/-- Reads a second-level table that the first-level descriptor `first` points to. -/
def second (read : Word → Except Failure Word) (first v : Word) (fine : Bool) :
    Word × Except Refusal Mapping :=
  let address := Tables.secondLevelAddress first v fine
  let domain := Tables.domainOf first
  (address,
    match read address with
    | .error cause => .error (.failure cause)
    | .ok descriptor =>
      match Tables.pageEntry? descriptor v with
      | none => .error (.fault .pageUnmapped (domain.zeroExtend 8))
      | some (physical, permission) => .ok ⟨physical, permission, domain, .page⟩)

/-- Follows the tables at `base` for the address `v`. -/
def run (read : Word → Except Failure Word) (base v : Word) : Walk :=
  let address := Tables.firstLevelAddress base v
  match read address with
  | .error cause => ⟨[address], .error (.failure cause)⟩
  | .ok first =>
    match (first.extractLsb' 0 2).toFin with
    | 0 => ⟨[address], .error (.fault .sectionUnmapped 0)⟩
    | 2 => ⟨[address], .ok (Tables.sectionMapping first v)⟩
    | 1 =>
      let (next, result) := second read first v false
      ⟨[address, next], result⟩
    | 3 =>
      let (next, result) := second read first v true
      ⟨[address, next], result⟩

end Walk

namespace Mapping

/-- The access rule of the mapping's domain, two bits of the domain register. -/
def domainRule (m : Mapping) (domains : Word) : BitVec 2 :=
  domains.extractLsb' (2 * m.domain.toNat) 2

/-- Decides an access: clients are held to the permission bits, managers are not, and every other
rule refuses. The answer says whether the domain is a manager. -/
def authorize (m : Mapping) (domains control : Word) (access : Access) : Except Refusal Bool :=
  if m.domainRule domains = 1 then
    match permits m.permission control access.privileged access.write with
    | .error cause => .error (.failure cause)
    | .ok true => .ok false
    | .ok false => .error (.fault m.granule.permissionFault (m.domain.zeroExtend 8))
  else if m.domainRule domains = 3 then .ok true
  else .error (.fault m.granule.domainFault (m.domain.zeroExtend 8))

end Mapping
end ArmMachine
