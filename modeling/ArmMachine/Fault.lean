import ArmMachine.Word

/-! What can go wrong. An abort is architectural: it becomes an exception the guest can handle.
Every other failure stops the core until the next reset. -/
namespace ArmMachine

inductive FaultClass where
  | alignment | mapping | domain | permission
  deriving DecidableEq, Repr

def FaultClass.name : FaultClass → String
  | alignment => "Alignment" | mapping => "Translation"
  | domain => "Domain" | permission => "Permission"

inductive FaultStatus where
  | alignment
  | sectionUnmapped | pageUnmapped
  | sectionDomain | pageDomain
  | sectionPermission | pagePermission
  deriving DecidableEq, Repr

namespace FaultStatus

def all : List FaultStatus :=
  [alignment, sectionUnmapped, pageUnmapped, sectionDomain, pageDomain, sectionPermission,
    pagePermission]

/-- The low nibble of the fault status register. -/
def code : FaultStatus → BitVec 4
  | alignment => 0x1
  | sectionUnmapped => 0x5 | pageUnmapped => 0x7
  | sectionDomain => 0x9 | pageDomain => 0xB
  | sectionPermission => 0xD | pagePermission => 0xF

/-- Only whole bytes equal to a code are recognised. -/
def ofCode? (c : Byte) : Option FaultStatus := all.find? fun s => s.code.zeroExtend 8 = c

theorem ofCode?_code (s : FaultStatus) : ofCode? (s.code.zeroExtend 8) = some s := by
  cases s <;> rfl

def faultClass : FaultStatus → FaultClass
  | alignment => .alignment
  | sectionUnmapped | pageUnmapped => .mapping
  | sectionDomain | pageDomain => .domain
  | sectionPermission | pagePermission => .permission

/-- Whether the fault status register names the domain as well. -/
def recordsDomain (s : FaultStatus) : Bool :=
  match s.faultClass with
  | .domain | .permission => true
  | .alignment | .mapping => false

def name : FaultStatus → String
  | alignment => "Alignment"
  | sectionUnmapped => "SectionTranslation" | pageUnmapped => "PageTranslation"
  | sectionDomain => "SectionDomain" | pageDomain => "PageDomain"
  | sectionPermission => "SectionPermission" | pagePermission => "PagePermission"

def message : FaultStatus → String
  | alignment => "alignment fault"
  | sectionUnmapped => "section translation fault"
  | pageUnmapped => "page translation fault"
  | sectionDomain => "section domain fault"
  | pageDomain => "page domain fault"
  | sectionPermission => "section permission fault"
  | pagePermission => "page permission fault"

end FaultStatus

/-- A refused access: why, in which domain (zero when unknown), and at which virtual address. -/
structure Abort where
  status : FaultStatus
  domain : Byte
  address : Word
  deriving DecidableEq, Repr

namespace Abort

/-- The value of the fault status register: the status, and above it the domain where it counts. -/
def statusWord (a : Abort) : Word :=
  (if a.status.recordsDomain then (a.domain.extractLsb' 0 4).zeroExtend 32 <<< 4 else 0)
    ||| a.status.code.zeroExtend 32

def message (a : Abort) : String :=
  a.status.message ++ " at " ++ a.address.hex ++ " (domain " ++ toString a.domain.toNat ++ ")"

end Abort

inductive Failure where
  | abort (fault : Abort)
  /-- Neither memory nor a device claims a physical address. -/
  | unmapped (address : Word)
  /-- A branch or a restored status word asks for the short instruction set. -/
  | thumb (target : Word)
  /-- A store with the encoding of a signed transfer. -/
  | signedStore (word : Word)
  /-- Permission bits of zero while both protection bits are set. -/
  | permissionConfiguration (control : Word)
  | ramTooLarge (bytes limit : Nat)
  | imageOutOfRange (base : Word) (length : Nat)
  deriving DecidableEq, Repr

namespace Failure

def isFatal : Failure → Bool
  | abort _ => false
  | _ => true

def message : Failure → String
  | abort fault => "memory abort: " ++ fault.message
  | unmapped address => "unmapped physical address " ++ address.hex
  | thumb target => "thumb state is not supported (target " ++ target.hex ++ ")"
  | signedStore word => "unsupported signed store encoding " ++ word.hex
  | permissionConfiguration control =>
    "illegal access permission configuration (control " ++ control.hex ++ ")"
  | ramTooLarge bytes limit =>
    "RAM of " ++ hexNumber bytes ++ " bytes overlaps the device windows (limit "
      ++ hexNumber limit ++ ")"
  | imageOutOfRange base length =>
    "image of " ++ toString length ++ " bytes does not fit at " ++ base.hex

end Failure
end ArmMachine
