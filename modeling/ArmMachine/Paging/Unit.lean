import ArmMachine.Paging.Cache
import ArmMachine.Paging.Tables

/-! The memory management unit: the registers of the system control coprocessor, one block
cache per side, and the flag that a fault leaves behind until it is taken. -/
namespace ArmMachine

structure Mmu where
  /-- Whether paging can be switched on at all. -/
  pagingAllowed : Bool
  control : Word
  tableBase : Word
  domains : Word
  faultStatus : Word
  faultAddress : Word
  processId : Word
  faultPending : Bool
  instructionCache : BlockCache
  dataCache : BlockCache
  /-- Paged accesses served from a cache. -/
  hits : Nat
  /-- Paged accesses that asked a cache. -/
  lookups : Nat
  deriving DecidableEq

/-- The answer to one access, the unit afterwards, and the descriptors read for it. -/
structure Resolution where
  result : Except Failure Word
  mmu : Mmu
  reads : List Word

namespace Mmu

/-- Paging is off and both caches are empty. -/
def initial (pagingAllowed : Bool) : Mmu where
  pagingAllowed
  control := 0
  tableBase := 0
  domains := 0
  faultStatus := 0
  faultAddress := 0
  processId := 0
  faultPending := false
  instructionCache := .empty
  dataCache := .empty
  hits := 0
  lookups := 0

/-- Everything but the statistics returns to its initial value. -/
def reset (m : Mmu) : Mmu := { initial m.pagingAllowed with hits := m.hits, lookups := m.lookups }

def enabled (m : Mmu) : Bool := Control.translates m.control

def misses (m : Mmu) : Nat := m.lookups - m.hits

def cache (m : Mmu) : Side → BlockCache
  | .instruction => m.instructionCache
  | .data => m.dataCache

def setCache (m : Mmu) : Side → BlockCache → Mmu
  | .instruction, c => { m with instructionCache := c }
  | .data, c => { m with dataCache := c }

/-- Records a fault in the fault registers and leaves the flag set. -/
def recordFault (m : Mmu) (a : Abort) : Mmu :=
  { m with faultStatus := a.statusWord, faultAddress := a.address, faultPending := true }

/-- Clears the flag. -/
def takeFault (m : Mmu) : Mmu := { m with faultPending := false }

/-- A fault is recorded and becomes an abort; any other failure is passed on and leaves no record.
-/
def refuse (m : Mmu) (v : Word) : Refusal → Except Failure Word × Mmu
  | .fault status domain =>
    let a : Abort := ⟨status, domain, v⟩
    (.error (.abort a), m.recordFault a)
  | .failure cause => (.error cause, m)

/-- Walks the tables and caches the block of an access that is allowed. -/
def translateByWalk (m : Mmu) (read : Word → Except Failure Word) (v : Word) (access : Access) :
    Resolution :=
  let walk := Walk.run read m.tableBase v
  match walk.result with
  | .error refusal =>
    let (result, m) := m.refuse v refusal
    ⟨result, m, walk.reads⟩
  | .ok mapping =>
    match mapping.authorize m.domains m.control access with
    | .error refusal =>
      let (result, m) := m.refuse v refusal
      ⟨result, m, walk.reads⟩
    | .ok manager =>
      let cache := (m.cache access.side).insert v mapping.physical manager mapping.permission
      ⟨.ok mapping.physical, m.setCache access.side cache, walk.reads⟩

/-- Serves the access from its cache, or from the tables when the cache does not hold the block or
holds it without permission. -/
def translateByCache (m : Mmu) (read : Word → Except Failure Word) (v : Word) (access : Access) :
    Resolution :=
  let m := { m with lookups := m.lookups + 1 }
  match (m.cache access.side).lookup v with
  | none => m.translateByWalk read v access
  | some entry =>
    let allowed :=
      if entry.manager then .ok true
      else permits entry.permission m.control access.privileged access.write
    match allowed with
    | .error cause => ⟨.error cause, m, []⟩
    | .ok true => ⟨.ok (entry.translate v), { m with hits := m.hits + 1 }, []⟩
    | .ok false => m.translateByWalk read v access

/-- Translates an address. While paging is off every address stands for itself; otherwise the
alignment is checked first, where the control register asks for it. -/
def translate (m : Mmu) (read : Word → Except Failure Word) (v : Word) (access : Access) :
    Resolution :=
  if !m.enabled then ⟨.ok v, m, []⟩
  else if Control.checksAlignment m.control && !access.width.isAligned v then
    let (result, m) := m.refuse v (.fault .alignment 0)
    ⟨result, m, []⟩
  else m.translateByCache read v access

end Mmu
end ArmMachine
