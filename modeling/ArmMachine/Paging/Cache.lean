import ArmMachine.Word

/-! A direct-mapped cache of mapped blocks. A slot holds one block of 1 KiB and is selected by the
low eight bits of the block number, so a new block evicts whatever shares its slot. -/
namespace ArmMachine

def blockNumber (address : Word) : BitVec 22 := address.extractLsb' 10 22

def blockOffsetMask : Word := 0x3FF

/-- A cached block: where it lies, and what is needed to check permissions again on a hit. -/
structure CachedBlock where
  block : BitVec 22
  physical : Word
  /-- The block's domain checks no permissions. -/
  manager : Bool
  permission : Byte
  valid : Bool
  deriving DecidableEq, Repr

namespace CachedBlock

def empty : CachedBlock := ⟨0, 0, false, 0, false⟩

def translate (e : CachedBlock) (address : Word) : Word :=
  e.physical ||| (address &&& blockOffsetMask)

def holds (e : CachedBlock) (address : Word) : Bool := e.valid && e.block = blockNumber address

end CachedBlock

structure BlockCache where
  slots : Vector CachedBlock 256
  deriving DecidableEq

namespace BlockCache

def empty : BlockCache := ⟨Vector.replicate 256 .empty⟩

/-- The only slot that may hold the block of an address. -/
def slotOf (address : Word) : Fin 256 := (address.extractLsb' 10 8).toFin

def slot (c : BlockCache) (i : Fin 256) : CachedBlock := c.slots[i]

def setSlot (c : BlockCache) (i : Fin 256) (e : CachedBlock) : BlockCache :=
  ⟨c.slots.set i e⟩

def lookup (c : BlockCache) (address : Word) : Option CachedBlock :=
  if (c.slot (slotOf address)).holds address then some (c.slot (slotOf address)) else none

def insert (c : BlockCache) (address physical : Word) (manager : Bool) (permission : Byte) :
    BlockCache :=
  c.setSlot (slotOf address)
    ⟨blockNumber address, physical &&& ~~~blockOffsetMask, manager, permission, true⟩

/-- Drops the block of an address and leaves a different block in its slot alone. -/
def invalidate (c : BlockCache) (address : Word) : BlockCache :=
  if (c.slot (slotOf address)).block = blockNumber address then
    c.setSlot (slotOf address) { c.slot (slotOf address) with valid := false }
  else c

def occupancy (c : BlockCache) : Nat := c.slots.countP fun e => e.valid

theorem slot_empty (i : Fin 256) : empty.slot i = .empty := by
  simp [slot, empty]

theorem slot_setSlot (c : BlockCache) (i j : Fin 256) (e : CachedBlock) :
    (c.setSlot i e).slot j = if i = j then e else c.slot j := by
  simp only [slot, setSlot, Fin.getElem_fin, Vector.getElem_set, Fin.val_inj]

theorem slot_insert (c : BlockCache) (v p : Word) (m : Bool) (ap : Byte) (i : Fin 256) :
    (c.insert v p m ap).slot i =
      if slotOf v = i then ⟨blockNumber v, p &&& ~~~blockOffsetMask, m, ap, true⟩ else c.slot i :=
  slot_setSlot ..

theorem slot_invalidate (c : BlockCache) (v : Word) (i : Fin 256) :
    (c.invalidate v).slot i =
      if slotOf v = i ∧ (c.slot i).block = blockNumber v then { c.slot i with valid := false }
      else c.slot i := by
  unfold invalidate
  by_cases here : slotOf v = i
  · subst here
    by_cases same : (c.slot (slotOf v)).block = blockNumber v <;> simp [same, slot_setSlot]
  · by_cases same : (c.slot (slotOf v)).block = blockNumber v <;> simp [same, here, slot_setSlot]

@[simp] theorem lookup_empty (v : Word) : empty.lookup v = none := by
  simp [lookup, slot_empty, CachedBlock.holds, CachedBlock.empty]

end BlockCache
end ArmMachine
