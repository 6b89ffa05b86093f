import ArmMachine.Proofs.Execution.Lockstep

/-! The statistics of the caches and the diagnostics of a core. They are written on the way and
never read: a core that starts with other counters goes through the same states and ends with
counters that have moved just as far. -/
namespace ArmMachine

/-- What has been counted before: accesses served from a cache, accesses that asked one, and the
diagnostics of the core. -/
structure Counters where
  hits : Nat
  lookups : Nat
  diagnostics : Diagnostics

namespace Mmu

variable (m : Mmu) (k : Counters)

/-- A unit that has counted more accesses. -/
def recount : Mmu := { m with hits := m.hits + k.hits, lookups := m.lookups + k.lookups }

end Mmu

/-- An answer of a unit that has counted more accesses. -/
def Resolution.recount (t : Resolution) (k : Counters) : Resolution :=
  { t with mmu := t.mmu.recount k }

namespace Mmu

variable (m : Mmu) (k : Counters)

theorem refuse_recount (v : Word) (refusal : Refusal) :
    (m.recount k).refuse v refusal =
      ((m.refuse v refusal).1, (m.refuse v refusal).2.recount k) := by
  cases refusal <;> rfl

@[simp] theorem cache_recount (side : Side) : (m.recount k).cache side = m.cache side := by
  cases side <;> rfl

theorem setCache_recount (side : Side) (c : BlockCache) :
    (m.recount k).setCache side c = (m.setCache side c).recount k := by
  cases side <;> rfl

theorem translateByWalk_recount (read : Word → Except Failure Word) (v : Word) (access : Access) :
    (m.recount k).translateByWalk read v access =
      (m.translateByWalk read v access).recount k := by
  have tableBase : (m.recount k).tableBase = m.tableBase := rfl
  have domains : (m.recount k).domains = m.domains := rfl
  have control : (m.recount k).control = m.control := rfl
  unfold translateByWalk
  simp only [tableBase, domains, control, refuse_recount, cache_recount, setCache_recount]
  split
  · rfl
  · split <;> rfl

theorem countLookup_recount : (m.recount k).countLookup = m.countLookup.recount k := by
  simp only [recount, countLookup, Nat.add_right_comm]

theorem countHit_recount : (m.recount k).countHit = m.countHit.recount k := by
  simp only [recount, countHit, Nat.add_right_comm]

theorem translateByCache_eq (read : Word → Except Failure Word) (v : Word) (access : Access) :
    m.translateByCache read v access =
      match (m.cache access.side).lookup v with
      | none => m.countLookup.translateByWalk read v access
      | some entry =>
        match entry.allows m.control access with
        | .error cause => ⟨.error cause, m.countLookup, []⟩
        | .ok true => ⟨.ok (entry.translate v), m.countLookup.countHit, []⟩
        | .ok false => m.countLookup.translateByWalk read v access := by
  rw [← cache_countLookup]
  rfl

theorem translateByCache_recount (read : Word → Except Failure Word) (v : Word)
    (access : Access) :
    (m.recount k).translateByCache read v access =
      (m.translateByCache read v access).recount k := by
  have control : (m.recount k).control = m.control := rfl
  rw [translateByCache_eq, translateByCache_eq, cache_recount, control, countLookup_recount,
    translateByWalk_recount, countHit_recount]
  cases (m.cache access.side).lookup v with
  | none => rfl
  | some entry =>
    dsimp only
    cases entry.allows m.control access with
    | error cause => rfl
    | ok allowed => cases allowed <;> rfl

theorem translate_recount (read : Word → Except Failure Word) (v : Word) (access : Access) :
    (m.recount k).translate read v access = (m.translate read v access).recount k := by
  have enabled : (m.recount k).enabled = m.enabled := rfl
  have control : (m.recount k).control = m.control := rfl
  unfold translate
  simp only [enabled, control, refuse_recount, translateByCache_recount]
  split
  · rfl
  · split <;> rfl

theorem invalidate_recount (opcode : Nat) (address : Word) (side : Side) :
    (m.recount k).invalidate opcode address side =
      (m.invalidate opcode address side).recount k := by
  unfold invalidate
  split
  · exact m.setCache_recount k side _
  · rw [cache_recount, setCache_recount]
  · rfl

theorem writeRegister_recount (register operand opcode : Nat) (value : Word) :
    (m.recount k).writeRegister register operand opcode value =
      (m.writeRegister register operand opcode value).recount k := by
  have sides : ∀ sides : List Side, ∀ m : Mmu,
      sides.foldl (fun m side => m.invalidate opcode value side) (m.recount k) =
        (sides.foldl (fun m side => m.invalidate opcode value side) m).recount k := by
    intro sides
    induction sides with
    | nil => exact fun _ => rfl
    | cons side rest ih =>
      intro m
      rw [List.foldl_cons, List.foldl_cons, invalidate_recount, ih]
  unfold writeRegister
  split
  iterate 5 rfl
  · exact sides _ m
  iterate 2 rfl

end Mmu

namespace Core

variable (c : Core) (k : Counters)

/-- A core with other counters. -/
def recount : Core := { c with mmu := c.mmu.recount k, diagnostics := k.diagnostics }

theorem noteFault_recount : (c.recount k).noteFault = c.noteFault.recount k := by
  have fault : (c.recount k).mmu.faultPending = c.mmu.faultPending := rfl
  have decode : (c.recount k).decode = c.decode := rfl
  unfold noteFault
  rw [fault, decode]
  split <;> rfl

theorem transferCoprocessor_recount (i : Instruction) :
    i.transferCoprocessor (c.recount k) = (i.transferCoprocessor c).recount k := by
  have reaches : i.reachesCoprocessor (c.recount k) = i.reachesCoprocessor c := rfl
  unfold Instruction.transferCoprocessor
  rw [reaches]
  split
  · split
    · rfl
    · unfold Instruction.writeCoprocessor recount
      dsimp only
      rw [Mmu.writeRegister_recount]
  · rfl

end Core

namespace Board

variable {α β : Type}

/-- A board whose core has other counters. -/
def recount (b : Board) (k : Counters) : Board := b.mapCore fun c => c.recount k

/-- An action does not look at the counters. -/
def Blind (x : Action α) : Prop :=
  ∀ (b : Board) (k : Counters), Ignores (fun b => b.recount k) b x

namespace Blind

theorem pure (a : α) : Blind (pure a : Action α) := fun _ _ => rfl

theorem modify (f : RegisterFile → RegisterFile) : Blind (modifyRegisters f) := fun _ _ => rfl

theorem ofExcept (x : Except Failure α) : Blind (Board.ofExcept x) := by
  intro b k
  rw [Ignores, run_ofExcept, run_ofExcept]

theorem bind {x : Action α} {f : α → Action β} (first : Blind x) (next : ∀ a, Blind (f a)) :
    Blind (x >>= f) :=
  fun b k => (first b k).bind fun a b' _ => next a b' k

theorem bindRegisters {f : RegisterFile → Action β} (next : ∀ r, Blind (f r)) :
    Blind (getRegisters >>= f) :=
  bind (fun _ _ => rfl) next

end Blind

theorem blind_translate (v : Word) (access : Access) : Blind (translate v access) := by
  intro b k
  have answer := b.core.mmu.translate_recount k (readDescriptor b.core.ram) v access
  have step : (b.recount k).translateStep v access =
      ((b.translateStep v access).1, (b.translateStep v access).2.recount k) := by
    change ((((b.core.mmu.recount k).translate (readDescriptor b.core.ram) v access).result,
      { b.recount k with core := { (b.recount k).core with
        mmu := ((b.core.mmu.recount k).translate (readDescriptor b.core.ram) v access).mmu } }) :
          Except Failure Word × Board) = _
    rw [answer]
    rfl
  rw [Ignores, run_translate, run_translate, step]

theorem blind_physicalRead (address : Word) (width : Width) :
    Blind (physicalRead address width) := by
  intro b k
  have reads : (b.recount k).core.ram.read? address width = b.core.ram.read? address width := rfl
  have answers : (b.recount k).devices.read address width = b.devices.read address width := rfl
  rw [Ignores, run_physicalRead, run_physicalRead]
  unfold physicalReadStep
  rw [reads, answers]
  split
  · rfl
  · split
    · rfl
    · split <;> rfl

theorem blind_physicalWrite (address value : Word) (width : Width) :
    Blind (physicalWrite address value width) := by
  intro b k
  have covers : (b.recount k).core.ram.covers address width = b.core.ram.covers address width := rfl
  have claims : (b.recount k).devices.claims address = b.devices.claims address := rfl
  rw [Ignores, run_physicalWrite, run_physicalWrite]
  unfold physicalWriteStep
  rw [covers, claims]
  split
  · rfl
  · split
    · rfl
    · split <;> rfl

theorem blind_read (privileged : Bool) (v : Word) (width : Width) :
    Blind (read privileged v width) :=
  (blind_translate v _).bind fun address => blind_physicalRead address width

theorem blind_write (privileged : Bool) (v value : Word) (width : Width) :
    Blind (write privileged v value width) :=
  (blind_translate v _).bind fun address => blind_physicalWrite address value width

theorem blind_fetch (v : Word) : Blind (fetch v) :=
  .bindRegisters fun _ => (blind_translate v _).bind fun address => blind_physicalRead address .word

end Board

namespace Instruction

open Board (Blind)

variable (i : Instruction)

theorem blind_loadAlong (plan : TransferPlan) (width : Width) (convert : Word → Word) :
    Blind (i.loadAlong plan width convert) :=
  (Board.blind_read _ _ _).bind fun _ => .modify _

theorem blind_storeAlong (plan : TransferPlan) (width : Width) : Blind (i.storeAlong plan width) :=
  .bindRegisters fun _ => (Board.blind_write _ _ _ _).bind fun _ => .modify _

theorem blind_transfer : Blind i.transfer := by
  refine .bindRegisters fun r => ?_
  dsimp only
  split
  · exact i.blind_loadAlong _ _ _
  · exact i.blind_storeAlong _ _

theorem blind_transferHalfword : Blind i.transferHalfword := by
  simp only [transferHalfword]
  split
  · exact fun _ _ => rfl
  · refine .bindRegisters fun r => ?_
    split
    · exact i.blind_loadAlong _ _ _
    · exact i.blind_storeAlong _ _

theorem blind_swap : Blind i.swap :=
  .bindRegisters fun _ => (Board.blind_read _ _ _).bind fun _ =>
    (Board.blind_write _ _ _ _).bind fun _ => .modify _

theorem blind_readBlock (privileged : Bool) (address : Word) (list : List RegisterId) :
    Blind (readBlock privileged address list) := by
  induction list generalizing address with
  | nil => exact .pure []
  | cons id rest ih =>
    exact (Board.blind_read _ _ _).bind fun _ => (ih _).bind fun _ => .pure _

theorem blind_writeBlock (privileged : Bool) (address : Word) (values : List Word) :
    Blind (writeBlock privileged address values) := by
  induction values generalizing address with
  | nil => exact .pure ()
  | cons value rest ih => exact (Board.blind_write _ _ _ _).bind fun _ => ih _

theorem blind_loadBlock : Blind i.loadBlock := by
  refine .bindRegisters fun r => (blind_readBlock _ _ _).bind fun values => ?_
  refine (Blind.modify _).bind fun _ => ?_
  split
  · exact .bindRegisters fun _ => (Blind.ofExcept _).bind fun _ => .modify _
  · exact .pure ()

theorem blind_storeBlock : Blind i.storeBlock :=
  .bindRegisters fun _ => (blind_writeBlock _ _ _).bind fun _ => .modify _

theorem blind_processData : Blind i.processDataOnBoard :=
  .bindRegisters fun _ => (Blind.modify _).bind fun _ => .ofExcept _

theorem blind_branchExchange : Blind i.branchExchangeOnBoard :=
  .bindRegisters fun _ => (Blind.ofExcept _).bind fun _ => .modify _

theorem blind_transferCoprocessor : Blind (Board.modifyCore i.transferCoprocessor) := by
  intro b k
  change ((.ok (), { b.recount k with core := i.transferCoprocessor (b.core.recount k) }) :
    Except Failure Unit × Board) = _
  rw [b.core.transferCoprocessor_recount]
  rfl

/-- No instruction looks at the counters. -/
theorem blind_execute : Blind i.execute := by
  unfold execute
  split
  iterate 3 exact i.blind_processData
  iterate 2 exact i.blind_transfer
  iterate 6 exact i.blind_transferHalfword
  · unfold transferBlock
    split
    · exact i.blind_loadBlock
    · exact i.blind_storeBlock
  · exact i.blind_swap
  · exact .modify _
  · exact i.blind_branchExchange
  iterate 4 exact .modify _
  · exact i.blind_transferCoprocessor
  · exact .modify _
  iterate 2 exact fun _ _ => rfl

end Instruction
end ArmMachine
