import Mathlib.Algebra.Group.Nat.Defs
import ArmMachine.Proofs.Memory
import ArmMachine.Proofs.Paging.Effects

/-! The tables as the architecture lays them out, in numbers: where a descriptor lies, how much one
maps, and which two bits of it decide an access. This is an independent reading of the walk, which
works on masks and shifts; a unit whose cache does not hold the block answers by it. -/
namespace ArmMachine

/-- The four sizes of mapping. -/
inductive Extent where
  | megabyte | large | small | tiny
  deriving DecidableEq, Repr

namespace Extent

def bytes : Extent → Nat
  | megabyte => 0x100000
  | large => 0x10000
  | small => 0x1000
  | tiny => 0x400

def granule : Extent → Granule
  | megabyte => .megabyte
  | large | small | tiny => .page

/-- What the low two bits of a second-level descriptor say. -/
def ofKind? : Nat → Option Extent
  | 1 => some large
  | 2 => some small
  | 3 => some tiny
  | _ => none

end Extent

/-- The descriptor that maps an address, and the domain it lies in. -/
structure Leaf where
  extent : Extent
  descriptor : Word
  domain : Byte

/-- Why the tables refuse an access: by a fault, which leaves a number in the fault status register,
or by a failure met on the way. -/
inductive Rejection where
  | fault (status : FaultStatus) (domain : Byte) (number : Nat)
  | failure (cause : Failure)

namespace Leaf

/-- The base of the mapping is the descriptor rounded down to its size. -/
def physical (l : Leaf) (v : Word) : Nat :=
  l.descriptor.toNat / l.extent.bytes * l.extent.bytes + v.toNat % l.extent.bytes

/-- Large and small pages have permission bits for each quarter. -/
def permissionShift (l : Leaf) (v : Word) : Nat :=
  match l.extent with
  | .megabyte => 10
  | .tiny => 4
  | .large | .small => 4 + 2 * (v.toNat % l.extent.bytes / (l.extent.bytes / 4))

def permission (l : Leaf) (v : Word) : Nat :=
  l.descriptor.toNat / 2 ^ l.permissionShift v % 4

/-- The rule of the domain: 1 for clients, 3 for managers. -/
def rule (l : Leaf) (domains : Word) : Nat := domains.toNat / 4 ^ l.domain.toNat % 4

/-- An access in a domain that has neither clients nor managers. -/
def domainFault (l : Leaf) : Rejection :=
  match l.extent with
  | .megabyte => .fault .sectionDomain l.domain (0x9 + 16 * l.domain.toNat)
  | .large | .small | .tiny => .fault .pageDomain l.domain (0xB + 16 * l.domain.toNat)

/-- An access that the permission bits refuse. -/
def permissionFault (l : Leaf) : Rejection :=
  match l.extent with
  | .megabyte => .fault .sectionPermission l.domain (0xD + 16 * l.domain.toNat)
  | .large | .small | .tiny => .fault .pagePermission l.domain (0xF + 16 * l.domain.toNat)

end Leaf

/-- The two sorts of second-level table. -/
inductive SecondLevel where
  | coarse | fine
  deriving DecidableEq, Repr

namespace SecondLevel

/-- The size of a table, which is also its alignment. -/
def bytes : SecondLevel → Nat
  | coarse => 0x400
  | fine => 0x1000

/-- How much of the megabyte one descriptor is for. -/
def span : SecondLevel → Nat
  | coarse => 0x1000
  | fine => 0x400

/-- What the low two bits of a first-level descriptor say, where it points to a table. -/
def ofKind? : Nat → Option SecondLevel
  | 1 => some coarse
  | 3 => some fine
  | _ => none

end SecondLevel

/-- The permission bits let an access through. -/
def Access.AllowedBy (access : Access) (permission : Nat) (control : Word) : Prop :=
  match permission with
  | 0 =>
    access.write = false ∧ (Control.systemProtection control = true → access.privileged = true)
  | 1 => access.privileged = true
  | 2 => access.privileged = true ∨ access.write = false
  | _ => True

/-- The one combination of permission and protection bits that has no meaning. -/
def Control.Meaningless (permission : Nat) (control : Word) : Prop :=
  permission = 0 ∧ Control.systemProtection control = true ∧ Control.romProtection control = true

namespace Tables

/-- Where the first-level descriptor of `v` lies, and where the second-level one. -/
def FirstPlace (base v a : Word) : Prop :=
  a.toNat = base.toNat / 0x4000 * 0x4000 + 4 * (v.toNat / 0x100000)

def SecondPlace (table : SecondLevel) (first v b : Word) : Prop :=
  b.toNat = first.toNat / table.bytes * table.bytes + 4 * (v.toNat % 0x100000 / table.span)

/-- The domain that a first-level descriptor names. -/
def Owner (first : Word) (domain : Byte) : Prop := domain.toNat = first.toNat / 32 % 16

instance (base v a : Word) : Decidable (FirstPlace base v a) := inferInstanceAs (Decidable (_ = _))

instance (table : SecondLevel) (first v b : Word) : Decidable (SecondPlace table first v b) :=
  inferInstanceAs (Decidable (_ = _))

instance (first : Word) (domain : Byte) : Decidable (Owner first domain) :=
  inferInstanceAs (Decidable (_ = _))

/-- The second-level descriptors read for `v` once the first-level one is known, and what it leads
to. -/
inductive LeadsFrom (read : Word → Except Failure Word) (first v : Word) :
    List Word → Except Rejection Leaf → Prop
  | unmapped (kind : first.toNat % 4 = 0) :
    LeadsFrom read first v [] (.error (.fault .sectionUnmapped 0 0x5))
  | megabyte (kind : first.toNat % 4 = 2) {domain : Byte} (owner : Owner first domain) :
    LeadsFrom read first v [] (.ok ⟨.megabyte, first, domain⟩)
  | unread {table : SecondLevel} (kind : SecondLevel.ofKind? (first.toNat % 4) = some table)
      {b : Word} (place : SecondPlace table first v b)
      {cause : Failure} (failed : read b = .error cause) :
    LeadsFrom read first v [b] (.error (.failure cause))
  | pageUnmapped {table : SecondLevel} (kind : SecondLevel.ofKind? (first.toNat % 4) = some table)
      {b second : Word} (place : SecondPlace table first v b) (found : read b = .ok second)
      (absent : Extent.ofKind? (second.toNat % 4) = none)
      {domain : Byte} (owner : Owner first domain) :
    LeadsFrom read first v [b] (.error (.fault .pageUnmapped domain 0x7))
  | page {table : SecondLevel} (kind : SecondLevel.ofKind? (first.toNat % 4) = some table)
      {b second : Word} (place : SecondPlace table first v b) (found : read b = .ok second)
      {extent : Extent} (sort : Extent.ofKind? (second.toNat % 4) = some extent)
      {domain : Byte} (owner : Owner first domain) :
    LeadsFrom read first v [b] (.ok ⟨extent, second, domain⟩)

/-- All descriptors read for `v`, in order, and what they lead to. -/
inductive Leads (read : Word → Except Failure Word) (base v : Word) :
    List Word → Except Rejection Leaf → Prop
  | unread {a : Word} (place : FirstPlace base v a) {cause : Failure}
      (failed : read a = .error cause) :
    Leads read base v [a] (.error (.failure cause))
  | found {a first : Word} (place : FirstPlace base v a) (found : read a = .ok first)
      {rest : List Word} {outcome : Except Rejection Leaf}
      (next : LeadsFrom read first v rest outcome) :
    Leads read base v (a :: rest) outcome

end Tables

/-- What becomes of an access to a mapped address: the rule of the domain is asked first, and the
permission bits for clients only. -/
inductive Leaf.Decides (l : Leaf) (domains control v : Word) (access : Access) :
    Except Rejection Word → Prop
  | noAccess (notClient : l.rule domains ≠ 1) (notManager : l.rule domains ≠ 3) :
    Decides l domains control v access (.error l.domainFault)
  | manager (rule : l.rule domains = 3) {p : Word} (place : p.toNat = l.physical v) :
    Decides l domains control v access (.ok p)
  | meaningless (rule : l.rule domains = 1)
      (undecided : Control.Meaningless (l.permission v) control) :
    Decides l domains control v access (.error (.failure (.permissionConfiguration control)))
  | granted (rule : l.rule domains = 1)
      (decided : ¬ Control.Meaningless (l.permission v) control)
      (allowed : access.AllowedBy (l.permission v) control)
      {p : Word} (place : p.toNat = l.physical v) :
    Decides l domains control v access (.ok p)
  | denied (rule : l.rule domains = 1)
      (decided : ¬ Control.Meaningless (l.permission v) control)
      (refused : ¬ access.AllowedBy (l.permission v) control) :
    Decides l domains control v access (.error l.permissionFault)

namespace Mmu

/-- The descriptors that the tables have a unit read for an access, and the answer they give. -/
inductive Yields (m : Mmu) (read : Word → Except Failure Word) (v : Word) (access : Access) :
    List Word → Except Rejection Word → Prop
  | stops {reads : List Word} {rejection : Rejection}
      (leads : Tables.Leads read m.tableBase v reads (.error rejection)) :
    Yields m read v access reads (.error rejection)
  | reaches {reads : List Word} {l : Leaf} (leads : Tables.Leads read m.tableBase v reads (.ok l))
      {answer : Except Rejection Word} (decides : l.Decides m.domains m.control v access answer) :
    Yields m read v access reads answer

/-- The fault registers and the flag tell of a fault at `v`. -/
structure RecordsFault (m : Mmu) (number : Nat) (v : Word) : Prop where
  pending : m.faultPending = true
  address : m.faultAddress = v
  status : m.faultStatus.toNat = number

/-- How a unit reports an answer of the tables: only a fault is recorded. -/
def Reports (m : Mmu) (v : Word) (t : Resolution) : Except Rejection Word → Prop
  | .ok p => t.result = .ok p ∧ m.SameFault t.mmu
  | .error (.failure cause) => t.result = .error cause ∧ m.SameFault t.mmu
  | .error (.fault status domain number) =>
    t.result = .error (.abort ⟨status, domain, v⟩) ∧ t.mmu.RecordsFault number v

end Mmu

/-! Masks and shifts against division. -/

/-- A word that takes its high bits from `base`, and an offset below them. -/
theorem toNat_and_or_of_lt {high : Word} {k : Nat}
    (clears : ∀ i < 32, high.getLsbD i = decide (k ≤ i)) (base : Word) {offset : Word}
    (below : offset.toNat < 2 ^ k) :
    ((base &&& high) ||| offset).toNat = base.toNat / 2 ^ k * 2 ^ k + offset.toNat := by
  have cleared : (base &&& high).toNat = (base.toNat >>> k) <<< k := by
    have twice : ~~~(~~~high) = high := BitVec.not_not
    rw [← twice] at clears ⊢
    exact toNat_and_not_of_clears clears base
  rw [BitVec.toNat_or, cleared, ← Nat.shiftLeft_add_eq_or_of_lt below, Nat.shiftRight_eq_div_pow,
    Nat.shiftLeft_eq]

/-- The place of a field of `v` in a table of words. -/
theorem toNat_index (v : Word) (start : Nat) {length : Nat} (short : length ≤ 30) :
    ((v.extractLsb' start length).zeroExtend 32 <<< 2).toNat =
      4 * (v.toNat / 2 ^ start % 2 ^ length) := by
  have field := toNat_field v start (Nat.le_trans short (by decide : 30 ≤ 32))
  have bound : v.toNat / 2 ^ start % 2 ^ length < 2 ^ length :=
    Nat.mod_lt _ (Nat.two_pow_pos length)
  have room : 2 ^ length ≤ 2 ^ 30 := Nat.pow_le_pow_right (by decide) short
  rw [BitVec.toNat_shiftLeft, field, Nat.shiftLeft_eq, Nat.mod_eq_of_lt (by omega)]
  omega

theorem owner_domainOf (first : Word) :
    Tables.Owner first ((Tables.domainOf first).zeroExtend 8) :=
  toNat_field first 5 (by decide : 4 ≤ 8)

namespace Tables

variable (base v d : Word)

theorem firstPlace_firstLevelAddress : FirstPlace base v (firstLevelAddress base v) := by
  have bound := v.isLt
  have index := toNat_index v 20 (by decide : 12 ≤ 30)
  unfold FirstPlace firstLevelAddress
  rw [toNat_and_or_of_lt (k := 14) (by decide) base (by rw [index]; omega), index]
  omega

theorem secondPlace_coarse : SecondPlace .coarse d v (secondLevelAddress d v false) := by
  have index := toNat_index v 12 (by decide : 8 ≤ 30)
  simp only [SecondPlace, secondLevelAddress, Bool.false_eq_true, if_false, SecondLevel.bytes,
    SecondLevel.span]
  rw [toNat_and_or_of_lt (k := 10) (by decide) d (by rw [index]; omega), index]
  omega

theorem secondPlace_fine : SecondPlace .fine d v (secondLevelAddress d v true) := by
  have index := toNat_index v 10 (by decide : 10 ≤ 30)
  simp only [SecondPlace, secondLevelAddress, if_true, SecondLevel.bytes, SecondLevel.span]
  rw [toNat_and_or_of_lt (k := 12) (by decide) d (by rw [index]; omega), index]
  omega

end Tables

/-- The leaf is what a mapping for `v` was taken from. -/
structure Leaf.Describes (l : Leaf) (v : Word) (m : Mapping) : Prop where
  physical : m.physical.toNat = l.physical v
  permission : m.permission.toNat = l.permission v
  domain : m.domain.zeroExtend 8 = l.domain
  granule : m.granule = l.extent.granule

theorem kind_of_toFin {w : Nat} {d : BitVec w} {n : Fin 4}
    (kind : (d.extractLsb' 0 2).toFin = n) : d.toNat % 4 = n.val := by
  have low : (d.extractLsb' 0 2).toNat = n.val := congrArg Fin.val kind
  rw [BitVec.extractLsb'_toNat, Nat.shiftRight_zero] at low
  exact low

theorem toNat_and_of_keeps {low : Word} {k : Nat} (keeps : low.toNat = 2 ^ k - 1) (v : Word) :
    (v &&& low).toNat = v.toNat % 2 ^ k := by
  rw [BitVec.toNat_and, keeps, Nat.and_two_pow_sub_one_eq_mod]

/-- An address put together from the base of a mapping and the offset of `v`. -/
theorem toNat_spliced {high low : Word} {k : Nat}
    (clears : ∀ i < 32, high.getLsbD i = decide (k ≤ i)) (keeps : low.toNat = 2 ^ k - 1)
    (d v : Word) :
    ((d &&& high) ||| (v &&& low)).toNat = d.toNat / 2 ^ k * 2 ^ k + v.toNat % 2 ^ k := by
  have offset := toNat_and_of_keeps keeps v
  rw [toNat_and_or_of_lt clears d (by rw [offset]; exact Nat.mod_lt _ (Nat.two_pow_pos k)), offset]

theorem toNat_twoBits (d : Word) (start : Nat) :
    ((d.extractLsb' start 2).zeroExtend 8).toNat = d.toNat / 2 ^ start % 4 :=
  toNat_field d start (by decide : 2 ≤ 8)

theorem describes_sectionMapping (first v : Word) :
    (Leaf.mk .megabyte first ((Tables.domainOf first).zeroExtend 8)).Describes v
      (Tables.sectionMapping first v) where
  physical := toNat_spliced (k := 20) (by decide) (by decide) first v
  permission := toNat_twoBits first 10
  domain := rfl
  granule := rfl

/-- A second-level descriptor, under the domain of the first-level one, is for the page found. -/
def SamePage (second v : Word) (domain : BitVec 4) : Option (Word × Byte) → Prop
  | none => Extent.ofKind? (second.toNat % 4) = none
  | some (physical, permission) =>
    ∃ extent, Extent.ofKind? (second.toNat % 4) = some extent ∧
      (Leaf.mk extent second (domain.zeroExtend 8)).Describes v
        ⟨physical, permission, domain, .page⟩

theorem samePage_pageEntry (second v : Word) (domain : BitVec 4) :
    SamePage second v domain (Tables.pageEntry? second v) := by
  have large : (v.extractLsb' 14 2).toNat =
      v.toNat % Extent.large.bytes / (Extent.large.bytes / 4) := by
    simp only [Extent.bytes, BitVec.extractLsb'_toNat, Nat.shiftRight_eq_div_pow]
    omega
  have small : (v.extractLsb' 10 2).toNat =
      v.toNat % Extent.small.bytes / (Extent.small.bytes / 4) := by
    simp only [Extent.bytes, BitVec.extractLsb'_toNat, Nat.shiftRight_eq_div_pow]
    omega
  unfold Tables.pageEntry?
  split
  · rename_i kind
    rw [SamePage, kind_of_toFin kind]
    rfl
  · rename_i kind
    refine ⟨.large, ?_, ?_, ?_, rfl, rfl⟩
    · rw [kind_of_toFin kind]
      rfl
    · exact toNat_spliced (k := 16) (by decide) (by decide) second v
    · refine (toNat_twoBits second _).trans ?_
      rw [large]
      rfl
  · rename_i kind
    refine ⟨.small, ?_, ?_, ?_, rfl, rfl⟩
    · rw [kind_of_toFin kind]
      rfl
    · exact toNat_spliced (k := 12) (by decide) (by decide) second v
    · refine (toNat_twoBits second _).trans ?_
      rw [small]
      rfl
  · rename_i kind
    refine ⟨.tiny, ?_, ?_, ?_, rfl, rfl⟩
    · rw [kind_of_toFin kind]
      rfl
    · exact toNat_spliced (k := 10) (by decide) (by decide) second v
    · exact toNat_twoBits second 4

theorem FaultStatus.toNat_code (s : FaultStatus) :
    (s.code.zeroExtend 32).toNat = s.code.toNat := BitVec.toNat_setWidth_of_le (by decide)

namespace Abort

theorem toNat_statusWord_of_bare (a : Abort) (bare : a.status.recordsDomain = false) :
    a.statusWord.toNat = a.status.code.toNat := by
  rw [statusWord, if_neg (by simp [bare]), BitVec.toNat_or, a.status.toNat_code]
  exact Nat.zero_or _

theorem toNat_statusWord_of_recordsDomain (a : Abort) (names : a.status.recordsDomain = true)
    (small : a.domain.toNat < 16) :
    a.statusWord.toNat = a.status.code.toNat + 16 * a.domain.toNat := by
  have domain : ((a.domain.extractLsb' 0 4).zeroExtend 32).toNat = a.domain.toNat := by
    rw [toNat_field a.domain 0 (by decide : 4 ≤ 32)]
    omega
  rw [statusWord, if_pos names, BitVec.toNat_or, BitVec.toNat_shiftLeft, domain,
    a.status.toNat_code, Nat.shiftLeft_eq, Nat.mod_eq_of_lt (by omega), ← Nat.shiftLeft_eq,
    ← Nat.shiftLeft_add_eq_or_of_lt a.status.code.isLt, Nat.shiftLeft_eq]
  omega

end Abort

/-- The unit refuses in the same words, and for a fault it records the number. -/
inductive Rejection.Matches : Rejection → Refusal → Prop
  | fault {status : FaultStatus} {domain : Byte} {number : Nat}
      (recorded : ∀ v, (Abort.mk status domain v).statusWord.toNat = number) :
    Matches (.fault status domain number) (.fault status domain)
  | failure (cause : Failure) : Matches (.failure cause) (.failure cause)

namespace Rejection.Matches

variable {status : FaultStatus} {domain : Byte}

theorem of_bare (bare : status.recordsDomain = false) :
    Matches (.fault status domain status.code.toNat) (.fault status domain) :=
  .fault fun v => Abort.toNat_statusWord_of_bare ⟨status, domain, v⟩ bare

theorem of_recordsDomain (names : status.recordsDomain = true) (small : domain.toNat < 16) :
    Matches (.fault status domain (status.code.toNat + 16 * domain.toNat))
      (.fault status domain) :=
  .fault fun v => Abort.toNat_statusWord_of_recordsDomain ⟨status, domain, v⟩ names small

end Rejection.Matches

/-- The layout and the unit come to the same, up to what each of them finds. -/
def SameOutcome {α β : Type} (same : α → β → Prop) : Except Rejection α → Except Refusal β → Prop
  | .ok a, .ok b => same a b
  | .error rejection, .error refusal => rejection.Matches refusal
  | _, _ => False

namespace Leaf.Describes

variable {l : Leaf} {v : Word} {m : Mapping}

theorem domain_lt (describes : l.Describes v m) : l.domain.toNat < 16 := by
  rw [← describes.domain, BitVec.zeroExtend, BitVec.toNat_setWidth_of_le (by decide)]
  exact m.domain.isLt

theorem domainFault_matches (describes : l.Describes v m) :
    l.domainFault.Matches (.fault m.granule.domainFault (m.domain.zeroExtend 8)) := by
  have small := describes.domain_lt
  rw [describes.granule, describes.domain]
  unfold Leaf.domainFault
  cases l.extent <;> exact .of_recordsDomain rfl small

theorem permissionFault_matches (describes : l.Describes v m) :
    l.permissionFault.Matches (.fault m.granule.permissionFault (m.domain.zeroExtend 8)) := by
  have small := describes.domain_lt
  rw [describes.granule, describes.domain]
  unfold Leaf.permissionFault
  cases l.extent <;> exact .of_recordsDomain rfl small

end Leaf.Describes

namespace Walk

variable {first v : Word}

theorem leadsFrom_second (read : Word → Except Failure Word) {table : SecondLevel} {fine : Bool}
    (kind : SecondLevel.ofKind? (first.toNat % 4) = some table)
    (place : Tables.SecondPlace table first v (Tables.secondLevelAddress first v fine)) :
    ∃ outcome, Tables.LeadsFrom read first v [(second read first v fine).1] outcome ∧
      SameOutcome (fun l m => l.Describes v m) outcome (second read first v fine).2 := by
  simp only [second]
  cases found : read (Tables.secondLevelAddress first v fine) with
  | error cause => exact ⟨_, .unread kind place found, .failure cause⟩
  | ok descriptor =>
    have page := samePage_pageEntry descriptor v (Tables.domainOf first)
    dsimp only
    cases entry : Tables.pageEntry? descriptor v with
    | none =>
      rw [entry] at page
      exact ⟨_, .pageUnmapped kind place found page (owner_domainOf first), .of_bare rfl⟩
    | some mapped =>
      rw [entry] at page
      obtain ⟨extent, sort, describes⟩ := page
      exact ⟨_, .page kind place found sort (owner_domainOf first), describes⟩

/-- A walk reads the descriptors that the layout names, in that order, and finds what they say. -/
theorem leads_run (read : Word → Except Failure Word) (base v : Word) :
    ∃ outcome, Tables.Leads read base v (run read base v).reads outcome ∧
      SameOutcome (fun l m => l.Describes v m) outcome (run read base v).result := by
  have place := Tables.firstPlace_firstLevelAddress base v
  simp only [run]
  cases found : read (Tables.firstLevelAddress base v) with
  | error cause => exact ⟨_, .unread place found, .failure cause⟩
  | ok first =>
    dsimp only
    split
    · rename_i kind
      exact ⟨_, .found place found (.unmapped (kind_of_toFin kind)), .of_bare rfl⟩
    · rename_i kind
      exact ⟨_, .found place found (.megabyte (kind_of_toFin kind) (owner_domainOf first)),
        describes_sectionMapping first v⟩
    · rename_i kind
      have coarse : SecondLevel.ofKind? (first.toNat % 4) = some .coarse := by
        rw [kind_of_toFin kind]
        rfl
      obtain ⟨outcome, leads, same⟩ :=
        leadsFrom_second read coarse (Tables.secondPlace_coarse v first)
      exact ⟨outcome, .found place found leads, same⟩
    · rename_i kind
      have fine : SecondLevel.ofKind? (first.toNat % 4) = some .fine := by
        rw [kind_of_toFin kind]
        rfl
      obtain ⟨outcome, leads, same⟩ :=
        leadsFrom_second read fine (Tables.secondPlace_fine v first)
      exact ⟨outcome, .found place found leads, same⟩

end Walk

/-- Permission bits decide as their table says, unless they have no meaning. -/
theorem permits_iff (permission : Byte) (control : Word) (access : Access) :
    (Control.Meaningless (permission.toNat % 4) control →
        permits permission control access.privileged access.write =
          .error (.permissionConfiguration control)) ∧
      (¬ Control.Meaningless (permission.toNat % 4) control →
        ∃ allowed, permits permission control access.privileged access.write = .ok allowed ∧
          (allowed = true ↔ access.AllowedBy (permission.toNat % 4) control)) := by
  unfold permits
  split
  · rename_i kind
    rw [kind_of_toFin kind]
    cases system : Control.systemProtection control <;>
      cases rom : Control.romProtection control <;>
      simp [Control.Meaningless, Access.AllowedBy, system, rom, and_comm]
  all_goals
    rename_i kind
    rw [kind_of_toFin kind]
    simp [Control.Meaningless, Access.AllowedBy]

namespace Leaf.Describes

variable {l : Leaf} {v : Word} {m : Mapping}

theorem toNat_domainRule (describes : l.Describes v m) (domains : Word) :
    (m.domainRule domains).toNat = l.rule domains := by
  have domain : l.domain.toNat = m.domain.toNat := by
    rw [← describes.domain]
    exact BitVec.toNat_setWidth_of_le (by decide)
  rw [Mapping.domainRule, BitVec.extractLsb'_toNat, Nat.shiftRight_eq_div_pow, Nat.pow_mul, rule,
    domain]

/-- The checks of a mapping come out as the leaf decides. -/
theorem decides_authorize (describes : l.Describes v m) (domains control : Word)
    (access : Access) :
    ∃ answer, l.Decides domains control v access answer ∧
      SameOutcome Eq answer ((m.authorize domains control access).map fun _ => m.physical) := by
  have rule := describes.toNat_domainRule domains
  have small : l.permission v % 4 = l.permission v := Nat.mod_mod _ _
  have bits := permits_iff m.permission control access
  rw [describes.permission, small] at bits
  unfold Mapping.authorize
  by_cases client : m.domainRule domains = 1
  · have isClient : l.rule domains = 1 := by
      rw [← rule, client]
      rfl
    rw [if_pos client]
    by_cases undecided : Control.Meaningless (l.permission v) control
    · rw [bits.1 undecided]
      exact ⟨_, .meaningless isClient undecided, .failure _⟩
    · obtain ⟨allowed, answer, meaning⟩ := bits.2 undecided
      rw [answer]
      cases allowed with
      | true =>
        exact ⟨_, .granted isClient undecided (meaning.mp rfl) describes.physical, rfl⟩
      | false =>
        have refused : ¬ access.AllowedBy (l.permission v) control := by
          intro allowed
          exact Bool.false_ne_true (meaning.mpr allowed)
        exact ⟨_, .denied isClient undecided refused, describes.permissionFault_matches⟩
  · rw [if_neg client]
    by_cases manager : m.domainRule domains = 3
    · have isManager : l.rule domains = 3 := by
        rw [← rule, manager]
        rfl
      rw [if_pos manager]
      exact ⟨_, .manager isManager describes.physical, rfl⟩
    · have notClient : l.rule domains ≠ 1 := by
        rw [← rule]
        exact fun same => client (BitVec.eq_of_toNat_eq same)
      have notManager : l.rule domains ≠ 3 := by
        rw [← rule]
        exact fun same => manager (BitVec.eq_of_toNat_eq same)
      rw [if_neg manager]
      exact ⟨_, .noAccess notClient notManager, describes.domainFault_matches⟩

end Leaf.Describes

namespace Mmu

variable {m : Mmu} {read : Word → Except Failure Word} {v : Word} {access : Access}

/-- The tables alone answer as the layout says. -/
theorem yields_translate (read : Word → Except Failure Word) (pages : m.Pages v access) :
    ∃ answer, m.Yields read v access (Walk.run read m.tableBase v).reads answer ∧
      SameOutcome Eq answer
        (Tables.translate read m.control m.tableBase m.domains v access) := by
  rw [tables_translate_of_pages read pages]
  obtain ⟨outcome, leads, same⟩ := Walk.leads_run read m.tableBase v
  cases walked : (Walk.run read m.tableBase v).result with
  | error refusal =>
    rw [walked] at same
    cases outcome with
    | ok l => contradiction
    | error rejection => exact ⟨_, .stops leads, same⟩
  | ok mapping =>
    rw [walked] at same
    cases outcome with
    | error rejection => contradiction
    | ok l =>
      have describes : l.Describes v mapping := same
      obtain ⟨answer, decides, met⟩ := describes.decides_authorize m.domains m.control access
      refine ⟨answer, .reaches leads decides, ?_⟩
      dsimp only
      cases granted : mapping.authorize m.domains m.control access with
      | error refusal =>
        rw [granted] at met
        exact met
      | ok manager =>
        rw [granted] at met
        exact met

theorem reports_refuse {answer : Except Rejection Word} {refusal : Refusal}
    (same : SameOutcome Eq answer (.error refusal)) (reads : List Word) :
    m.Reports v ⟨(m.countLookup.refuse v refusal).1, (m.countLookup.refuse v refusal).2, reads⟩
      answer := by
  cases answer with
  | ok p => contradiction
  | error rejection =>
    have met : rejection.Matches refusal := same
    cases met with
    | fault recorded => exact ⟨rfl, rfl, rfl, recorded v⟩
    | failure cause => exact ⟨rfl, rfl, rfl, rfl⟩

/-- With paging on and no block cached for the address, an access is translated as the tables say:
the unit reads the descriptors of the address and no others, takes the address out of the last one,
checks the domain and then the permission bits of the very part that is accessed, and records a
fault, but nothing else. -/
theorem translate_follows_tables (m : Mmu) (read : Word → Except Failure Word) (v : Word)
    (access : Access) (pages : m.Pages v access)
    (absent : (m.cache access.side).lookup v = none) :
    ∃ answer, m.Yields read v access (m.translate read v access).reads answer ∧
      m.Reports v (m.translate read v access) answer := by
  obtain ⟨outcome, yields, same⟩ := yields_translate read pages
  have answers := m.translate_answers read v access
  generalize m.translate read v access = t at answers ⊢
  cases answers with
  | identity off =>
    rw [pages.enabled] at off
    contradiction
  | misaligned on checked odd =>
    rw [pages.aligned checked] at odd
    contradiction
  | hit _ e found allowed =>
    rw [absent] at found
    contradiction
  | undecided _ e found cause failed =>
    rw [absent] at found
    contradiction
  | refused _ missed refusal answer =>
    rw [answer] at same
    exact ⟨outcome, yields, reports_refuse same _⟩
  | walked _ missed mapping manager found granted =>
    have answer := tables_translate_of_pages read pages m.tableBase m.domains
    simp only [found, granted] at answer
    rw [answer] at same
    cases outcome with
    | error rejection => contradiction
    | ok p =>
      obtain rfl : p = mapping.physical := same
      have counted : m.SameFault m.countLookup := ⟨rfl, rfl, rfl⟩
      exact ⟨_, yields, rfl, counted.trans (sameFault_setCache _ _ _)⟩

/-- A unit in front of one coarse table, at 0x8000, for the megabyte at 0x10000000. Its domain is 5,
and the quarters of the small page at 0x10013000 have permission 0, 0, 0 and 2. -/
def quarteredPage : Mmu := { initial true with control := 1, tableBase := 0x4000, domains := 0x400 }

def quarteredTable (address : Word) : Except Failure Word :=
  .ok (if address = 0x4400 then 0x80A1 else if address = 0x804C then 0x00020802 else 0)

/-- Unprivileged code loads or stores a byte in the last quarter. -/
def lastQuarter (write : Bool) : Resolution :=
  quarteredPage.translate quarteredTable 0x10013C10 (.data write false .byte)

theorem translate_follows_tables_quarteredPage :
    (∃ answer,
      quarteredPage.Yields quarteredTable 0x10013C10 (.data false false .byte)
          [0x4400, 0x804C] answer ∧
        quarteredPage.Reports 0x10013C10 (lastQuarter false) answer) ∧
      (lastQuarter false).result = .ok 0x00020C10 ∧
      (∃ answer,
        quarteredPage.Yields quarteredTable 0x10013C10 (.data true false .byte)
            [0x4400, 0x804C] answer ∧
          quarteredPage.Reports 0x10013C10 (lastQuarter true) answer) ∧
      (lastQuarter true).result = .error (.abort ⟨.pagePermission, 5, 0x10013C10⟩) ∧
      (lastQuarter true).mmu.RecordsFault 0x5F 0x10013C10 := by
  have pages (write : Bool) : quarteredPage.Pages 0x10013C10 (.data write false .byte) := by
    refine ⟨by decide, ?_⟩
    intro checked
    cases checked
  have absent : (quarteredPage.cache Side.data).lookup 0x10013C10 = none :=
    BlockCache.lookup_empty _
  exact ⟨translate_follows_tables _ quarteredTable _ _ (pages false) absent, by rfl,
    translate_follows_tables _ quarteredTable _ _ (pages true) absent, by rfl, by rfl, by rfl,
    by rfl⟩

end Mmu
end ArmMachine
