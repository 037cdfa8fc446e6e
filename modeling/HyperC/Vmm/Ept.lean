import HyperC.Lib.Fields
import HyperC.Machine.State
import HyperC.Vmm.DataLayout

/-!
# `ept.c`: building the extended page tables

* `EptField`                      the named bit fields of `ept_entry_t` and `ept_flags_t`;
* `setEntryAddress`, `setEntryFlags`, `initializeExtendedPageTables`, `updateGpaAccessRights`
                                  the functions of the file;
* `setEntryFlags_eq`              the twelve field copies are ONE merge through `copyMask`;
* `initializeExtendedPageTables_eq`   the function returns, and only changes memory;
* `updateGpaAccessRights_eq`      so does the other, if the address is aligned.
-/

namespace HyperC
open Code Bits Epts

/-- the named fields of `ept_entry_t`, which are also those of `ept_flags_t` -/
inductive EptField where
  | readAccess | writeAccess | supervisorExecute | memoryType | ignorePat | accessed | dirty
  | userExecute | physicalAddress | verifyGuestPaging | pagingWriteAccess | supervisorShadowStack
  | subPageWritePrems | supressVe

namespace EptField

/-- the position of a field among all the fields of the struct, the unnamed ones included -/
def position : EptField → ℕ
  | readAccess => 0
  | writeAccess => 1
  | supervisorExecute => 2
  | memoryType => 3
  | ignorePat => 4
  | accessed => 6
  | dirty => 7
  | userExecute => 8
  | physicalAddress => 10
  | verifyGuestPaging => 13
  | pagingWriteAccess => 14
  | supervisorShadowStack => 16
  | subPageWritePrems => 17
  | supressVe => 19

def lo (f : EptField) : ℕ := eptEntryT.lo f.position
def width (f : EptField) : ℕ := eptEntryT.width f.position
def get (f : EptField) (e : BitVec 64) : BitVec f.width := field f.lo f.width e
def set (f : EptField) (e : BitVec 64) (v : BitVec f.width) : BitVec 64 := setField f.lo e v

def getFlag (f : EptField) (flags : BitVec 64) : BitVec f.width :=
  field (eptFlagsT.lo f.position) f.width flags

end EptField

open EptField

def eptMemoryTypeWriteback : BitVec 3 := 6
def nestedTablesCount : ℕ := 4
def pageSize : ℕ := 0x1000

/-! ## the functions -/

/-- `entry->physical_address = address >> 12`, truncated to the width of the field -/
def setEntryAddress (entry address : BitVec 64) : BitVec 64 :=
  physicalAddress.set entry ((address >>> 12).setWidth 36)

/-- the fields `set_entry_flags` assigns, in its order -/
def copiedFields : List EptField :=
  [readAccess, writeAccess, supervisorExecute, memoryType, ignorePat, dirty, userExecute,
    verifyGuestPaging, pagingWriteAccess, supervisorShadowStack, subPageWritePrems, supressVe]

def setEntryFlags (entry flags : BitVec 64) : BitVec 64 :=
  copiedFields.foldl (fun e f => f.set e (f.getFlag flags)) entry

/-- an entry set from an address and flags, in place -/
def setEntry (a : ℕ) (address flags : BitVec 64) : Mem → Mem :=
  Mem.update64 a fun e => setEntryFlags (setEntryAddress e address) flags

/-- `default_flags` before and after its memory type is set for the leaves -/
def defaultFlags : BitVec 64 :=
  supervisorExecute.set (writeAccess.set (readAccess.set 0 1) 1) 1
def leafFlags : BitVec 64 := memoryType.set defaultFlags eptMemoryTypeWriteback

/-- the `eptp_t` that `initialize_extended_page_tables` returns -/
def eptpOf (epts : ℕ) : BitVec 64 :=
  let eptp : BitVec 64 := 0
  let eptp := setField (eptpT.lo 0) eptp eptMemoryTypeWriteback
  let eptp := setField (eptpT.lo 1) eptp (BitVec.ofNat 3 (nestedTablesCount - 1))
  setField (eptpT.lo 5) eptp ((BitVec.ofNat 64 (pml4 epts 0) >>> 12).setWidth 36)

def initializeExtendedPageTables (epts : ℕ) : Host (BitVec 64) := do
  assertNot (¬ eptEntryT.size = 8) "(sizeof(ept_entry_t) == 8)"
  assertNot (¬ eptpT.size = 8) "(sizeof(eptp_t) == 8)"
  let eptp := eptpOf epts
  modifyMem (setEntry (pml4 epts 0) (BitVec.ofNat 64 (pdpt epts 0)) defaultFlags)
  modifyMem (Mem.forLoop memorySize fun i =>
    setEntry (pdpt epts i) (BitVec.ofNat 64 (pds epts (i * tableSize))) defaultFlags)
  modifyMem (Mem.forLoop (memorySize * tableSize) fun i =>
    setEntry (pds epts i) (BitVec.ofNat 64 (pts epts (i * tableSize))) defaultFlags)
  -- the loop variable `physical_address` runs beside `i`
  modifyMem fun m => (Mem.forLoop (memorySize * tableSize * tableSize)
    (fun i (p : Mem × BitVec 64) =>
      (setEntry (pts epts i) p.2 leafFlags p.1, p.2 + BitVec.ofNat 64 pageSize)) (m, 0)).1
  return eptp

def updateGpaAccessRights (epts : ℕ) (gpa flags : BitVec 64) : Host Unit := do
  assertNot (¬ gpa % BitVec.ofNat 64 pageSize = 0) "(gpa % 0x1000 == 0)"
  let gpaPage := gpa / BitVec.ofNat 64 pageSize
  modifyMem (Mem.update64 (pts epts gpaPage.toNat) fun e => setEntryFlags e flags)

/-! ## flag copies as a merge -/

def copyMask : BitVec 64 :=
  copiedFields.foldl (fun m f => m ||| fieldMask 64 f.lo f.width) 0

private theorem foldl_copy (fs : List EptField) (e flags m : BitVec 64) :
    fs.foldl (fun e f => f.set e (f.getFlag flags)) (merge m e flags)
      = merge (fs.foldl (fun m f => m ||| fieldMask 64 f.lo f.width) m) e flags := by
  induction fs generalizing m with
  | nil => rfl
  | cons f fs ih =>
    have h : f.set (merge m e flags) (f.getFlag flags)
        = merge (m ||| fieldMask 64 f.lo f.width) e flags := by
      rw [← merge_merge]
      exact copyField_eq_merge f.lo f.width _ flags
    rw [List.foldl_cons, List.foldl_cons, h, ih]

theorem setEntryFlags_eq (e flags : BitVec 64) : setEntryFlags e flags = merge copyMask e flags := by
  have h : e = merge 0 e flags := by
    apply BitVec.eq_of_getLsbD_eq
    intro i _
    simp [getLsbD_merge]
  show copiedFields.foldl _ e = merge copyMask e flags
  conv_lhs => rw [h]
  exact foldl_copy copiedFields e flags 0

theorem setEntryAddress_eq (e a : BitVec 64) :
    setEntryAddress e a = setField 12 e ((a >>> 12).setWidth 36 : BitVec 36) := rfl

/-! ## the memory the builder leaves -/

/-- an entry as the builder leaves it, from the entry before -/
def built (flags : BitVec 64) (addr : ℕ) (e : BitVec 64) : BitVec 64 :=
  setEntryFlags (setEntryAddress e (BitVec.ofNat 64 addr)) flags

/-- the effect of `initialize_extended_page_tables` on memory -/
def buildTables (epts : ℕ) (m : Mem) : Mem :=
  let m := Mem.update64 (pml4 epts 0) (built defaultFlags (pdpt epts 0)) m
  let m := Mem.mapWords (pdpt epts 0) (fun i => built defaultFlags (pds epts (i * tableSize)))
    memorySize m
  let m := Mem.mapWords (pds epts 0) (fun i => built defaultFlags (pts epts (i * tableSize)))
    (memorySize * tableSize) m
  Mem.mapWords (pts epts 0) (fun i => built leafFlags (i * pageSize))
    (memorySize * tableSize * tableSize) m

private theorem forLoop_setEntry (arr addr : ℕ → ℕ) (harr : ∀ i, arr i = arr 0 + 8 * i)
    (flags : BitVec 64) (n : ℕ) :
    Mem.forLoop n (fun i => setEntry (arr i) (BitVec.ofNat 64 (addr i)) flags)
      = Mem.mapWords (arr 0) (fun i => built flags (addr i)) n := by
  funext m
  unfold Mem.mapWords
  congr 1
  funext i
  rw [harr i]
  rfl

private theorem forLoop_leaves (epts n : ℕ) (m : Mem) :
    (Mem.forLoop n (fun i (p : Mem × BitVec 64) =>
      (setEntry (pts epts i) p.2 leafFlags p.1, p.2 + BitVec.ofNat 64 pageSize)) (m, 0)).1
      = Mem.mapWords (pts epts 0) (fun i => built leafFlags (i * pageSize)) n m := by
  have hstep : ∀ i, BitVec.ofNat 64 (i * pageSize) + BitVec.ofNat 64 pageSize
      = BitVec.ofNat 64 ((i + 1) * pageSize) := by
    intro i
    rw [← BitVec.ofNat_add, Nat.succ_mul]
  have h := Mem.forLoop_pair n (fun i a m => setEntry (pts epts i) a leafFlags m)
    (fun a => a + BitVec.ofNat 64 pageSize) (fun i => BitVec.ofNat 64 (i * pageSize)) hstep m
  have h0 : BitVec.ofNat 64 (0 * pageSize) = 0 := rfl
  rw [h0] at h
  rw [h]
  exact congrFun (forLoop_setEntry (pts epts) (fun i => i * pageSize) (fun _ => rfl) leafFlags n) m

/-- **the builder returns, and all it does is rewrite memory** -/
theorem initializeExtendedPageTables_eq (epts : ℕ) (s : Machine) :
    (initializeExtendedPageTables epts).run s
      = .ret (eptpOf epts) { s with mem := buildTables epts s.mem } := by
  have hpdpt := forLoop_setEntry (pdpt epts) (fun i => pds epts (i * tableSize)) (fun _ => rfl)
    defaultFlags memorySize
  have hpds := forLoop_setEntry (pds epts) (fun i => pts epts (i * tableSize)) (fun _ => rfl)
    defaultFlags (memorySize * tableSize)
  have hs₁ : ¬ ¬ eptEntryT.size = 8 := not_not.mpr rfl
  have hs₂ : ¬ ¬ eptpT.size = 8 := not_not.mpr rfl
  unfold initializeExtendedPageTables
  rw [hpdpt, hpds, bind_of_ret (assertNot_pass hs₁ _ s), bind_of_ret (assertNot_pass hs₂ _ s)]
  simp only [forLoop_leaves]
  rfl

/-- one call of `update_gpa_access_rights` on memory -/
def updateLeaf (epts : ℕ) (gpa flags : BitVec 64) : Mem → Mem :=
  Mem.update64 (pts epts (gpa.toNat / pageSize)) fun e => merge copyMask e flags

theorem updateGpaAccessRights_eq (epts : ℕ) (gpa flags : BitVec 64) (h : gpa.toNat % pageSize = 0)
    (s : Machine) : (updateGpaAccessRights epts gpa flags).run s
      = .ret () { s with mem := updateLeaf epts gpa flags s.mem } := by
  have hp : (BitVec.ofNat 64 pageSize).toNat = pageSize := rfl
  have hz : gpa % BitVec.ofNat 64 pageSize = 0 := by
    apply BitVec.eq_of_toNat_eq
    rw [BitVec.toNat_umod, hp, h]
    rfl
  have hd : (gpa / BitVec.ofNat 64 pageSize).toNat = gpa.toNat / pageSize := by
    rw [BitVec.toNat_udiv, hp]
  unfold updateGpaAccessRights
  rw [bind_of_ret (assertNot_pass (not_not.mpr hz) _ s)]
  simp only [hd, setEntryFlags_eq]
  rfl

end HyperC
