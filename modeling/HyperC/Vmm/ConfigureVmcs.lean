import HyperC.Vmm.Ept
import HyperC.Vmm.EnterRoot
import HyperC.Vmm.SavedImage

/-!
# `configure_vmcs`

The function writes some eighty fields, in the groups below and in the source's order.

* `configureControls`, `configureHostArea`, `configureGuestRegs` .., `configureVmcs`   the function;
* `not_pinBasedTest`   the assertion on the pin-based controls never fires: `!` binds before `>>`, so
                       what is tested is always `0`;
* `configuredFields`   the list of all fields and what each gets;
* `configureVmcs_run`, `configureVmcs_field`   the function returns; it builds the tables, leaves the
                       rest of memory alone and writes the list.
-/

namespace HyperC
open Code

def canonicalAddress : BitVec 64 := 0xffffffff#64
def canonicalSelector : BitVec 64 := 0xff#64
def vmcsSelectorUnusable : BitVec 64 := 1#64 <<< 16
def descriptorMaxLimit : BitVec 64 := 0xfffff#64
def guestDsAccessRights : BitVec 64 := 0xc093#64
def guestCsAccessRights : BitVec 64 := 0xa09b#64
def guestTrAccessRights : BitVec 64 := 0xc08b#64
def rflagsDefault0 : BitVec 64 := 0xfffd7fd7#64
def rflagsDefault1 : BitVec 64 := 1#64 <<< 1
def defaultInterruptibilityState : BitVec 64 := 0#64
def cpuStateActive : BitVec 64 := 0#64

/-- `!(d & 1LL << 1) >> 1 && (d & 1LL << 2) >> 2 && (d & 1LL << 4) >> 4`, the test of
`ASSERT(BIT_N(d, 1) && BIT_N(d, 2) && BIT_N(d, 4))` -/
def pinBasedTest (d : BitVec 64) : Prop :=
  cNot (d &&& 1#64 <<< 1).toNat >>> 1 ≠ 0 ∧ bitN d 2 ≠ 0#64 ∧ bitN d 4 ≠ 0#64

instance (d : BitVec 64) : Decidable (pinBasedTest d) := inferInstanceAs (Decidable (_ ∧ _))

/-- the VM-execution, VM-exit and VM-entry controls -/
def configureControls : Host Unit := do
  let defaultBits ← getDefaultBits msrIa32VmxPinbasedCtls msrIa32VmxTruePinbasedCtls
  assertNot (pinBasedTest (defaultBits.setWidth 64))
    ("(default_bits & 1LL << 1) >> 1 && (default_bits & 1LL << 2) >> 2 && " ++
      "(default_bits & 1LL << 4) >> 4")
  vmwrite vmcsPinBasedVmExecControl (defaultBits.setWidth 64)
  let defaultBits ← getDefaultBits msrIa32VmxProcbasedCtls msrIa32VmxTrueProcbasedCtls
  vmwrite vmcsCpuBasedVmExecControl ((defaultBits ||| cpuBasedHltExiting |||
    cpuBasedActivateMsrBitmap ||| cpuBasedActivateSecondaryControls).setWidth 64)
  let defaultBits ← getDefaultBits msrIa32VmxProcbasedCtls2 msrIa32VmxProcbasedCtls2
  vmwrite vmcsSecondaryVmExecControl ((defaultBits ||| cpuBasedCtl2EnableEpt |||
    cpuBasedCtl2UnrestrictedGuest).setWidth 64)
  let defaultBits ← getDefaultBits msrIa32VmxExitCtls msrIa32VmxTrueExitCtls
  vmwrite vmcsVmExitControls ((defaultBits ||| vmExitIa32eMode).setWidth 64)
  let defaultBits ← getDefaultBits msrIa32VmxEntryCtls msrIa32VmxTrueEntryCtls
  vmwrite vmcsVmEntryControls ((defaultBits ||| vmEntryIa32eMode).setWidth 64)

/-- the host area, and the two descriptor-table registers read on the way -/
def configureHostArea (img : Image) (cpuData : ℕ) : Host (TableReg × TableReg) := do
  vmwrite vmcsHostCr0 (← readCr0)
  vmwrite vmcsHostCr4 (← readCr4)
  vmwrite vmcsHostCr3 (← readCr3)
  vmwrite vmcsHostRip (BitVec.ofNat 64 img.vmexitWrapper)
  vmwrite vmcsHostRsp (BitVec.ofNat 64 stackTop)
  vmwrite vmcsHostSysenterCs canonicalSelector
  vmwrite vmcsHostSysenterEip canonicalAddress
  vmwrite vmcsHostSysenterEsp canonicalAddress
  vmwrite vmcsHostCsSelector ((← readCs).setWidth 64)
  vmwrite vmcsHostSsSelector ((← readSs).setWidth 64)
  vmwrite vmcsHostDsSelector ((← readDs).setWidth 64)
  vmwrite vmcsHostEsSelector ((← readEs).setWidth 64)
  vmwrite vmcsHostFsSelector ((← readFs).setWidth 64)
  vmwrite vmcsHostGsSelector ((← readGs).setWidth 64)
  vmwrite vmcsHostTrSelector ((← readDs).setWidth 64)
  vmwrite vmcsHostFsBase (BitVec.ofNat 64 (CpuData.guestCpuState cpuData))
  vmwrite vmcsHostGsBase 0#64
  vmwrite vmcsHostTrBase ((← readDs).setWidth 64)
  let gdtr ← readGdtr
  let idtr ← readIdtr
  logDebug "gdtr base: %x, limit: %x" [.int gdtr.base, .int (gdtr.limit.setWidth 64)]
  logDebug "idtr base: %x, limit: %x" [.int idtr.base, .int (idtr.limit.setWidth 64)]
  vmwrite vmcsHostGdtrBase gdtr.base
  vmwrite vmcsHostIdtrBase idtr.base
  return (gdtr, idtr)

def configureGuestRegs (img : Image) (cpuData : ℕ) : Host Unit := do
  vmwrite vmcsGuestCr0 (← readCr0)
  vmwrite vmcsGuestCr3 (← readCr3)
  vmwrite vmcsGuestCr4 (← readCr4)
  vmwrite vmcsGuestDr7 (← readDr7)
  vmwrite vmcsGuestRip (BitVec.ofNat 64 img.kmain)
  vmwrite vmcsGuestRsp (BitVec.ofNat 64 (GuestState.stackTop (CpuData.guestCpuState cpuData)))
  vmwrite vmcsGuestRflags (((← readRflags) ||| rflagsDefault1) &&& rflagsDefault0)
  vmwrite vmcsGuestIa32Debugctl ((← readMsr msrIa32Debugctl) &&& 0xffffffff#64)
  vmwrite vmcsGuestIa32DebugctlHigh ((← readMsr msrIa32Debugctl) >>> 32)
  vmwrite vmcsGuestSysenterCs ((← readCs).setWidth 64)
  vmwrite vmcsGuestSysenterEip canonicalAddress
  vmwrite vmcsGuestSysenterEsp canonicalAddress

/-- a guest segment: its selector, base, limit and access rights -/
def configureSegment (selector base limit arBytes : ℕ) (s b l a : BitVec 64) : Host Unit := do
  vmwrite selector s
  vmwrite base b
  vmwrite limit l
  vmwrite arBytes a

def configureGuestSegments : Host Unit := do
  configureSegment vmcsGuestCsSelector vmcsGuestCsBase vmcsGuestCsLimit vmcsGuestCsArBytes
    ((← readCs).setWidth 64) 0#64 descriptorMaxLimit guestCsAccessRights
  configureSegment vmcsGuestSsSelector vmcsGuestSsBase vmcsGuestSsLimit vmcsGuestSsArBytes
    ((← readSs).setWidth 64) 0#64 descriptorMaxLimit guestDsAccessRights
  configureSegment vmcsGuestDsSelector vmcsGuestDsBase vmcsGuestDsLimit vmcsGuestDsArBytes
    ((← readDs).setWidth 64) 0#64 descriptorMaxLimit guestDsAccessRights
  configureSegment vmcsGuestEsSelector vmcsGuestEsBase vmcsGuestEsLimit vmcsGuestEsArBytes
    ((← readEs).setWidth 64) 0#64 descriptorMaxLimit guestDsAccessRights
  configureSegment vmcsGuestFsSelector vmcsGuestFsBase vmcsGuestFsLimit vmcsGuestFsArBytes
    ((← readFs).setWidth 64) 0#64 descriptorMaxLimit guestDsAccessRights
  configureSegment vmcsGuestGsSelector vmcsGuestGsBase vmcsGuestGsLimit vmcsGuestGsArBytes
    ((← readGs).setWidth 64) 0#64 descriptorMaxLimit guestDsAccessRights
  configureSegment vmcsGuestTrSelector vmcsGuestTrBase vmcsGuestTrLimit vmcsGuestTrArBytes
    ((← readDs).setWidth 64) 0#64 descriptorMaxLimit guestTrAccessRights
  configureSegment vmcsGuestLdtrSelector vmcsGuestLdtrBase vmcsGuestLdtrLimit vmcsGuestLdtrArBytes
    0#64 0#64 0xff#64 vmcsSelectorUnusable

/-- the guest's descriptor tables and activity; `GUEST_IDTR_LIMIT` is written twice -/
def configureGuestTables (gdtr idtr : TableReg) : Host Unit := do
  vmwrite vmcsGuestGdtrBase gdtr.base
  vmwrite vmcsGuestIdtrLimit (gdtr.limit.setWidth 64)
  vmwrite vmcsGuestIdtrBase idtr.base
  vmwrite vmcsGuestIdtrLimit (idtr.limit.setWidth 64)
  vmwrite vmcsGuestActivityState cpuStateActive
  vmwrite vmcsGuestInterruptibilityInfo defaultInterruptibilityState
  vmwrite vmcsVmcsLinkPointer (BitVec.allOnes 64)

def configureVmcs (img : Image) (cpuData : ℕ) : Host Unit := do
  configureControls
  let (gdtr, idtr) ← configureHostArea img cpuData
  configureGuestRegs img cpuData
  configureGuestSegments
  configureGuestTables gdtr idtr
  vmwrite vmcsMsrBitmap (BitVec.ofNat 64 (CpuData.msrBitmaps cpuData))
  vmwrite vmcsEptPointer (← initializeExtendedPageTables (CpuData.epts cpuData))

/-! ## what the groups write -/

section
variable (img : Image) (p : ℕ) (c : Cpu)

def controlFields : List (ℕ × BitVec 64) :=
  [(vmcsPinBasedVmExecControl,
      (defaultBits c.msr msrIa32VmxPinbasedCtls msrIa32VmxTruePinbasedCtls).setWidth 64),
    (vmcsCpuBasedVmExecControl,
      (defaultBits c.msr msrIa32VmxProcbasedCtls msrIa32VmxTrueProcbasedCtls ||| cpuBasedHltExiting |||
        cpuBasedActivateMsrBitmap ||| cpuBasedActivateSecondaryControls).setWidth 64),
    (vmcsSecondaryVmExecControl,
      (defaultBits c.msr msrIa32VmxProcbasedCtls2 msrIa32VmxProcbasedCtls2 |||
        cpuBasedCtl2EnableEpt ||| cpuBasedCtl2UnrestrictedGuest).setWidth 64),
    (vmcsVmExitControls, (defaultBits c.msr msrIa32VmxExitCtls msrIa32VmxTrueExitCtls |||
      vmExitIa32eMode).setWidth 64),
    (vmcsVmEntryControls, (defaultBits c.msr msrIa32VmxEntryCtls msrIa32VmxTrueEntryCtls |||
      vmEntryIa32eMode).setWidth 64)]

def hostFields : List (ℕ × BitVec 64) :=
  [(vmcsHostCr0, c.cr0), (vmcsHostCr4, c.cr4), (vmcsHostCr3, c.cr3),
    (vmcsHostRip, BitVec.ofNat 64 img.vmexitWrapper), (vmcsHostRsp, BitVec.ofNat 64 stackTop),
    (vmcsHostSysenterCs, canonicalSelector), (vmcsHostSysenterEip, canonicalAddress),
    (vmcsHostSysenterEsp, canonicalAddress), (vmcsHostCsSelector, c.cs.setWidth 64),
    (vmcsHostSsSelector, c.ss.setWidth 64), (vmcsHostDsSelector, c.ds.setWidth 64),
    (vmcsHostEsSelector, c.es.setWidth 64), (vmcsHostFsSelector, c.fs.setWidth 64),
    (vmcsHostGsSelector, c.gs.setWidth 64), (vmcsHostTrSelector, c.ds.setWidth 64),
    (vmcsHostFsBase, BitVec.ofNat 64 (CpuData.guestCpuState p)), (vmcsHostGsBase, 0#64),
    (vmcsHostTrBase, c.ds.setWidth 64), (vmcsHostGdtrBase, c.gdtr.base),
    (vmcsHostIdtrBase, c.idtr.base)]

def guestRegFields : List (ℕ × BitVec 64) :=
  [(vmcsGuestCr0, c.cr0), (vmcsGuestCr3, c.cr3), (vmcsGuestCr4, c.cr4), (vmcsGuestDr7, c.dr7),
    (vmcsGuestRip, BitVec.ofNat 64 img.kmain),
    (vmcsGuestRsp, BitVec.ofNat 64 (GuestState.stackTop (CpuData.guestCpuState p))),
    (vmcsGuestRflags, (c.rflags ||| rflagsDefault1) &&& rflagsDefault0),
    (vmcsGuestIa32Debugctl, c.msr msrIa32Debugctl &&& 0xffffffff#64),
    (vmcsGuestIa32DebugctlHigh, c.msr msrIa32Debugctl >>> 32),
    (vmcsGuestSysenterCs, c.cs.setWidth 64), (vmcsGuestSysenterEip, canonicalAddress),
    (vmcsGuestSysenterEsp, canonicalAddress)]

def segmentFields (selector base limit arBytes : ℕ) (s b l a : BitVec 64) : List (ℕ × BitVec 64) :=
  [(selector, s), (base, b), (limit, l), (arBytes, a)]

def guestSegmentFields : List (ℕ × BitVec 64) :=
  segmentFields vmcsGuestCsSelector vmcsGuestCsBase vmcsGuestCsLimit vmcsGuestCsArBytes
      (c.cs.setWidth 64) 0#64 descriptorMaxLimit guestCsAccessRights ++
    segmentFields vmcsGuestSsSelector vmcsGuestSsBase vmcsGuestSsLimit vmcsGuestSsArBytes
      (c.ss.setWidth 64) 0#64 descriptorMaxLimit guestDsAccessRights ++
    segmentFields vmcsGuestDsSelector vmcsGuestDsBase vmcsGuestDsLimit vmcsGuestDsArBytes
      (c.ds.setWidth 64) 0#64 descriptorMaxLimit guestDsAccessRights ++
    segmentFields vmcsGuestEsSelector vmcsGuestEsBase vmcsGuestEsLimit vmcsGuestEsArBytes
      (c.es.setWidth 64) 0#64 descriptorMaxLimit guestDsAccessRights ++
    segmentFields vmcsGuestFsSelector vmcsGuestFsBase vmcsGuestFsLimit vmcsGuestFsArBytes
      (c.fs.setWidth 64) 0#64 descriptorMaxLimit guestDsAccessRights ++
    segmentFields vmcsGuestGsSelector vmcsGuestGsBase vmcsGuestGsLimit vmcsGuestGsArBytes
      (c.gs.setWidth 64) 0#64 descriptorMaxLimit guestDsAccessRights ++
    segmentFields vmcsGuestTrSelector vmcsGuestTrBase vmcsGuestTrLimit vmcsGuestTrArBytes
      (c.ds.setWidth 64) 0#64 descriptorMaxLimit guestTrAccessRights ++
    segmentFields vmcsGuestLdtrSelector vmcsGuestLdtrBase vmcsGuestLdtrLimit vmcsGuestLdtrArBytes
      0#64 0#64 0xff#64 vmcsSelectorUnusable

def guestTableFields (gdtr idtr : TableReg) : List (ℕ × BitVec 64) :=
  [(vmcsGuestGdtrBase, gdtr.base), (vmcsGuestIdtrLimit, gdtr.limit.setWidth 64),
    (vmcsGuestIdtrBase, idtr.base), (vmcsGuestIdtrLimit, idtr.limit.setWidth 64),
    (vmcsGuestActivityState, cpuStateActive),
    (vmcsGuestInterruptibilityInfo, defaultInterruptibilityState),
    (vmcsVmcsLinkPointer, BitVec.allOnes 64)]

end

/-! ## what the groups do -/

section
variable (img : Image) (p : ℕ) (s : Machine)

theorem not_pinBasedTest (d : BitVec 64) : ¬ pinBasedTest d := by
  intro h
  refine h.1 ?_
  rw [cNot]
  split <;> rfl

theorem configureControls_run : configureControls.run s
    = .ret () { s with vmcs := vmwrites (controlFields s.cpu) s.vmcs } := by
  unfold configureControls
  simp only [run_bind, getDefaultBits_run, assertNot_pass (not_pinBasedTest _), run_vmwrite]
  simp only [vmwrites, controlFields, List.foldl_cons, List.foldl_nil]

theorem configureHostArea_run : ∃ log, (configureHostArea img p).run s
    = .ret (s.cpu.gdtr, s.cpu.idtr)
      { s with vmcs := vmwrites (hostFields img p s.cpu) s.vmcs, log := log } := by
  unfold configureHostArea
  simp only [run_bind, run_vmwrite, readCr0, readCr4, readCr3, readCs, readSs, readDs, readEs, readFs,
    readGs, readGdtr, readIdtr, run_gets, run_logDebug, run_pure]
  simp only [vmwrites, hostFields, List.foldl_cons, List.foldl_nil]
  exact ⟨_, rfl⟩

theorem configureGuestRegs_run : (configureGuestRegs img p).run s
    = .ret () { s with vmcs := vmwrites (guestRegFields img p s.cpu) s.vmcs } := by
  unfold configureGuestRegs
  simp only [run_bind, run_vmwrite, run_readMsr, readCr0, readCr3, readCr4, readDr7, readRflags, readCs,
    run_gets]
  simp only [vmwrites, guestRegFields, List.foldl_cons, List.foldl_nil]

theorem configureSegment_run (selector base limit arBytes : ℕ) (v b l a : BitVec 64) :
    (configureSegment selector base limit arBytes v b l a).run s
      = .ret () { s with vmcs := vmwrites (segmentFields selector base limit arBytes v b l a) s.vmcs } := by
  unfold configureSegment
  simp only [run_bind, run_vmwrite]
  simp only [vmwrites, segmentFields, List.foldl_cons, List.foldl_nil]

theorem configureGuestSegments_run : configureGuestSegments.run s
    = .ret () { s with vmcs := vmwrites (guestSegmentFields s.cpu) s.vmcs } := by
  unfold configureGuestSegments
  simp only [run_bind, configureSegment_run, readCs, readSs, readDs, readEs, readFs, readGs, run_gets]
  simp only [guestSegmentFields, vmwrites_append]

theorem configureGuestTables_run (gdtr idtr : TableReg) : (configureGuestTables gdtr idtr).run s
    = .ret () { s with vmcs := vmwrites (guestTableFields gdtr idtr) s.vmcs } := by
  unfold configureGuestTables
  simp only [run_bind, run_vmwrite]
  simp only [vmwrites, guestTableFields, List.foldl_cons, List.foldl_nil]

/-- all the fields that are written, in order -/
def configuredFields (c : Cpu) : List (ℕ × BitVec 64) :=
  controlFields c ++ hostFields img p c ++ guestRegFields img p c ++ guestSegmentFields c ++
    guestTableFields c.gdtr c.idtr ++
    [(vmcsMsrBitmap, BitVec.ofNat 64 (CpuData.msrBitmaps p)),
      (vmcsEptPointer, eptpOf (CpuData.epts p))]

/-- **`configure_vmcs` returns**: it writes the fields of its list and builds the tables -/
theorem configureVmcs_run : ∃ log, (configureVmcs img p).run s
    = .ret () { s with
        vmcs := vmwrites (configuredFields img p s.cpu) s.vmcs
        mem := buildTables (CpuData.epts p) s.mem
        log := log } := by
  unfold configureVmcs
  rw [bind_of_ret (configureControls_run s)]
  obtain ⟨log, hhost⟩ := configureHostArea_run img p
    { s with vmcs := vmwrites (controlFields s.cpu) s.vmcs }
  rw [bind_of_ret hhost]
  simp only [run_bind, configureGuestRegs_run, configureGuestSegments_run, configureGuestTables_run,
    run_vmwrite, initializeExtendedPageTables_eq]
  simp only [configuredFields, vmwrites_append]
  exact ⟨_, rfl⟩

/-- **no field is written twice**, `GUEST_IDTR_LIMIT` apart -/
theorem configuredFields_nodup (c : Cpu) :
    (((configuredFields img p c).map Prod.fst).erase vmcsGuestIdtrLimit).Nodup := by
  simp only [configuredFields, controlFields, hostFields, guestRegFields, guestSegmentFields,
    segmentFields, guestTableFields, List.map_append, List.map_cons, List.map_nil]
  decide

theorem configured_field {vmcs : ℕ → BitVec 64} {c : Cpu} {field : ℕ} {v : BitVec 64}
    (hm : (field, v) ∈ configuredFields img p c) (hne : field ≠ vmcsGuestIdtrLimit) :
    vmwrites (configuredFields img p c) vmcs field = v := by
  refine vmwrites_of_mem _ _ ?_ hm
  rw [← List.count_erase_of_ne hne]
  exact List.nodup_iff_count_le_one.mp (configuredFields_nodup img p c) field

section
variable {s s' : Machine} (h : (configureVmcs img p).run s = .ret () s')
include h

theorem configureVmcs_inv : s'.vmcs = vmwrites (configuredFields img p s.cpu) s.vmcs ∧
    s'.mem = buildTables (CpuData.epts p) s.mem ∧ s'.cpu = s.cpu := by
  obtain ⟨log, hrun⟩ := configureVmcs_run img p s
  obtain ⟨-, rfl⟩ := Outcome.ret.inj (h.symm.trans hrun)
  exact ⟨rfl, rfl, rfl⟩

theorem configureVmcs_field {field : ℕ} {v : BitVec 64}
    (hm : (field, v) ∈ configuredFields img p s.cpu) (hne : field ≠ vmcsGuestIdtrLimit) :
    s'.vmcs field = v := by
  rw [(configureVmcs_inv img p h).1]
  exact configured_field img p hm hne

end

end

end HyperC
