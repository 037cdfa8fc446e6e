import HyperC.Lib.Fields
import HyperC.Machine.State
import HyperC.Machine.Encodings

/-!
# VMX instructions, VM entries and VM exits

* `VmxUnit`     what a processor does on `vmxon`, `vmclear`, `vmptrld` and `vmlaunch`: whether it
                faults, the flags it sets and what it writes to the region of the instruction;
* `vmExit`      the guest's state goes to the VMCS and the host's is loaded from there;
* `vmEntry`     the guest's state is loaded from the VMCS;
* `ExitInfo`    what the processor says about an exit, `exitInfo_vmExit`: where the host reads it;
* `exitDebugctl`   what a way through the host leaves in `IA32_DEBUGCTL`.

Of the state a transition moves, only the part the code looks at is here: `rsp`, `rip`, the flags,
the `fs` base, the three `SYSENTER` MSRs and `IA32_DEBUGCTL`.  The general registers and all other MSRs
stay.
-/

namespace HyperC
open Code

/-! ## instructions -/

inductive VmxOp where
  | vmxon | vmclear | vmptrld

/-- the results of VMX instructions -/
structure VmxUnit where
  faults : VmxOp → ℕ → Machine → Bool
  /-- the flags, the memory and the current VMCS after an instruction on a region -/
  exec : VmxOp → ℕ → Machine → BitVec 64 × Mem × (ℕ → BitVec 64)
  /-- an instruction writes to the 4 KiB of its region only -/
  exec_outside : ∀ op region s x, x < region ∨ region + 4096 ≤ x →
    (exec op region s).2.1 x = s.mem x
  /-- the VMCS after a `vmlaunch` that fails -/
  launchFails : Machine → Option (ℕ → BitVec 64)

/-- the code an inline-assembly wrapper makes of the flags -/
def vmxErrorOf (flags : BitVec 64) : VmxErrorCode :=
  if flags &&& 1#64 ≠ 0#64 then .vmFailInvalid
  else if flags &&& (1#64 <<< 6) ≠ 0#64 then .vmFailValid
  else .vmSuccess

/-- the machine after an instruction that does not fault -/
def VmxUnit.after (u : VmxUnit) (op : VmxOp) (region : ℕ) (s : Machine) : Machine :=
  { s with mem := (u.exec op region s).2.1, vmcs := (u.exec op region s).2.2 }

/-- a VMX instruction; a fault stops the host, which has no interrupt table -/
def vmxInstr (u : VmxUnit) (op : VmxOp) (region : ℕ) : Host VmxErrorCode := fun s =>
  if u.faults op region s then .halt s
  else .ret (vmxErrorOf (u.exec op region s).1) (u.after op region s)

theorem run_vmxInstr (u : VmxUnit) (op : VmxOp) (region : ℕ) (s : Machine) :
    (vmxInstr u op region).run s = if u.faults op region s then .halt s
      else .ret (vmxErrorOf (u.exec op region s).1) (u.after op region s) := rfl

def vmxon (u : VmxUnit) (vmxonRegion : ℕ) : Host VmxErrorCode := vmxInstr u .vmxon vmxonRegion
def vmclear (u : VmxUnit) (vmcsRegion : ℕ) : Host VmxErrorCode := vmxInstr u .vmclear vmcsRegion
def vmptrld (u : VmxUnit) (vmcsRegion : ℕ) : Host VmxErrorCode := vmxInstr u .vmptrld vmcsRegion

/-! ## transitions -/

/-- what the processor says about an exit -/
structure ExitInfo where
  exitReason : BitVec 64
  len : BitVec 64
  gpa : BitVec 64

def ExitInfo.reason (e : ExitInfo) : ℕ := basicExitReason e.exitReason

def exitInfo (vmcs : ℕ → BitVec 64) : ExitInfo :=
  ⟨vmcs vmcsVmExitReason, vmcs vmcsVmExitInstructionLen, vmcs vmcsGuestPhysicalAddress⟩

/-- an MSR map with the three `SYSENTER` MSRs replaced -/
def withSysenter (msr : BitVec 32 → BitVec 64) (cs esp eip : BitVec 64) : BitVec 32 → BitVec 64 :=
  Function.update (Function.update (Function.update msr msrIa32SysenterCs cs) msrIa32SysenterEsp esp)
    msrIa32SysenterEip eip

/-- an exit saves `IA32_DEBUGCTL` in the VMCS -/
def savesDebugctl (vmcs : ℕ → BitVec 64) : Bool := (vmcs vmcsVmExitControls).getLsbD 2

/-- an entry loads it from there -/
def loadsDebugctl (vmcs : ℕ → BitVec 64) : Bool := (vmcs vmcsVmEntryControls).getLsbD 2

/-- the two fields of `IA32_DEBUGCTL` together -/
def vmcsDebugctl (vmcs : ℕ → BitVec 64) : BitVec 64 :=
  (vmcs vmcsGuestIa32DebugctlHigh <<< 32) ||| vmcs vmcsGuestIa32Debugctl

/-- the value an exit leaves in the two fields -/
def savedDebugctl (s : Machine) : BitVec 64 × BitVec 64 :=
  if savesDebugctl s.vmcs then
    (s.cpu.msr msrIa32Debugctl &&& 0xffffffff#64, s.cpu.msr msrIa32Debugctl >>> 32)
  else (s.vmcs vmcsGuestIa32Debugctl, s.vmcs vmcsGuestIa32DebugctlHigh)

def exitFields (e : ExitInfo) (s : Machine) : List (ℕ × BitVec 64) :=
  [(vmcsGuestRsp, s.cpu.regs .rsp), (vmcsGuestRip, s.cpu.regs .rip), (vmcsGuestRflags, s.cpu.rflags),
    (vmcsGuestFsBase, s.cpu.fsBase), (vmcsGuestSysenterCs, s.cpu.msr msrIa32SysenterCs),
    (vmcsGuestSysenterEsp, s.cpu.msr msrIa32SysenterEsp),
    (vmcsGuestSysenterEip, s.cpu.msr msrIa32SysenterEip),
    (vmcsGuestIa32Debugctl, (savedDebugctl s).1), (vmcsGuestIa32DebugctlHigh, (savedDebugctl s).2),
    (vmcsVmExitReason, e.exitReason), (vmcsVmExitInstructionLen, e.len),
    (vmcsGuestPhysicalAddress, e.gpa)]

def vmExit (e : ExitInfo) (s : Machine) : Machine :=
  { s with
    vmcs := vmwrites (exitFields e s) s.vmcs
    cpu := { s.cpu with
      regs := Function.update (Function.update s.cpu.regs .rsp (s.vmcs vmcsHostRsp)) .rip
        (s.vmcs vmcsHostRip)
      rflags := 2#64
      fsBase := s.vmcs vmcsHostFsBase
      -- every exit clears `IA32_DEBUGCTL`
      msr := Function.update (withSysenter s.cpu.msr (s.vmcs vmcsHostSysenterCs)
        (s.vmcs vmcsHostSysenterEsp) (s.vmcs vmcsHostSysenterEip)) msrIa32Debugctl 0#64 } }

/-- the MSRs after an entry -/
def entryMsr (vmcs : ℕ → BitVec 64) (msr : BitVec 32 → BitVec 64) : BitVec 32 → BitVec 64 :=
  Function.update (withSysenter msr (vmcs vmcsGuestSysenterCs) (vmcs vmcsGuestSysenterEsp)
    (vmcs vmcsGuestSysenterEip)) msrIa32Debugctl
    (if loadsDebugctl vmcs then vmcsDebugctl vmcs else msr msrIa32Debugctl)

/-- the fields it takes them from -/
def entryMsrFields : List ℕ :=
  [vmcsVmEntryControls, vmcsGuestSysenterCs, vmcsGuestSysenterEsp, vmcsGuestSysenterEip,
    vmcsGuestIa32Debugctl, vmcsGuestIa32DebugctlHigh]

theorem entryMsr_congr {vmcs vmcs' : ℕ → BitVec 64} (h : ∀ f ∈ entryMsrFields, vmcs' f = vmcs f)
    (msr : BitVec 32 → BitVec 64) : entryMsr vmcs' msr = entryMsr vmcs msr := by
  simp only [entryMsrFields, List.forall_mem_cons, List.not_mem_nil, false_implies, implies_true,
    and_true] at h
  obtain ⟨hcontrols, hcs, hesp, heip, hlow, hhigh⟩ := h
  have hloads : loadsDebugctl vmcs' = loadsDebugctl vmcs := congrArg (·.getLsbD 2) hcontrols
  have hdebugctl : vmcsDebugctl vmcs' = vmcsDebugctl vmcs := by
    rw [vmcsDebugctl, hlow, hhigh, vmcsDebugctl]
  rw [entryMsr, hcs, hesp, heip, hloads, hdebugctl, entryMsr]

def vmEntry (s : Machine) : Machine :=
  { s with
    cpu := { s.cpu with
      regs := Function.update (Function.update s.cpu.regs .rsp (s.vmcs vmcsGuestRsp)) .rip
        (s.vmcs vmcsGuestRip)
      rflags := s.vmcs vmcsGuestRflags
      fsBase := s.vmcs vmcsGuestFsBase
      msr := entryMsr s.vmcs s.cpu.msr } }

theorem vmExit_field {e : ExitInfo} {s : Machine} {field : ℕ} {v : BitVec 64}
    (h : (field, v) ∈ exitFields e s) : (vmExit e s).vmcs field = v :=
  vmwrites_of_mem _ _ (List.nodup_iff_count_le_one.mp
    (by simp only [exitFields, List.map_cons, List.map_nil]; decide) field) h

theorem vmExit_field_kept {e : ExitInfo} {s : Machine} {field : ℕ}
    (h : field ∉ (exitFields e s).map Prod.fst) : (vmExit e s).vmcs field = s.vmcs field :=
  vmwrites_of_not_mem _ _ _ h

/-- **the host reads what the processor said** -/
theorem exitInfo_vmExit (e : ExitInfo) (s : Machine) : exitInfo (vmExit e s).vmcs = e := by
  have h1 : (vmExit e s).vmcs vmcsVmExitReason = e.exitReason := vmExit_field (by simp [exitFields])
  have h2 : (vmExit e s).vmcs vmcsVmExitInstructionLen = e.len := vmExit_field (by simp [exitFields])
  have h3 : (vmExit e s).vmcs vmcsGuestPhysicalAddress = e.gpa := vmExit_field (by simp [exitFields])
  rw [exitInfo, h1, h2, h3]

/-! ## `IA32_DEBUGCTL` -/

/-- what an exit and the entry after it put into `IA32_DEBUGCTL`, if they do not keep it -/
def exitDebugctl (vmcs : ℕ → BitVec 64) : Option (BitVec 64) :=
  if loadsDebugctl vmcs then if savesDebugctl vmcs then none else some (vmcsDebugctl vmcs)
  else some 0#64

/-- the fields that decide it -/
def exitDebugctlFields : List ℕ :=
  [vmcsVmExitControls, vmcsVmEntryControls, vmcsGuestIa32Debugctl, vmcsGuestIa32DebugctlHigh]

theorem exitDebugctl_congr {vmcs vmcs' : ℕ → BitVec 64}
    (h : ∀ f ∈ exitDebugctlFields, vmcs' f = vmcs f) : exitDebugctl vmcs' = exitDebugctl vmcs := by
  simp only [exitDebugctlFields, List.forall_mem_cons, List.not_mem_nil, false_implies, implies_true,
    and_true] at h
  obtain ⟨hexit, hentry, hlow, hhigh⟩ := h
  have hsaves : savesDebugctl vmcs' = savesDebugctl vmcs := congrArg (·.getLsbD 2) hexit
  have hloads : loadsDebugctl vmcs' = loadsDebugctl vmcs := congrArg (·.getLsbD 2) hentry
  have hdebugctl : vmcsDebugctl vmcs' = vmcsDebugctl vmcs := by
    rw [vmcsDebugctl, hlow, hhigh, vmcsDebugctl]
  rw [exitDebugctl, hloads, hsaves, hdebugctl, exitDebugctl]

section
variable {e : ExitInfo} {s : Machine}

theorem vmExit_savesDebugctl : savesDebugctl (vmExit e s).vmcs = savesDebugctl s.vmcs := by
  rw [savesDebugctl,
    vmExit_field_kept (by simp only [exitFields, List.map_cons, List.map_nil]; decide), savesDebugctl]

theorem vmExit_loadsDebugctl : loadsDebugctl (vmExit e s).vmcs = loadsDebugctl s.vmcs := by
  rw [loadsDebugctl,
    vmExit_field_kept (by simp only [exitFields, List.map_cons, List.map_nil]; decide), loadsDebugctl]

theorem vmExit_debugctl : vmcsDebugctl (vmExit e s).vmcs
    = if savesDebugctl s.vmcs then s.cpu.msr msrIa32Debugctl else vmcsDebugctl s.vmcs := by
  have hlow : (vmExit e s).vmcs vmcsGuestIa32Debugctl = (savedDebugctl s).1 :=
    vmExit_field (by simp [exitFields])
  have hhigh : (vmExit e s).vmcs vmcsGuestIa32DebugctlHigh = (savedDebugctl s).2 :=
    vmExit_field (by simp [exitFields])
  rw [vmcsDebugctl, hlow, hhigh, savedDebugctl]
  split
  · exact Bits.halves_or _
  · rfl

/-- **after the entry `IA32_DEBUGCTL` is what it was, or always the same** -/
theorem entryMsr_debugctl :
    (if loadsDebugctl s.vmcs then vmcsDebugctl (vmExit e s).vmcs else 0#64)
      = (exitDebugctl s.vmcs).getD (s.cpu.msr msrIa32Debugctl) := by
  rw [vmExit_debugctl, exitDebugctl]
  split
  · split
    · rfl
    · rfl
  · rfl

theorem vmExit_exitDebugctl : exitDebugctl (vmExit e s).vmcs = exitDebugctl s.vmcs := by
  rw [exitDebugctl, vmExit_loadsDebugctl, vmExit_savesDebugctl, vmExit_debugctl, exitDebugctl]
  split
  · split
    · rfl
    · rfl
  · rfl

end

end HyperC
