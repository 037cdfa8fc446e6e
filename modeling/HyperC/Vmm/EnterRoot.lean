import HyperC.Machine.Vmx
import HyperC.Vmm.DataLayout

/-!
# `vmm.c`: entering VMX root operation, and launching

* `enterVmxRoot`, `launchVm`, `getDefaultBits`   the functions;
* `keeps_enterVmxRoot`   memory changes in the two VMX regions only.

An `int` condition of the source is a number here, `!x` is `cNot x`, and `BIT_N(value, n)` is the
text the macro expands to.
-/

namespace HyperC
open Code

def cNot (x : ℕ) : ℕ := if x = 0 then 1 else 0

def bitN (value : BitVec 64) (n : ℕ) : BitVec 64 := (value &&& 1#64 <<< n) >>> n

def VmxErrorCode.toNat : VmxErrorCode → ℕ
  | .vmSuccess => 0
  | .vmFailInvalid => 1
  | .vmFailValid => 2

def cr4VmxEnable : BitVec 64 := 1#64 <<< 13
def cr0NeEnable : BitVec 64 := 1#64 <<< 5
def ia32FeatureControlLockBit : BitVec 32 := 1#32 <<< 0
def ia32FeatureControlEnableVmxonInsideSmx : BitVec 32 := 1#32 <<< 1
def ia32FeatureControlEnableVmxonOutsideSmx : BitVec 32 := 1#32 <<< 2
def ia32DebugctlDefault0 : BitVec 64 := 0xffc3#64

/-- the part of `enter_vmx_root` that makes sure `vmxon` is allowed -/
def enableVmxon : Host Unit := do
  -- an `int`, so the upper half of the MSR is lost here
  let featureControlMsr := (← readMsr msrIa32FeatureControl).setWidth 32
  if featureControlMsr &&& ia32FeatureControlLockBit ≠ 0#32 then
    if featureControlMsr &&& ia32FeatureControlEnableVmxonInsideSmx ≠ 0#32 then
      logInfo "support of vmxon inside smx operation" []
    else if featureControlMsr &&& ia32FeatureControlEnableVmxonOutsideSmx ≠ 0#32 then
      logInfo "support of vmxon outside smx operation" []
    else panic "no support for vmxon instruction" []
  else
    -- and it is sign-extended back to a `qword_t`
    writeMsr msrIa32FeatureControl ((featureControlMsr ||| ia32FeatureControlLockBit |||
      ia32FeatureControlEnableVmxonInsideSmx ||| ia32FeatureControlEnableVmxonOutsideSmx).signExtend 64)
    logInfo "support of vmxon inside and outside of smx operation" []

/-- the part that executes the VMX instructions -/
def startVmx (u : VmxUnit) (cpuData : ℕ) : Host Unit := do
  storeDword (CpuData.vmxonRegion cpuData) ((← readMsr msrIa32VmxBasic).setWidth 32)
  storeDword (CpuData.vmcs cpuData) ((← readMsr msrIa32VmxBasic).setWidth 32)
  let r ← vmxon u (CpuData.vmxonRegion cpuData)
  assertNot (cNot r.toNat = VmxErrorCode.vmSuccess.toNat)
    "vmxon((void *)cpu_data->vmxon_region) == VM_SUCCESS"
  let r ← vmclear u (CpuData.vmcs cpuData)
  assertNot (cNot r.toNat = VmxErrorCode.vmSuccess.toNat)
    "vmclear((void *)cpu_data->vmcs) == VM_SUCCESS"
  let r ← vmptrld u (CpuData.vmcs cpuData)
  assertNot (cNot r.toNat = VmxErrorCode.vmSuccess.toNat)
    "vmptrld((void *)cpu_data->vmcs) == VM_SUCCESS"
  logInfo "entered VMX-root operation" []

def enterVmxRoot (u : VmxUnit) (cpuData : ℕ) : Host Unit := do
  writeCr0 (((← readCr0) ||| cr0NeEnable ||| (← readMsr msrIa32VmxCr0Fixed0)) &&&
    (← readMsr msrIa32VmxCr0Fixed1))
  writeCr4 (((← readCr4) ||| cr4VmxEnable ||| (← readMsr msrIa32VmxCr4Fixed0)) &&&
    (← readMsr msrIa32VmxCr4Fixed1))
  enableVmxon
  writeMsr msrIa32Debugctl ((← readMsr msrIa32Debugctl) &&& ia32DebugctlDefault0)
  writeDr7 ((← readDr7) &&& 0xffffffff#64)
  startVmx u cpuData

def getDefaultBits (defaultBitsMsr trueDefaultBitsMsr : BitVec 32) : Host (BitVec 32) := do
  let default1 := ((← readMsr defaultBitsMsr) &&& 0xffffffff#64).setWidth 32
  let default0 := ((← readMsr defaultBitsMsr) >>> 32).setWidth 32
  if bitN (← readMsr msrIa32VmxBasic) 55 ≠ 0#64 then
    let default1 := ((← readMsr trueDefaultBitsMsr) &&& 0xffffffff#64).setWidth 32
    let default0 := ((← readMsr trueDefaultBitsMsr) >>> 32).setWidth 32
    return default1 &&& default0
  else return default1 &&& default0

/-- the bits `get_default_bits` computes -/
def defaultBits (msr : BitVec 32 → BitVec 64) (defaultBitsMsr trueDefaultBitsMsr : BitVec 32) :
    BitVec 32 :=
  let v := if bitN (msr msrIa32VmxBasic) 55 ≠ 0#64 then msr trueDefaultBitsMsr else msr defaultBitsMsr
  (v &&& 0xffffffff#64).setWidth 32 &&& (v >>> 32).setWidth 32

theorem getDefaultBits_run (a b : BitVec 32) (s : Machine) :
    (getDefaultBits a b).run s = .ret (defaultBits s.cpu.msr a b) s := by
  unfold getDefaultBits defaultBits
  simp only [run_bind, run_readMsr, run_ite]
  by_cases h : bitN (s.cpu.msr msrIa32VmxBasic) 55 ≠ 0#64
  · rw [if_pos h, if_pos h, run_pure]
  · rw [if_neg h, if_neg h, run_pure]

def checkVmInstructionError : Host (BitVec 64) := vmread vmcsVmInstructionError

def launchVm (u : VmxUnit) : Host Unit := do
  logInfo "Launching the VM" []
  -- a launch that succeeds does not come back
  match u.launchFails (← gets id) with
  | none => leave vmEntry
  | some vmcs =>
    modify fun s => { s with vmcs := vmcs }
    panic "VM launch faild, VM-instruction error: %s"
      [.str (vmInstructionErrorString (← checkVmInstructionError).toNat)]

/-! ## what entering writes -/

theorem keeps_enableVmxon (x : ℕ) : Keeps (byteAt x) enableVmxon := by
  unfold enableVmxon
  refine keeps_then x (fun _ => rfl) fun v => Keeps.ite (Keeps.ite ?_ (Keeps.ite ?_ ?_)) ?_
  · exact keeps_of_mem x fun _ => rfl
  · exact keeps_of_mem x fun _ => rfl
  · exact keeps_of_mem x fun _ => rfl
  · exact keeps_then x (fun _ => rfl) fun _ => keeps_of_mem x fun _ => rfl

theorem keeps_vmxInstr (u : VmxUnit) (op : VmxOp) (region x : ℕ)
    (h : x < region ∨ region + 4096 ≤ x) : Keeps (byteAt x) (vmxInstr u op region) := by
  intro s
  rw [run_vmxInstr]
  split
  · rfl
  · exact u.exec_outside op region s x h

section
variable (u : VmxUnit) (p x : ℕ)

theorem keeps_startVmx (h : x < p ∨ p + 0x2000 ≤ x) : Keeps (byteAt x) (startVmx u p) := by
  have hon : x < CpuData.vmxonRegion p ∨ CpuData.vmxonRegion p + 4096 ≤ x := by
    rw [CpuData.vmxonRegion_eq]
    omega
  have hvmcs : x < CpuData.vmcs p ∨ CpuData.vmcs p + 4096 ≤ x := by
    rw [CpuData.vmcs_eq]
    omega
  unfold startVmx
  refine keeps_then x (fun _ => rfl) fun _ => (keeps_storeDword x _ _ (by omega)).bind fun _ => ?_
  refine keeps_then x (fun _ => rfl) fun _ => (keeps_storeDword x _ _ (by omega)).bind fun _ => ?_
  refine (keeps_vmxInstr u .vmxon _ x hon).bind fun _ => (keeps_assertNot x _ _).bind fun _ => ?_
  refine (keeps_vmxInstr u .vmclear _ x hvmcs).bind fun _ => (keeps_assertNot x _ _).bind fun _ => ?_
  refine (keeps_vmxInstr u .vmptrld _ x hvmcs).bind fun _ => (keeps_assertNot x _ _).bind fun _ => ?_
  exact keeps_of_mem x fun _ => rfl

/-- **`enter_vmx_root` writes to the two VMX regions only** -/
theorem keeps_enterVmxRoot (h : x < p ∨ p + 0x2000 ≤ x) : Keeps (byteAt x) (enterVmxRoot u p) := by
  unfold enterVmxRoot
  refine keeps_then x (fun _ => rfl) fun _ => keeps_then x (fun _ => rfl) fun _ => ?_
  refine keeps_then x (fun _ => rfl) fun _ => keeps_then x (fun _ => rfl) fun _ => ?_
  refine keeps_then x (fun _ => rfl) fun _ => keeps_then x (fun _ => rfl) fun _ => ?_
  refine keeps_then x (fun _ => rfl) fun _ => keeps_then x (fun _ => rfl) fun _ => ?_
  refine (keeps_enableVmxon x).bind fun _ => keeps_then x (fun _ => rfl) fun _ => ?_
  refine keeps_then x (fun _ => rfl) fun _ => keeps_then x (fun _ => rfl) fun _ => ?_
  exact keeps_then x (fun _ => rfl) fun _ => keeps_startVmx u p x h

end

/-! ## launching -/

theorem launchVm_inv {u : VmxUnit} {s s' : Machine} (h : (launchVm u).run s = .leave s') :
    ∃ log, s' = vmEntry { s with log := log } := by
  unfold launchVm at h
  rw [bind_of_ret (run_logInfo _ _ _), bind_of_ret (run_gets _ _)] at h
  split at h
  · exact ⟨_, (Outcome.leave.inj h).symm⟩
  · cases h

theorem launchVm_leaves {u : VmxUnit} {s : Machine}
    (hu : ∀ log, u.launchFails { s with log := log } = none) :
    ∃ log, (launchVm u).run s = .leave (vmEntry { s with log := log }) := by
  unfold launchVm
  rw [bind_of_ret (run_logInfo _ _ _), bind_of_ret (run_gets _ _)]
  simp only [id, hu]
  exact ⟨_, rfl⟩

end HyperC
