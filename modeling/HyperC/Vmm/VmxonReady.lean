import HyperC.Lib.Masks
import HyperC.Vmm.EnterRoot

/-!
# What `vmxon` needs

Outside SMX operation `vmxon` asks that the control registers hold every fixed bit and no forbidden
one, that `CR4.VMXE` is set, that `IA32_FEATURE_CONTROL` is locked with `vmxon` enabled outside SMX,
and that the region starts with the revision identifier.

* `beforeVmxon`, `enterVmxRoot_split`   `enter_vmx_root` up to `vmxon`;
* `VmxonReady`          the conditions;
* `enableVmxon_unlocked`, `enableVmxon_locked`, `enableVmxon_stops`   the three ways through the
                        test of `IA32_FEATURE_CONTROL`;
* `beforeVmxon_ready`, `beforeVmxon_stops`, `beforeVmxon_insideOnly`   what they mean for `vmxon`;
* `vmxon_ready_iff`     `vmxon` is reached in a state that allows it, or not at all, exactly if the MSR
                        is not locked with `vmxon` enabled inside SMX alone;
* `enterVmxRoot_returns`, `enterVmxRoot_halts`   on a processor that obeys the conditions the host gets
                        through exactly if the MSR is not locked, or locked with `vmxon` enabled
                        outside SMX.
-/

namespace HyperC
open Code Masks

def beforeVmxon (cpuData : ℕ) : Host Unit := do
  writeCr0 (((← readCr0) ||| cr0NeEnable ||| (← readMsr msrIa32VmxCr0Fixed0)) &&&
    (← readMsr msrIa32VmxCr0Fixed1))
  writeCr4 (((← readCr4) ||| cr4VmxEnable ||| (← readMsr msrIa32VmxCr4Fixed0)) &&&
    (← readMsr msrIa32VmxCr4Fixed1))
  enableVmxon
  writeMsr msrIa32Debugctl ((← readMsr msrIa32Debugctl) &&& ia32DebugctlDefault0)
  writeDr7 ((← readDr7) &&& 0xffffffff#64)
  storeDword (CpuData.vmxonRegion cpuData) ((← readMsr msrIa32VmxBasic).setWidth 32)
  storeDword (CpuData.vmcs cpuData) ((← readMsr msrIa32VmxBasic).setWidth 32)

def fromVmxon (u : VmxUnit) (cpuData : ℕ) : Host Unit := do
  let r ← vmxon u (CpuData.vmxonRegion cpuData)
  assertNot (cNot r.toNat = VmxErrorCode.vmSuccess.toNat)
    "vmxon((void *)cpu_data->vmxon_region) == VM_SUCCESS"
  let r ← vmclear u (CpuData.vmcs cpuData)
  assertNot (cNot r.toNat = VmxErrorCode.vmSuccess.toNat)
    "vmclear((void *)cpu_data->vmcs) == VM_SUCCESS"
  let r ← vmptrld u (CpuData.vmcs cpuData)
  assertNot (cNot r.toNat = VmxErrorCode.vmSuccess.toNat)
    "vmptrld((void *)cpu_data->vmcs) == VM_SUCCESS"
  logInfo "entered VMX-root operation" []

/-- **`enter_vmx_root` is its two parts** -/
theorem enterVmxRoot_split (u : VmxUnit) (p : ℕ) :
    enterVmxRoot u p = (beforeVmxon p >>= fun _ => fromVmxon u p) := by
  simp only [enterVmxRoot, startVmx, beforeVmxon, fromVmxon, bind_assoc]

/-- the conditions of `vmxon` outside SMX operation, in the state `s` -/
structure VmxonReady (p : ℕ) (s : Machine) : Prop where
  cr0Fixed0 : SubMask (s.cpu.msr msrIa32VmxCr0Fixed0) s.cpu.cr0
  cr0Fixed1 : SubMask s.cpu.cr0 (s.cpu.msr msrIa32VmxCr0Fixed1)
  cr4Fixed0 : SubMask (s.cpu.msr msrIa32VmxCr4Fixed0) s.cpu.cr4
  cr4Fixed1 : SubMask s.cpu.cr4 (s.cpu.msr msrIa32VmxCr4Fixed1)
  vmxe : s.cpu.cr4.getLsbD 13 = true
  locked : (s.cpu.msr msrIa32FeatureControl).getLsbD 0 = true
  outside : (s.cpu.msr msrIa32FeatureControl).getLsbD 2 = true
  revision : s.mem.load (CpuData.vmxonRegion p) 4 = (s.cpu.msr msrIa32VmxBasic).setWidth 32

/-- the fixed bits are consistent, and permit `CR0.NE` and `CR4.VMXE` -/
structure FixedBits (msr : BitVec 32 → BitVec 64) : Prop where
  cr0 : SubMask (msr msrIa32VmxCr0Fixed0) (msr msrIa32VmxCr0Fixed1)
  cr4 : SubMask (msr msrIa32VmxCr4Fixed0) (msr msrIa32VmxCr4Fixed1)
  ne : SubMask cr0NeEnable (msr msrIa32VmxCr0Fixed1)
  vmxe : SubMask cr4VmxEnable (msr msrIa32VmxCr4Fixed1)

theorem FixedBits.congr {msr msr' : BitVec 32 → BitVec 64} (h : FixedBits msr)
    (hmsr : ∀ r ∈ [msrIa32VmxCr0Fixed0, msrIa32VmxCr0Fixed1, msrIa32VmxCr4Fixed0, msrIa32VmxCr4Fixed1],
      msr' r = msr r) : FixedBits msr' := by
  simp only [List.forall_mem_cons, List.not_mem_nil, false_implies, implies_true, and_true] at hmsr
  obtain ⟨h1, h2, h3, h4⟩ := hmsr
  obtain ⟨hcr0, hcr4, hne, hvmxe⟩ := h
  rw [← h1, ← h2] at hcr0
  rw [← h3, ← h4] at hcr4
  rw [← h2] at hne
  rw [← h4] at hvmxe
  exact ⟨hcr0, hcr4, hne, hvmxe⟩

/-- locked with `vmxon` enabled inside SMX, and not outside -/
def InsideOnly (featureControl : BitVec 64) : Prop :=
  featureControl.getLsbD 0 = true ∧ featureControl.getLsbD 1 = true ∧ featureControl.getLsbD 2 = false

/-- `vmxon` is reached in a state that allows it, or the host stops before -/
def VmxonGuarded (p : ℕ) (s : Machine) : Prop :=
  (∃ s₁, (beforeVmxon p).run s = .ret () s₁ ∧ VmxonReady p s₁) ∨
    ∃ s₁, (beforeVmxon p).run s = .halt s₁ ∧ ∀ u, (enterVmxRoot u p).run s = .halt s₁

/-! ## the test of `IA32_FEATURE_CONTROL` -/

section
variable (s : Machine)

def enabledControl (featureControl : BitVec 64) : BitVec 64 :=
  (featureControl.setWidth 32 ||| ia32FeatureControlLockBit ||| ia32FeatureControlEnableVmxonInsideSmx
    ||| ia32FeatureControlEnableVmxonOutsideSmx).signExtend 64

theorem enabledControl_lock (v : BitVec 64) : (enabledControl v).getLsbD 0 = true := by
  unfold enabledControl
  rw [BitVec.getLsbD_signExtend]
  simp [ia32FeatureControlLockBit]

theorem enabledControl_outside (v : BitVec 64) : (enabledControl v).getLsbD 2 = true := by
  unfold enabledControl
  rw [BitVec.getLsbD_signExtend]
  simp [ia32FeatureControlEnableVmxonOutsideSmx]

/-- the machine with other MSRs, and a log -/
def withMsr (msr : BitVec 32 → BitVec 64) (log : List LogLine) : Machine :=
  { s with
    cpu := { s.cpu with msr := msr }
    log := log }

theorem featureControl_test {mask : BitVec 32} {k : ℕ} (hmask : mask = 1#32 <<< k) (hk : k < 32) :
    (s.cpu.msr msrIa32FeatureControl).setWidth 32 &&& mask ≠ 0#32 ↔
      (s.cpu.msr msrIa32FeatureControl).getLsbD k = true := by
  rw [hmask, and_bit_ne_zero _ hk, BitVec.getLsbD_setWidth]
  simp [hk]

theorem test_lock : (s.cpu.msr msrIa32FeatureControl).setWidth 32 &&& ia32FeatureControlLockBit
    ≠ 0#32 ↔ (s.cpu.msr msrIa32FeatureControl).getLsbD 0 = true :=
  featureControl_test s rfl (by omega)

theorem test_inside : (s.cpu.msr msrIa32FeatureControl).setWidth 32 &&&
    ia32FeatureControlEnableVmxonInsideSmx ≠ 0#32 ↔
      (s.cpu.msr msrIa32FeatureControl).getLsbD 1 = true :=
  featureControl_test s rfl (by omega)

theorem test_outside : (s.cpu.msr msrIa32FeatureControl).setWidth 32 &&&
    ia32FeatureControlEnableVmxonOutsideSmx ≠ 0#32 ↔
      (s.cpu.msr msrIa32FeatureControl).getLsbD 2 = true :=
  featureControl_test s rfl (by omega)

theorem enableVmxon_unlocked (h0 : ¬ (s.cpu.msr msrIa32FeatureControl).getLsbD 0 = true) :
    ∃ log, enableVmxon.run s
      = .ret () (withMsr s (Function.update s.cpu.msr msrIa32FeatureControl
        (enabledControl (s.cpu.msr msrIa32FeatureControl))) log) := by
  unfold enableVmxon
  rw [bind_of_ret (run_readMsr _ _)]
  rw [if_neg ((test_lock s).not.mpr h0)]
  exact ⟨_, bind_of_ret (run_writeMsr _ _ _) _⟩

theorem enableVmxon_locked (h0 : (s.cpu.msr msrIa32FeatureControl).getLsbD 0 = true)
    (h : (s.cpu.msr msrIa32FeatureControl).getLsbD 1 = true ∨
      (s.cpu.msr msrIa32FeatureControl).getLsbD 2 = true) :
    ∃ log, enableVmxon.run s = .ret () (withMsr s s.cpu.msr log) := by
  unfold enableVmxon
  rw [bind_of_ret (run_readMsr _ _)]
  rw [if_pos ((test_lock s).mpr h0)]
  by_cases h1 : (s.cpu.msr msrIa32FeatureControl).getLsbD 1 = true
  · rw [if_pos ((test_inside s).mpr h1)]
    exact ⟨_, rfl⟩
  · rw [if_neg ((test_inside s).not.mpr h1), if_pos ((test_outside s).mpr (h.resolve_left h1))]
    exact ⟨_, rfl⟩

theorem enableVmxon_stops (h0 : (s.cpu.msr msrIa32FeatureControl).getLsbD 0 = true)
    (h1 : ¬ (s.cpu.msr msrIa32FeatureControl).getLsbD 1 = true)
    (h2 : ¬ (s.cpu.msr msrIa32FeatureControl).getLsbD 2 = true) :
    ∃ t, enableVmxon.run s = .halt t := by
  unfold enableVmxon
  rw [bind_of_ret (run_readMsr _ _)]
  rw [if_pos ((test_lock s).mpr h0), if_neg ((test_inside s).not.mpr h1),
    if_neg ((test_outside s).not.mpr h2)]
  exact ⟨_, rfl⟩

end

/-! ## up to `vmxon` -/

section
variable (p : ℕ) (s : Machine)

/-- the machine with the control registers of `enter_vmx_root` -/
def withFixedBits : Machine :=
  { s with cpu := { s.cpu with
      cr0 := adjust (s.cpu.msr msrIa32VmxCr0Fixed0) (s.cpu.msr msrIa32VmxCr0Fixed1)
        (s.cpu.cr0 ||| cr0NeEnable)
      cr4 := adjust (s.cpu.msr msrIa32VmxCr4Fixed0) (s.cpu.msr msrIa32VmxCr4Fixed1)
        (s.cpu.cr4 ||| cr4VmxEnable) } }

/-- the machine `vmxon` finds, if `t` is what the test of the MSR left -/
def prepared (t : Machine) : Machine :=
  { t with
    cpu := { t.cpu with
      msr := Function.update t.cpu.msr msrIa32Debugctl
        (t.cpu.msr msrIa32Debugctl &&& ia32DebugctlDefault0)
      dr7 := t.cpu.dr7 &&& 0xffffffff#64 }
    mem := @Mem.store (@Mem.store t.mem (CpuData.vmxonRegion p) 4
        ((t.cpu.msr msrIa32VmxBasic).setWidth 32)) (CpuData.vmcs p) 4
      ((t.cpu.msr msrIa32VmxBasic).setWidth 32) }

theorem beforeVmxon_ret {t : Machine} (h : enableVmxon.run (withFixedBits s) = .ret () t) :
    (beforeVmxon p).run s = .ret () (prepared p t) := by
  have hbasic : Function.update t.cpu.msr msrIa32Debugctl
      (t.cpu.msr msrIa32Debugctl &&& ia32DebugctlDefault0) msrIa32VmxBasic
      = t.cpu.msr msrIa32VmxBasic := Function.update_of_ne (by decide) _ _
  unfold beforeVmxon readCr0 readCr4 readDr7 writeCr0 writeCr4 writeDr7
  rw [bind_of_ret (run_gets _ _), bind_of_ret (run_readMsr _ _), bind_of_ret (run_readMsr _ _),
    bind_of_ret (run_modify _ _), bind_of_ret (run_gets _ _), bind_of_ret (run_readMsr _ _),
    bind_of_ret (run_readMsr _ _), bind_of_ret (run_modify _ _)]
  refine (bind_of_ret h _).trans ?_
  rw [bind_of_ret (run_readMsr _ _), bind_of_ret (run_writeMsr _ _ _), bind_of_ret (run_gets _ _),
    bind_of_ret (run_modify _ _), bind_of_ret (run_readMsr _ _)]
  unfold storeDword
  rw [bind_of_ret (run_modifyMem _ _), bind_of_ret (run_readMsr _ _), run_modifyMem]
  simp only [hbasic]
  rfl

theorem beforeVmxon_halt {t : Machine} (h : enableVmxon.run (withFixedBits s) = .halt t) :
    (beforeVmxon p).run s = .halt t := by
  unfold beforeVmxon readCr0 readCr4 writeCr0 writeCr4
  rw [bind_of_ret (run_gets _ _), bind_of_ret (run_readMsr _ _), bind_of_ret (run_readMsr _ _),
    bind_of_ret (run_modify _ _), bind_of_ret (run_gets _ _), bind_of_ret (run_readMsr _ _),
    bind_of_ret (run_readMsr _ _), bind_of_ret (run_modify _ _)]
  exact bind_of_halt h _

theorem prepared_msr (t : Machine) {r : BitVec 32} (hr : r ≠ msrIa32Debugctl) :
    (prepared p t).cpu.msr r = t.cpu.msr r :=
  Function.update_of_ne hr _ _

theorem ready_prepared {msr : BitVec 32 → BitVec 64} {log : List LogLine} (hf : FixedBits s.cpu.msr)
    (hmsr : ∀ r, r ≠ msrIa32FeatureControl → msr r = s.cpu.msr r)
    (h0 : (msr msrIa32FeatureControl).getLsbD 0 = true)
    (h2 : (msr msrIa32FeatureControl).getLsbD 2 = true) :
    VmxonReady p (prepared p (withMsr (withFixedBits s) msr log)) := by
  have hkept : ∀ r, r ≠ msrIa32Debugctl →
      (prepared p (withMsr (withFixedBits s) msr log)).cpu.msr r = msr r := fun _ hr =>
    prepared_msr p _ hr
  have hfixed : ∀ r, r ≠ msrIa32Debugctl → r ≠ msrIa32FeatureControl →
      (prepared p (withMsr (withFixedBits s) msr log)).cpu.msr r = s.cpu.msr r := fun r hr hr' =>
    (hkept r hr).trans (hmsr r hr')
  have hvmxe : SubMask cr4VmxEnable (withFixedBits s).cpu.cr4 := by
    refine requested_adjust (subMask_iff.mpr fun i hi => ?_) hf.vmxe
    rw [BitVec.getLsbD_or, hi, Bool.or_true]
  refine ⟨?_, ?_, ?_, ?_, sub_bit (by omega) hvmxe, ?_, ?_, ?_⟩
  · rw [hfixed _ (by decide) (by decide)]
    exact sub_adjust hf.cr0
  · rw [hfixed _ (by decide) (by decide)]
    exact adjust_sub
  · rw [hfixed _ (by decide) (by decide)]
    exact sub_adjust hf.cr4
  · rw [hfixed _ (by decide) (by decide)]
    exact adjust_sub
  · rw [hkept _ (by decide), h0]
  · rw [hkept _ (by decide), h2]
  · rw [hkept _ (by decide)]
    refine (Mem.load_store_disjoint _ _ _ _ (Or.inl ?_)).trans (Mem.load_store_same _ _ _)
    rw [CpuData.vmxonRegion_eq, CpuData.vmcs_eq]
    omega

end

/-- the firmware has not locked the MSR, or has locked it with `vmxon` enabled outside SMX -/
def VmxonAllowed (featureControl : BitVec 64) : Prop :=
  featureControl.getLsbD 0 = true → featureControl.getLsbD 2 = true

/-- the VMCS starts with the revision identifier -/
def Revised (p : ℕ) (s : Machine) : Prop :=
  s.mem.load (CpuData.vmcs p) 4 = (s.cpu.msr msrIa32VmxBasic).setWidth 32

theorem revised_prepared (p : ℕ) (t : Machine) : Revised p (prepared p t) := by
  rw [Revised, prepared_msr p t (by decide)]
  exact Mem.load_store_same _ _ _

/-- **where it is allowed, `vmxon` is reached in a state that it accepts** -/
theorem beforeVmxon_ready (p : ℕ) (s : Machine) (hf : FixedBits s.cpu.msr)
    (h : VmxonAllowed (s.cpu.msr msrIa32FeatureControl)) :
    ∃ s₁, (beforeVmxon p).run s = .ret () s₁ ∧ VmxonReady p s₁ ∧ Revised p s₁ := by
  by_cases h0 : (s.cpu.msr msrIa32FeatureControl).getLsbD 0 = true
  · obtain ⟨log, hrun⟩ := enableVmxon_locked (withFixedBits s) h0 (Or.inr (h h0))
    exact ⟨_, beforeVmxon_ret p s hrun, ready_prepared p s hf (fun _ _ => rfl) h0 (h h0),
      revised_prepared p _⟩
  · obtain ⟨log, hrun⟩ := enableVmxon_unlocked (withFixedBits s) h0
    refine ⟨_, beforeVmxon_ret p s hrun, ready_prepared p s hf (fun r hr => ?_) ?_ ?_,
      revised_prepared p _⟩
    · exact Function.update_of_ne hr _ _
    · rw [Function.update_self]
      exact enabledControl_lock _
    · rw [Function.update_self]
      exact enabledControl_outside _

/-- locked with neither bit, the host stops before -/
theorem beforeVmxon_stops (p : ℕ) (s : Machine) (h0 : (s.cpu.msr msrIa32FeatureControl).getLsbD 0 = true)
    (h1 : ¬ (s.cpu.msr msrIa32FeatureControl).getLsbD 1 = true)
    (h2 : ¬ (s.cpu.msr msrIa32FeatureControl).getLsbD 2 = true) :
    ∃ t, (beforeVmxon p).run s = .halt t := by
  obtain ⟨t, hrun⟩ := enableVmxon_stops (withFixedBits s) h0 h1 h2
  exact ⟨t, beforeVmxon_halt p s hrun⟩

/-- locked with `vmxon` enabled inside SMX alone, `vmxon` is reached in a state that it does not accept -/
theorem beforeVmxon_insideOnly (p : ℕ) (s : Machine) (h : InsideOnly (s.cpu.msr msrIa32FeatureControl)) :
    ∃ s₁, (beforeVmxon p).run s = .ret () s₁ ∧ ¬ VmxonReady p s₁ := by
  obtain ⟨h0, h1, h2⟩ := h
  obtain ⟨log, hrun⟩ := enableVmxon_locked (withFixedBits s) h0 (Or.inl h1)
  refine ⟨_, beforeVmxon_ret p s hrun, fun hready => ?_⟩
  have hout := hready.outside
  rw [prepared_msr p _ (by decide)] at hout
  exact absurd (hout.symm.trans h2) (by decide)

/-- **`vmxon` is guarded exactly if the MSR is not locked with `vmxon` enabled inside SMX alone** -/
theorem vmxon_ready_iff (p : ℕ) (s : Machine) (hf : FixedBits s.cpu.msr) :
    VmxonGuarded p s ↔ ¬ InsideOnly (s.cpu.msr msrIa32FeatureControl) := by
  constructor
  · intro hguard hinside
    obtain ⟨s₁', hbefore, hnot⟩ := beforeVmxon_insideOnly p s hinside
    rcases hguard with ⟨s₁, hs₁, hready⟩ | ⟨s₁, hs₁, -⟩
    · cases hbefore.symm.trans hs₁
      exact hnot hready
    · cases hbefore.symm.trans hs₁
  · intro h
    by_cases hallowed : VmxonAllowed (s.cpu.msr msrIa32FeatureControl)
    · obtain ⟨s₁, hs₁, hready, -⟩ := beforeVmxon_ready p s hf hallowed
      exact Or.inl ⟨s₁, hs₁, hready⟩
    · obtain ⟨h0, h2⟩ := Classical.not_imp.mp hallowed
      have h1 : ¬ (s.cpu.msr msrIa32FeatureControl).getLsbD 1 = true := fun h1 =>
        h ⟨h0, h1, Bool.eq_false_iff.mpr h2⟩
      obtain ⟨t, hbefore⟩ := beforeVmxon_stops p s h0 h1 h2
      refine Or.inr ⟨t, hbefore, fun u => ?_⟩
      rw [enterVmxRoot_split]
      exact bind_of_halt hbefore _

/-- a processor without fixed bits, with a given `IA32_FEATURE_CONTROL` -/
def freeMachine (featureControl : BitVec 64) : Machine :=
  { (default : Machine) with cpu := { (default : Cpu) with
      msr := fun r => if r = msrIa32FeatureControl then featureControl
        else if r = msrIa32VmxCr0Fixed1 ∨ r = msrIa32VmxCr4Fixed1 then BitVec.allOnes 64 else 0#64 } }

theorem freeMachine_fixed (v : BitVec 64) : FixedBits (freeMachine v).cpu.msr := by
  have h0 : (freeMachine v).cpu.msr msrIa32VmxCr0Fixed1 = BitVec.allOnes 64 := rfl
  have h4 : (freeMachine v).cpu.msr msrIa32VmxCr4Fixed1 = BitVec.allOnes 64 := rfl
  refine ⟨?_, ?_, ?_, ?_⟩
  · rw [h0]
    exact subMask_allOnes _
  · rw [h4]
    exact subMask_allOnes _
  · rw [h0]
    exact subMask_allOnes _
  · rw [h4]
    exact subMask_allOnes _

theorem vmxon_ready_iff_outside :
    VmxonGuarded cpuDataAddress (freeMachine 5#64) ↔
      ¬ InsideOnly ((freeMachine 5#64).cpu.msr msrIa32FeatureControl) :=
  vmxon_ready_iff cpuDataAddress (freeMachine 5#64) (freeMachine_fixed _)

/-- **locked with `vmxon` enabled inside SMX alone, the host goes on to a `vmxon` that faults** -/
theorem vmxon_inside_only : ¬ ∀ (p : ℕ) (s : Machine), FixedBits s.cpu.msr → VmxonGuarded p s := by
  intro hall
  obtain ⟨s₁', hbefore, hnot⟩ := beforeVmxon_insideOnly cpuDataAddress (freeMachine 3#64)
    ⟨by decide, by decide, by decide⟩
  rcases hall cpuDataAddress (freeMachine 3#64) (freeMachine_fixed _) with
    ⟨s₁, hs₁, hready⟩ | ⟨s₁, hs₁, -⟩
  · cases hbefore.symm.trans hs₁
    exact hnot hready
  · cases hbefore.symm.trans hs₁

/-! ## the whole of `enter_vmx_root` -/

/-- the instruction does not fault, and reports success -/
def VmxUnit.Does (u : VmxUnit) (op : VmxOp) (region : ℕ) (s : Machine) : Prop :=
  u.faults op region s = false ∧ vmxErrorOf (u.exec op region s).1 = .vmSuccess

/-- what the three instructions need: outside VMX operation `vmxon` succeeds exactly where its conditions
hold, and the other two after it, if the VMCS starts with the revision identifier -/
structure VmxUnit.Succeeds (u : VmxUnit) (p : ℕ) : Prop where
  vmxon : ∀ s, u.Does .vmxon (CpuData.vmxonRegion p) s ↔ VmxonReady p s
  vmclear : ∀ s, VmxonReady p s → Revised p s →
    u.Does .vmclear (CpuData.vmcs p) (u.after .vmxon (CpuData.vmxonRegion p) s)
  vmptrld : ∀ s, VmxonReady p s → Revised p s → u.Does .vmptrld (CpuData.vmcs p)
    (u.after .vmclear (CpuData.vmcs p) (u.after .vmxon (CpuData.vmxonRegion p) s))

section
variable {u : VmxUnit} {op : VmxOp} {region p : ℕ} {s s' : Machine}

theorem VmxUnit.Does.run (h : u.Does op region s) :
    (vmxInstr u op region).run s = .ret .vmSuccess (u.after op region s) := by
  rw [run_vmxInstr, if_neg (by rw [h.1]; decide), h.2]

/-- **an instruction that does not succeed stops the host**: it faults, or the assertion fails -/
theorem halts_of_not_does (text : String) (h : ¬ u.Does op region s) : ∃ t, (do
    let r ← vmxInstr u op region
    assertNot (cNot r.toNat = VmxErrorCode.vmSuccess.toNat) text).run s = .halt t := by
  by_cases hfaults : u.faults op region s = true
  · exact ⟨s, bind_of_halt (by rw [run_vmxInstr, if_pos hfaults]) _⟩
  · have hrun : (vmxInstr u op region).run s
        = .ret (vmxErrorOf (u.exec op region s).1) (u.after op region s) := by
      rw [run_vmxInstr, if_neg hfaults]
    rw [bind_of_ret hrun]
    refine assertNot_stops ?_ _ _
    cases hcode : vmxErrorOf (u.exec op region s).1 with
    | vmSuccess => exact absurd ⟨Bool.eq_false_iff.mpr hfaults, hcode⟩ h
    | _ => decide

theorem fromVmxon_returns (hu : u.Succeeds p) (h : VmxonReady p s) (hr : Revised p s) :
    ∃ s', (fromVmxon u p).run s = .ret () s' := by
  have hcode : ¬ cNot VmxErrorCode.vmSuccess.toNat = VmxErrorCode.vmSuccess.toNat := by decide
  unfold fromVmxon vmxon vmclear vmptrld
  rw [bind_of_ret ((hu.vmxon s).mpr h).run, bind_of_ret (assertNot_pass hcode _ _),
    bind_of_ret (hu.vmclear s h hr).run, bind_of_ret (assertNot_pass hcode _ _),
    bind_of_ret (hu.vmptrld s h hr).run, bind_of_ret (assertNot_pass hcode _ _)]
  exact ⟨_, rfl⟩

theorem fromVmxon_halts (hu : u.Succeeds p) (h : ¬ VmxonReady p s) :
    ∃ t, (fromVmxon u p).run s = .halt t := by
  obtain ⟨t, ht⟩ := halts_of_not_does "vmxon((void *)cpu_data->vmxon_region) == VM_SUCCESS"
    ((hu.vmxon s).not.mpr h)
  unfold fromVmxon vmxon
  rw [← bind_assoc]
  exact ⟨t, bind_of_halt ht _⟩

/-- **the host enters VMX root operation** where the firmware lets it -/
theorem enterVmxRoot_returns (hu : u.Succeeds p) (hf : FixedBits s.cpu.msr)
    (h : VmxonAllowed (s.cpu.msr msrIa32FeatureControl)) :
    ∃ s', (enterVmxRoot u p).run s = .ret () s' := by
  obtain ⟨s₁, hbefore, hready, hrevised⟩ := beforeVmxon_ready p s hf h
  rw [enterVmxRoot_split, bind_of_ret hbefore]
  exact fromVmxon_returns hu hready hrevised

/-- **and stops** where it does not: at its own test, or at `vmxon` -/
theorem enterVmxRoot_halts (hu : u.Succeeds p) (h : ¬ VmxonAllowed (s.cpu.msr msrIa32FeatureControl)) :
    ∃ t, (enterVmxRoot u p).run s = .halt t := by
  obtain ⟨h0, h2⟩ := Classical.not_imp.mp h
  rw [enterVmxRoot_split]
  by_cases h1 : (s.cpu.msr msrIa32FeatureControl).getLsbD 1 = true
  · obtain ⟨s₁, hbefore, hnot⟩ := beforeVmxon_insideOnly p s ⟨h0, h1, Bool.eq_false_iff.mpr h2⟩
    rw [bind_of_ret hbefore]
    exact fromVmxon_halts hu hnot
  · obtain ⟨t, hbefore⟩ := beforeVmxon_stops p s h0 h1 h2
    exact ⟨t, bind_of_halt hbefore _⟩

end

/-- the conditions of `vmxon`, decided -/
instance (p : ℕ) (s : Machine) : Decidable (VmxonReady p s) :=
  decidable_of_iff (SubMask (s.cpu.msr msrIa32VmxCr0Fixed0) s.cpu.cr0 ∧
    SubMask s.cpu.cr0 (s.cpu.msr msrIa32VmxCr0Fixed1) ∧
    SubMask (s.cpu.msr msrIa32VmxCr4Fixed0) s.cpu.cr4 ∧
    SubMask s.cpu.cr4 (s.cpu.msr msrIa32VmxCr4Fixed1) ∧ s.cpu.cr4.getLsbD 13 = true ∧
    (s.cpu.msr msrIa32FeatureControl).getLsbD 0 = true ∧
    (s.cpu.msr msrIa32FeatureControl).getLsbD 2 = true ∧
    s.mem.load (CpuData.vmxonRegion p) 4 = (s.cpu.msr msrIa32VmxBasic).setWidth 32)
    ⟨fun ⟨h1, h2, h3, h4, h5, h6, h7, h8⟩ => ⟨h1, h2, h3, h4, h5, h6, h7, h8⟩,
      fun h => ⟨h.1, h.2, h.3, h.4, h.5, h.6, h.7, h.8⟩⟩

/-- a processor on which `vmxon` faults where its conditions do not hold, and writes nothing -/
def plainUnit : VmxUnit where
  faults op _ s := match op with
    | .vmxon => !decide (VmxonReady cpuDataAddress s)
    | _ => false
  exec _ _ s := (2#64, s.mem, s.vmcs)
  exec_outside _ _ _ _ _ := rfl
  launchFails _ := none

theorem plainUnit_succeeds : plainUnit.Succeeds cpuDataAddress := by
  have hflags : vmxErrorOf 2#64 = .vmSuccess := by decide
  refine ⟨fun s => ?_, fun _ _ _ => ⟨rfl, hflags⟩, fun _ _ _ => ⟨rfl, hflags⟩⟩
  show (!decide (VmxonReady cpuDataAddress s)) = false ∧ vmxErrorOf 2#64 = .vmSuccess ↔ _
  simp [hflags]

end HyperC
