import HyperC.Vmm.MsrBitmaps
import HyperC.Run.Guest

/-!
# Reads of a monitored MSR

With its read bit set, an `rdmsr` of the guest leaves it, and `rdmsr_handler` steps over the
instruction without doing it.

* `HoldsMsr`        `edx:eax` has the value of the MSR already;
* `monitored_exits` after `monitor_rdmsr` the processor exits at the instruction;
* `rdmsr_transparent_iff`   what the guest finds after the exit is what the instruction leaves exactly if
                    the guest had it before.
-/

namespace HyperC
open Code Msr

/-- `rax` and `rdx` hold the halves of the MSR that `ecx` selects, with their upper halves clear -/
def HoldsMsr (s : Machine) : Prop :=
  s.cpu.regs .rax = ((s.cpu.msr (ecx s)).setWidth 32).setWidth 64 ∧
    s.cpu.regs .rdx = s.cpu.msr (ecx s) >>> 32

section
variable {img : Image} {c : Compiled} {p : ℕ} {e : ExitInfo} {s s₁ s' : Machine}

/-- **a monitored read leaves the guest**, and finds the host as it was -/
theorem monitored_exits (hp : CpuDataAt p) (h : HostView p s) (hc : Covered (ecx s))
    (hmon : (monitorRdmsr (CpuData.msrBitmaps p) (ecx s)).run s = .ret () s₁) :
    MsrExits .read s₁ ∧ HostFs p s₁ ∧ s₁.cpu = s.cpu := by
  have hlt := hp.lt
  have hbits := CpuData.msrBitmaps_eq p
  rw [monitorRdmsr_eq _ hc] at hmon
  cases hmon
  have hpage : (BitVec.ofNat 64 (CpuData.msrBitmaps p)).toNat = CpuData.msrBitmaps p := by
    rw [BitVec.toNat_ofNat, Nat.mod_eq_of_lt (by omega)]
  refine ⟨Or.inr ?_, h.fsBase, rfl⟩
  show consulted _ (s.vmcs vmcsMsrBitmap).toNat .read (ecx s) = true
  rw [h.msrBitmap, hpage, consulted_eq, Bitmap.test_insert]
  exact Or.inl rfl

/-- the registers after the exit: `rip` has moved past the instruction, and nothing else -/
theorem rdmsr_exit_regs (hp : CpuDataAt p) (h : HostFs p s) (hr : e.reason = exitReasonMsrRead)
    (hx : Exit img c e s s') (r : Reg) :
    s'.cpu.regs r = if r = .rip then s.cpu.regs .rip + e.len else s.cpu.regs r := by
  have hvmcall : e.reason ≠ exitReasonVmcall := by
    rw [hr]
    decide
  have hmisconfig : e.reason ≠ exitReasonEptMisconfig := by
    rw [hr]
    decide
  rw [exit_regs_of hp h (fun hv => absurd hv hvmcall) hx, exitRegs_plain fun hm => hmisconfig hm.1]

theorem nativeRdmsr_eq_iff {regs : Regs} (hrip : regs .rip = s.cpu.regs .rip + 2#64)
    (hkept : ∀ r, r ≠ .rip → regs r = s.cpu.regs r) :
    regs = (nativeRdmsr s).cpu.regs ↔ HoldsMsr s := by
  constructor
  · intro heq
    refine ⟨?_, ?_⟩
    · rw [← hkept .rax (by decide), heq]
      rfl
    · rw [← hkept .rdx (by decide), heq]
      rfl
  · rintro ⟨hrax, hrdx⟩
    funext r
    cases r with
    | rax => exact (hkept .rax (by decide)).trans hrax
    | rdx => exact (hkept .rdx (by decide)).trans hrdx
    | rip => exact hrip
    | _ => exact hkept _ (by decide)

/-- **monitoring the reads of an MSR is transparent exactly if the guest holds its value already**: the
registers after the exit at `rdmsr`, a two-byte instruction, against those that the instruction leaves
where it is not monitored -/
theorem rdmsr_transparent_iff (img : Image) (c : Compiled) (p : ℕ) (e : ExitInfo) (s s₁ : Machine)
    (hp : CpuDataAt p) (h : HostView p s) (hc : Covered (ecx s))
    (hmon : (monitorRdmsr (CpuData.msrBitmaps p) (ecx s)).run s = .ret () s₁)
    (hr : e.reason = exitReasonMsrRead) (hlen : e.len = 2#64) :
    MsrExits .read s₁ ∧ ∃ s', Exit img c e s₁ s' ∧
      (s'.cpu.regs = (nativeRdmsr s).cpu.regs ↔ HoldsMsr s) := by
  obtain ⟨hexits, hfs, hcpu⟩ := monitored_exits hp h hc hmon
  obtain ⟨s', hx⟩ : ∃ s', Exit img c e s₁ s' := (exit_iff hp hfs).mpr (Or.inr (Or.inl hr))
  have hregs := rdmsr_exit_regs hp hfs hr hx
  rw [hcpu, hlen] at hregs
  refine ⟨hexits, s', hx, nativeRdmsr_eq_iff ?_ fun r hne => ?_⟩
  · rw [hregs, if_pos rfl]
  · rw [hregs, if_neg hne]

end

/-- what the processor says about an exit at `rdmsr` -/
def rdmsrExit : ExitInfo := ⟨31#64, 2#64, 0#64⟩

/-- a guest about to read an MSR that holds `5`, with zeros in its registers -/
def msrMachine : Machine :=
  { readyMachine with
    vmcs := Function.update readyMachine.vmcs vmcsMsrBitmap
      (BitVec.ofNat 64 (CpuData.msrBitmaps cpuDataAddress))
    cpu := { (default : Cpu) with msr := fun _ => 5#64 } }

theorem msrMachine_view : HostView cpuDataAddress msrMachine := by
  have hne : vmcsHostFsBase ≠ vmcsMsrBitmap := by decide
  have hfs : msrMachine.vmcs vmcsHostFsBase = readyMachine.vmcs vmcsHostFsBase := by
    simp only [msrMachine, Function.update_of_ne hne]
  exact ⟨hfs.trans readyMachine_ready.fsBase, Function.update_self vmcsMsrBitmap _ readyMachine.vmcs⟩

theorem msrMachine_monitored : ∃ s₁, (monitorRdmsr (CpuData.msrBitmaps cpuDataAddress)
    (ecx msrMachine)).run msrMachine = .ret () s₁ :=
  ⟨_, monitorRdmsr_eq _ (by decide) _⟩

theorem rdmsr_transparent_iff_zero : ∃ s₁, MsrExits .read s₁ ∧
    ∃ s', Exit sampleImage plainCompiled rdmsrExit s₁ s' ∧
      (s'.cpu.regs = (nativeRdmsr msrMachine).cpu.regs ↔ HoldsMsr msrMachine) := by
  obtain ⟨s₁, hmon⟩ := msrMachine_monitored
  exact ⟨s₁, rdmsr_transparent_iff sampleImage plainCompiled cpuDataAddress rdmsrExit msrMachine s₁
    cpuDataAt_fixed msrMachine_view (by decide) hmon (by decide) rfl⟩

/-- **a guest that reads a monitored MSR finds its own registers** -/
theorem monitored_rdmsr_reads_nothing : ¬ ∀ (img : Image) (c : Compiled) (p : ℕ) (e : ExitInfo)
    (s s₁ : Machine), CpuDataAt p → HostView p s → Covered (ecx s) →
    (monitorRdmsr (CpuData.msrBitmaps p) (ecx s)).run s = .ret () s₁ →
    e.reason = exitReasonMsrRead → e.len = 2#64 →
    ∃ s', Exit img c e s₁ s' ∧ s'.cpu.regs = (nativeRdmsr s).cpu.regs := by
  intro h
  obtain ⟨s₁, hmon⟩ := msrMachine_monitored
  obtain ⟨s', hx, heq⟩ := h sampleImage plainCompiled cpuDataAddress rdmsrExit msrMachine s₁
    cpuDataAt_fixed msrMachine_view (by decide) hmon (by decide) rfl
  obtain ⟨-, hfs, hcpu⟩ := monitored_exits cpuDataAt_fixed msrMachine_view (by decide) hmon
  have hrax := congrFun heq .rax
  rw [rdmsr_exit_regs cpuDataAt_fixed hfs (by decide) hx, hcpu] at hrax
  exact absurd hrax (by decide)

end HyperC
