import HyperC.Vmm.Wrapper

/-!
# One exit, from the guest to the guest

A guest runs on a machine whose VMCS holds the address of the saved image as the host's `fs` base.
An exit moves it to the host, the wrapper runs, and the guest goes on.

* `HostFs`, `HostReady`   the invariant of the host: the `fs` base, and the back pointer;
* `Served`, `exit_iff`   the exits the host handles;
* `exit_regs`, `exit_msr`, `exit_field`, `exit_outside`, `exit_mono`   what a handled exit does to
                   registers, MSRs, VMCS and memory;
* `hostReady_exit` the invariant is kept.
-/

namespace HyperC
open Msr

/-- at an exit the host's `fs` base is the saved image -/
def HostFs (p : ℕ) (s : Machine) : Prop :=
  s.vmcs vmcsHostFsBase = BitVec.ofNat 64 (CpuData.guestCpuState p)

/-- the host is set up for exits: its `fs` base is the saved image and the back pointer is intact -/
structure HostReady (p : ℕ) (s : Machine) : Prop where
  fsBase : HostFs p s
  backPointer : BackPointer p s.mem

/-- a machine that is set up for exits, with zeros elsewhere -/
def readyMachine : Machine :=
  { pointedMachine with
    vmcs := Function.update pointedMachine.vmcs vmcsHostFsBase
      (BitVec.ofNat 64 (CpuData.guestCpuState cpuDataAddress)) }

theorem readyMachine_ready : HostReady cpuDataAddress readyMachine :=
  ⟨Function.update_self vmcsHostFsBase _ pointedMachine.vmcs, pointedMachine_backPointer⟩

/-- an image with its functions on pages of their own -/
def sampleImage : Image where
  kmain := 0x101000
  vmexitWrapper := 0x102000
  ssdtHook := 0x103000
  printACrab := 0x104000
  hostBytes := { x | 0x102000 ≤ x ∧ x < 0x108000 }
  ssdtHook_linked := by decide
  printACrab_linked := by decide
  vmexitWrapper_mem := by norm_num
  hostBytes_linked := fun x hx => ⟨hx.1.trans' (by norm_num), hx.2.trans (by norm_num)⟩

/-- a `vmexit_handler` compiled without a use of registers or stack -/
def plainCompiled : Compiled where
  scratch := fun s => s.cpu.regs
  stack := fun s => s.mem
  stack_below := fun _ _ _ => rfl

/-- the exits that `vmexit_handler` serves with success -/
def Served (e : ExitInfo) (regs : Regs) : Prop :=
  e.reason = exitReasonHlt ∨ e.reason = exitReasonMsrRead ∨ e.reason = exitReasonMsrWrite ∨
    e.reason = exitReasonEptViolation ∨ e.reason = exitReasonEptMisconfig ∨
    (e.reason = exitReasonVmcall ∧ regs .rdi = protecetSyscall)

/-- the exit comes from an access to the page of the syscall table -/
def SsdtAccess (p : ℕ) (e : ExitInfo) : Prop :=
  e.reason = exitReasonEptMisconfig ∧
    GuestState.ssdt (CpuData.guestCpuState p) ≤ e.gpa.toNat ∧
    e.gpa.toNat < GuestState.ssdt (CpuData.guestCpuState p) + 0x1000

/-- the wrapper from the exit `e` of the guest on `s` to the resumed guest on `s'` -/
def Exit (img : Image) (c : Compiled) (e : ExitInfo) (s s' : Machine) : Prop :=
  (vmexitWrapper img c).run (vmExit e s) = .leave s'

section
variable {img : Image} {c : Compiled} {p : ℕ} {e : ExitInfo} {s s' : Machine}

theorem guestRegs_vmExit (e : ExitInfo) (s : Machine) : guestRegs (vmExit e s) = s.cpu.regs := by
  have hrsp : (vmExit e s).vmcs vmcsGuestRsp = s.cpu.regs .rsp := vmExit_field (by simp [exitFields])
  have hrip : (vmExit e s).vmcs vmcsGuestRip = s.cpu.regs .rip := vmExit_field (by simp [exitFields])
  funext r
  unfold guestRegs
  by_cases h1 : r = .rsp
  · rw [if_pos h1, hrsp, h1]
  by_cases h2 : r = .rip
  · rw [if_neg h1, if_pos h2, hrip, h2]
  rw [if_neg h1, if_neg h2]
  show Function.update _ _ _ r = _
  rw [Function.update_of_ne h2, Function.update_of_ne h1]

theorem vmExit_fsBase (h : HostFs p s) : HostFs p (vmExit e s) := by
  rw [HostFs, vmExit_field_kept (by simp only [exitFields, List.map_cons, List.map_nil]; decide)]
  exact h

theorem vmExit_fs (h : HostFs p s) :
    (vmExit e s).cpu.fsBase = BitVec.ofNat 64 (CpuData.guestCpuState p) := h

def exitMem (p : ℕ) (e : ExitInfo) (s : Machine) : Mem :=
  savedMem (CpuData.guestCpuState p) (vmExit e s)

theorem load_exitMem (r : Reg) :
    (exitMem p e s).load64 (regSlot (CpuData.guestCpuState p) r) = s.cpu.regs r := by
  rw [exitMem, load_savedMem, guestRegs_vmExit]

theorem exitMem_outside (x : ℕ)
    (h : x < CpuData.guestCpuState p ∨ CpuData.guestCpuState p + 136 ≤ x) :
    exitMem p e s x = s.mem x :=
  savedMem_outside _ _ x h

theorem backPointer_exitMem (h : BackPointer p s.mem) : BackPointer p (exitMem p e s) := by
  rw [BackPointer, Mem.load64_congr fun k _ => exitMem_outside _ ?_]
  · exact h
  · rw [GuestState.cpuData_eq]
    omega

theorem handled_exitMem_iff : (∃ m, handled img (CpuData.guestCpuState p) e (exitMem p e s) = some m) ↔
    Served e s.cpu.regs := by
  have hrdi : (advanceRip (CpuData.guestCpuState p) e.len (exitMem p e s)).load64
      (regSlot (CpuData.guestCpuState p) .rdi) = s.cpu.regs .rdi := by
    rw [load_advanceRip, if_neg (by decide), load_exitMem]
  simp only [handled, hrdi, Served]
  split
  · rename_i h
    simp only [Option.some.injEq, exists_eq', true_iff]
    tauto
  split
  · rename_i h
    simp only [Option.some.injEq, exists_eq', true_iff]
    tauto
  split
  · rename_i h
    simp only [Option.some.injEq, exists_eq', true_iff]
    tauto
  · simp only [reduceCtorEq, exists_false, false_iff]
    tauto

/-- **an exit resumes the guest exactly if it is served** -/
theorem exit_iff (hp : CpuDataAt p) (h : HostFs p s) :
    (∃ s', Exit img c e s s') ↔ Served e s.cpu.regs := by
  rw [← show (∃ m, handled img (CpuData.guestCpuState p) e (exitMem p e s) = some m) ↔
    Served e s.cpu.regs from handled_exitMem_iff]
  constructor
  · rintro ⟨s', hs'⟩
    obtain ⟨m, hm, -⟩ := wrapper_leave_inv img c hp (vmExit_fs h) (vmExit_fsBase h) hs'
    rw [exitInfo_vmExit] at hm
    exact ⟨m, hm⟩
  · rintro ⟨m, hm⟩
    rw [← exitInfo_vmExit e s] at hm
    obtain ⟨s', hs', -⟩ := wrapper_resumes img c hp (vmExit_fs h) (vmExit_fsBase h) (m := m) (by
      rw [exitInfo_vmExit] at hm ⊢
      exact hm)
    exact ⟨s', hs'⟩

/-! ## the effect of a handled exit -/

theorem exit_inv (hp : CpuDataAt p) (h : HostFs p s) (hs : Exit img c e s s') :
    ∃ m, handled img (CpuData.guestCpuState p) e (exitMem p e s) = some m ∧
      Resumes p (vmExit e s) m s' := by
  obtain ⟨m, hm, hres⟩ := wrapper_leave_inv img c hp (vmExit_fs h) (vmExit_fsBase h) hs
  rw [exitInfo_vmExit] at hm
  exact ⟨m, hm, hres⟩

/-- **the registers of the resumed guest**; only a `VMCALL` follows the back pointer -/
theorem exit_regs_of (hp : CpuDataAt p) (h : HostFs p s)
    (hb : e.reason = exitReasonVmcall → BackPointer p s.mem) (hs : Exit img c e s s') (r : Reg) :
    s'.cpu.regs r = exitRegs img (CpuData.guestCpuState p) e (exitMem p e s) s.cpu.regs r := by
  obtain ⟨m, hm, hres⟩ := exit_inv hp h hs
  have himage : (fun r => (exitMem p e s).load64 (regSlot (CpuData.guestCpuState p) r))
      = s.cpu.regs := funext fun r => load_exitMem r
  rw [hres.regs, load_handled hp (fun hr => backPointer_exitMem (hb hr)) hm, himage]

theorem exit_regs (hp : CpuDataAt p) (h : HostReady p s) (hs : Exit img c e s s') (r : Reg) :
    s'.cpu.regs r = exitRegs img (CpuData.guestCpuState p) e (exitMem p e s) s.cpu.regs r :=
  exit_regs_of hp h.fsBase (fun _ => h.backPointer) hs r

/-- **an exit leaves the MSRs as they are**, but for what it makes of `IA32_DEBUGCTL` -/
theorem exit_msr (hp : CpuDataAt p) (h : HostFs p s) (hs : Exit img c e s s') :
    s'.cpu.msr = Function.update s.cpu.msr msrIa32Debugctl
      ((exitDebugctl s.vmcs).getD (s.cpu.msr msrIa32Debugctl)) := by
  obtain ⟨m, -, hres⟩ := exit_inv hp h hs
  have hcs : (vmExit e s).vmcs vmcsGuestSysenterCs = s.cpu.msr msrIa32SysenterCs :=
    vmExit_field (by simp [exitFields])
  have hesp : (vmExit e s).vmcs vmcsGuestSysenterEsp = s.cpu.msr msrIa32SysenterEsp :=
    vmExit_field (by simp [exitFields])
  have heip : (vmExit e s).vmcs vmcsGuestSysenterEip = s.cpu.msr msrIa32SysenterEip :=
    vmExit_field (by simp [exitFields])
  have hdebugctl : (vmExit e s).cpu.msr msrIa32Debugctl = 0#64 := by
    simp only [vmExit, Function.update_self]
  rw [hres.msr, entryMsr, hcs, hesp, heip, hdebugctl, vmExit_loadsDebugctl, entryMsr_debugctl]
  funext msr
  simp only [vmExit, withSysenter, Function.update_apply]
  split
  · rfl
  split
  · rename_i h1
    rw [h1]
  split
  · rename_i h1
    rw [h1]
  split
  · rename_i h1
    rw [h1]
  · rfl

theorem exit_field (hp : CpuDataAt p) (h : HostFs p s) (hs : Exit img c e s s') {field : ℕ}
    (hf : field ∉ (exitFields e s).map Prod.fst) : s'.vmcs field = s.vmcs field := by
  obtain ⟨m, -, hres⟩ := exit_inv hp h hs
  have hrsp : field ≠ vmcsGuestRsp := by
    rintro rfl
    exact hf (by simp [exitFields])
  have hrip : field ≠ vmcsGuestRip := by
    rintro rfl
    exact hf (by simp [exitFields])
  rw [hres.vmcs field hrsp hrip, vmExit_field_kept hf]

theorem exit_exitDebugctl (hp : CpuDataAt p) (h : HostFs p s) (hs : Exit img c e s s') :
    exitDebugctl s'.vmcs = exitDebugctl s.vmcs := by
  obtain ⟨m, -, hres⟩ := exit_inv hp h hs
  have hfields : exitDebugctl s'.vmcs = exitDebugctl (vmExit e s).vmcs :=
    exitDebugctl_congr fun f hf => hres.vmcs f (ne_of_mem_of_not_mem hf (by decide))
      (ne_of_mem_of_not_mem hf (by decide))
  rw [hfields, vmExit_exitDebugctl]

/-- **outside the saved image, the bitmaps and the host's stack memory stays** -/
theorem exit_outside (hp : CpuDataAt p) (h : HostReady p s) (hs : Exit img c e s s') (x : ℕ)
    (hx : stackTop ≤ x) (himage : x < CpuData.guestCpuState p ∨ CpuData.guestCpuState p + 136 ≤ x)
    (hbits : x < CpuData.msrBitmaps p ∨ CpuData.msrBitmaps p + 4096 ≤ x) : s'.mem x = s.mem x := by
  obtain ⟨m, hm, hres⟩ := exit_inv hp h.fsBase hs
  rw [hres.mem x hx, handled_outside hp (fun _ => backPointer_exitMem h.backPointer) hm x himage hbits,
    exitMem_outside x himage]

theorem hostFs_exit (hp : CpuDataAt p) (h : HostFs p s) (hs : Exit img c e s s') : HostFs p s' := by
  rw [HostFs, exit_field hp h hs (by simp only [exitFields, List.map_cons, List.map_nil]; decide)]
  exact h

theorem hostReady_exit (hp : CpuDataAt p) (h : HostReady p s) (hs : Exit img c e s s') :
    HostReady p s' := by
  have htop := hp.above
  refine ⟨hostFs_exit hp h.fsBase hs, ?_⟩
  rw [BackPointer, Mem.load64_congr fun k _ => exit_outside hp h hs _ ?_ ?_ ?_]
  · exact h.backPointer
  all_goals
    simp only [GuestState.cpuData_eq, CpuData.guestCpuState_eq, CpuData.msrBitmaps_eq]
    omega

end

end HyperC
