import HyperC.Run.Guest
import HyperC.Run.HookedTables
import HyperC.Lib.Simulation

/-!
# The virtual machine

What the hypervisor is for: the guest has a machine of its own, with registers, MSRs and memory.  The
virtual machine is this machine; it knows neither exits nor tables.

* `GuestInstr`, `GuestInstr.exec`   the instructions of a guest, on the processor under the hypervisor;
* `Vm`, `Vm.step`     what they do on the virtual machine;
* `Stepped`, `stepped_of_step`   what a step can change besides the registers;
* `Vm.Stops`, `step_none_iff`   where the virtual machine stops;
* `Owned`             the bytes of the hypervisor, its image, stack and page tables included, which the
                      guest has to leave alone;
* `Hosts`             the machine runs the virtual machine.

An MSR that the processor lets the guest read or write is a cell.  Any other access to it is a fault, and
nobody has an interrupt table: the fault ends in a triple fault, which leaves the guest.
-/

namespace HyperC
open Code Msr Ept Walk

/-! ## instructions -/

/-- an instruction of the guest, or a run of those that touch registers only; the two on MSRs find
the number in `ecx` -/
inductive GuestInstr where
  | compute (f : Regs → Regs)
  | load (a : ℕ)
  | store (a : ℕ) (v : BitVec 64)
  | rdmsr
  | wrmsr
  | hlt
  | vmcall

instance (d : MsrAccess) (s : Machine) : Decidable (MsrExits d s) :=
  inferInstanceAs (Decidable (_ ∨ _))

/-- `hlt` leaves the guest -/
def HltExits (s : Machine) : Prop := (s.vmcs vmcsCpuBasedVmExecControl).getLsbD 7 = true

instance (s : Machine) : Decidable (HltExits s) := inferInstanceAs (Decidable (_ = _))

/-- what the processor says about an exit at an instruction of `len` bytes -/
def instrExit (reason : ℕ) (len : BitVec 64) (s : Machine) : ExitInfo :=
  ⟨BitVec.ofNat 64 reason, len, s.vmcs vmcsGuestPhysicalAddress⟩

/-- a fault of the guest -/
def tripleFault (env : GuestEnv) : Host Unit := do
  let s ← gets id
  serveExit env (instrExit exitReasonTripleFault 0#64 s)

/-- the value that `wrmsr` writes -/
def wrmsrValue (regs : Regs) : BitVec 64 := (regs .rdx).setWidth 32 ++ (regs .rax).setWidth 32

def GuestInstr.exec (env : GuestEnv) : GuestInstr → Host Unit
  | .compute f => modify fun s => withRegs s (f s.cpu.regs)
  | .load a => do
    let _ ← guestLoad env a
    pure ()
  | .store a v => do
    let _ ← guestStore env a v
    pure ()
  | .rdmsr => do
    let s ← gets id
    if MsrExits .read s then serveExit env (instrExit exitReasonMsrRead 2#64 s)
    else if env.readable (ecx s) then modify nativeRdmsr
    else tripleFault env
  | .wrmsr => do
    let s ← gets id
    if MsrExits .write s then serveExit env (instrExit exitReasonMsrWrite 2#64 s)
    else if env.writable (ecx s) (wrmsrValue s.cpu.regs) then modify nativeWrmsr
    else tripleFault env
  | .hlt => do
    let s ← gets id
    if HltExits s then serveExit env (instrExit exitReasonHlt 1#64 s) else halt
  | .vmcall => do
    let s ← gets id
    serveExit env (instrExit exitReasonVmcall 3#64 s)

/-! ## the virtual machine -/

structure Vm where
  regs : Regs
  msr : BitVec 32 → BitVec 64
  /-- the accesses to MSRs that are swallowed -/
  watched : MsrAccess → BitVec 32 → Bool
  mem : Mem
  /-- what `IA32_DEBUGCTL` becomes whenever the guest is left, if that changes it -/
  debugctl : Option (BitVec 64)

namespace Vm
variable (env : GuestEnv) (v : Vm)

def ecx : BitVec 32 := (v.regs .rcx).setWidth 32

/-- the instruction is done -/
def skip (len : BitVec 64) : Vm :=
  { v with regs := Function.update v.regs .rip (v.regs .rip + len) }

/-- the guest has been left -/
def exited : Vm :=
  { v with msr := Function.update v.msr msrIa32Debugctl (v.debugctl.getD (v.msr msrIa32Debugctl)) }

def swallows (d : MsrAccess) : Bool := !decide (Covered v.ecx) || v.watched d v.ecx

/-- an access to the page of the syscall table is answered with the arguments of the hook -/
def hooked (a : ℕ) : Vm :=
  { v with regs := fun r => match r with
    | .rax => BitVec.ofNat 64 env.img.ssdtHook
    | .rdi => BitVec.ofNat 64 (a % 4096 / 8)
    | .rsi => v.mem.load64 a
    | .rip => v.regs .rip + env.len
    | r => v.regs r }

def loaded (x : BitVec 64) : Vm := { v with regs := Function.update v.regs .rax x }

/-- the processor's `rdmsr` -/
def readMsr : Vm :=
  let x := v.msr v.ecx
  { v with regs := fun r => match r with
    | .rax => (x.setWidth 32).setWidth 64
    | .rdx => x >>> 32
    | .rip => v.regs .rip + 2#64
    | r => v.regs r }

/-- the processor's `wrmsr` -/
def writeMsr : Vm :=
  { v.skip 2#64 with msr := Function.update v.msr v.ecx (wrmsrValue v.regs) }

/-- the two system-call MSRs cannot be written any more -/
def protect : Vm :=
  { v with watched := fun d msr => v.watched d msr ||
      decide (d = .write ∧ (msr = msrIa32SysenterEip ∨ msr = msrIa32Lstar)) }

def step : GuestInstr → Option Vm
  | .compute f => some { v with regs := f v.regs }
  | .load a =>
    if a / 4096 = ssdtPage then some (v.exited.hooked env a)
    else some ((v.loaded (v.mem.load64 a)).skip env.len)
  | .store a x =>
    if a / 4096 = ssdtPage then some (v.exited.hooked env a)
    else some { v.skip env.len with mem := v.mem.store64 a x }
  | .rdmsr =>
    if v.swallows .read then some (v.exited.skip 2#64)
    else if env.readable v.ecx then some v.readMsr
    else none
  | .wrmsr =>
    if v.swallows .write then some (v.exited.skip 2#64)
    else if env.writable v.ecx (wrmsrValue v.regs) then some v.writeMsr
    else none
  | .hlt => some (v.exited.skip 1#64)
  | .vmcall => if v.regs .rdi = protecetSyscall then some (v.protect.exited.skip 3#64) else none

/-- the virtual machine stops: at an access to an MSR that the processor refuses, or at an unknown
hypercall -/
def Stops : GuestInstr → Prop
  | .rdmsr => v.swallows .read = false ∧ env.readable v.ecx = false
  | .wrmsr => v.swallows .write = false ∧ env.writable v.ecx (wrmsrValue v.regs) = false
  | .vmcall => v.regs .rdi ≠ protecetSyscall
  | _ => False

theorem exited_msr {msr : BitVec 32} (h : msr ≠ msrIa32Debugctl) : v.exited.msr msr = v.msr msr :=
  Function.update_of_ne h _ _

end Vm

/-- a step from `v` to `v'`: it leaves all but the registers and `IA32_DEBUGCTL` alone, or it is a store
off the syscall table, a `wrmsr` that is not swallowed, or the hypercall -/
inductive Stepped (v v' : Vm) : GuestInstr → Prop
  | quiet {i : GuestInstr} (hi : i ≠ .vmcall)
      (hmsr : ∀ msr, msr ≠ msrIa32Debugctl → v'.msr msr = v.msr msr) (hwatched : v'.watched = v.watched)
      (hmem : v'.mem = v.mem) : Stepped v v' i
  | stored {a : ℕ} {x : BitVec 64} (hp : a / 4096 ≠ ssdtPage) (hmsr : v'.msr = v.msr)
      (hwatched : v'.watched = v.watched) (hmem : v'.mem = v.mem.store64 a x) : Stepped v v' (.store a x)
  | wrote {x : BitVec 64} (hs : v.swallows .write = false) (hmsr : v'.msr = Function.update v.msr v.ecx x)
      (hwatched : v'.watched = v.watched) (hmem : v'.mem = v.mem) : Stepped v v' .wrmsr
  | called (hrdi : v.regs .rdi = protecetSyscall)
      (hmsr : ∀ msr, msr ≠ msrIa32Debugctl → v'.msr msr = v.msr msr)
      (hwatched : v'.watched = v.protect.watched) (hmem : v'.mem = v.mem) : Stepped v v' .vmcall

theorem stepped_of_step {env : GuestEnv} {v v' : Vm} {i : GuestInstr} (h : v.step env i = some v') :
    Stepped v v' i := by
  cases i with
  | compute f =>
    cases h
    exact .quiet (by simp) (fun _ _ => rfl) rfl rfl
  | hlt =>
    cases h
    exact .quiet (by simp) (fun _ hne => v.exited_msr hne) rfl rfl
  | load a =>
    simp only [Vm.step] at h
    split_ifs at h
    · cases h
      exact .quiet (by simp) (fun _ hne => v.exited_msr hne) rfl rfl
    · cases h
      exact .quiet (by simp) (fun _ _ => rfl) rfl rfl
  | store a x =>
    simp only [Vm.step] at h
    split_ifs at h with hp
    · cases h
      exact .quiet (by simp) (fun _ hne => v.exited_msr hne) rfl rfl
    · cases h
      exact .stored hp rfl rfl rfl
  | rdmsr =>
    simp only [Vm.step] at h
    split_ifs at h
    · cases h
      exact .quiet (by simp) (fun _ hne => v.exited_msr hne) rfl rfl
    · cases h
      exact .quiet (by simp) (fun _ _ => rfl) rfl rfl
  | wrmsr =>
    simp only [Vm.step] at h
    split_ifs at h with hs hw
    · cases h
      exact .quiet (by simp) (fun _ hne => v.exited_msr hne) rfl rfl
    · cases h
      exact .wrote (Bool.not_eq_true _ ▸ hs) rfl rfl rfl
  | vmcall =>
    simp only [Vm.step] at h
    split_ifs at h with hrdi
    cases h
    exact .called hrdi (fun _ hne => v.protect.exited_msr hne) rfl rfl

/-- **nothing else stops a step** -/
theorem step_none_iff {env : GuestEnv} {v : Vm} {i : GuestInstr} : v.step env i = none ↔ v.Stops env i := by
  cases i with
  | rdmsr =>
    simp only [Vm.step, Vm.Stops]
    cases v.swallows .read
    · cases env.readable v.ecx
      all_goals simp
    · simp
  | wrmsr =>
    simp only [Vm.step, Vm.Stops]
    cases v.swallows .write
    · cases env.writable v.ecx (wrmsrValue v.regs)
      all_goals simp
    · simp
  | vmcall => simp only [Vm.step, Vm.Stops, ite_eq_right_iff, reduceCtorEq, imp_false, ne_eq]
  | compute f => simp only [Vm.step, Vm.Stops, reduceCtorEq]
  | hlt => simp only [Vm.step, Vm.Stops, reduceCtorEq]
  | _ =>
    refine ⟨fun h => ?_, False.elim⟩
    simp only [Vm.step] at h
    split_ifs at h

/-! ## the machine that runs it -/

/-- the byte is one of the hypervisor: of its stack, its pages, the back pointer, its image or its page
tables -/
def Owned (img : Image) (x : ℕ) : Prop :=
  x < stackTop ∨ Private cpuDataAddress x ∨
    (GuestState.cpuData guestState ≤ x ∧ x < GuestState.cpuData guestState + 8) ∨
    HostOwn img cpuDataAddress x

/-- the guest uses aligned addresses that are mapped and none of the hypervisor's -/
def GuestInstr.Fair (img : Image) : GuestInstr → Prop
  | .load a | .store a _ => a % 8 = 0 ∧ a < 2 ^ 32 ∧ ∀ k < 8, ¬ Owned img (a + k)
  | _ => True

/-- the machine `s` runs the virtual machine `v` -/
structure Hosts (env : GuestEnv) (s : Machine) (v : Vm) : Prop where
  view : HostView cpuDataAddress s
  backPointer : BackPointer cpuDataAddress s.mem
  hlt : HltExits s
  tables : GuestTables env.caps hookedSlots s
  debugctl : exitDebugctl s.vmcs = v.debugctl
  regs : s.cpu.regs = v.regs
  msr : s.cpu.msr = v.msr
  watched : ∀ d msr, Covered msr →
    consulted s.mem (CpuData.msrBitmaps cpuDataAddress) d msr = v.watched d msr
  mem : ∀ x, ¬ Owned env.img x → s.mem x = v.mem x

/-- the virtual machine of a machine -/
def vmOf (s : Machine) : Vm where
  regs := s.cpu.regs
  msr := s.cpu.msr
  watched := consulted s.mem (CpuData.msrBitmaps cpuDataAddress)
  mem := s.mem
  debugctl := exitDebugctl s.vmcs

theorem not_owned_iff {img : Image} {x : ℕ} : ¬ Owned img x ↔
    0x7BFF ≤ x ∧ (x < 0x1000000 ∨ 0x180A000 ≤ x) ∧ (x < 0x1813000 ∨ 0x1813008 ≤ x) ∧
      x ∉ img.hostBytes ∧ (x < 0x110000 ∨ 0x116000 ≤ x) := by
  have e1 : CpuData.vmxonRegion cpuDataAddress = 0x1000000 := rfl
  have e2 : CpuData.vmcs cpuDataAddress = 0x1001000 := rfl
  have e3 : CpuData.epts cpuDataAddress = 0x1002000 := rfl
  have e4 : CpuData.msrBitmaps cpuDataAddress = 0x1808000 := rfl
  have e5 : CpuData.guestCpuState cpuDataAddress = 0x1809000 := rfl
  have e6 : GuestState.cpuData guestState = 0x1813000 := rfl
  have e7 : pageFrameSize = 0x1000 := rfl
  have e8 : stackTop = 0x7BFF := rfl
  unfold Owned Private HostOwn
  rw [e1, e2, e3, e4, e5, e6, e7, e8, Epts.size_eq]
  by_cases hx : x ∈ img.hostBytes
  · simp only [hx, true_or, or_true, not_true_eq_false, false_and, and_false]
  · simp only [hx, false_or, not_false_eq_true, true_and]
    omega

/-- no byte above the image and the tables is the image's -/
theorem not_owned_of_le {img : Image} {x : ℕ} (hlo : 0x116000 ≤ x)
    (hcpu : x < 0x1000000 ∨ 0x180A000 ≤ x) (hptr : x < 0x1813000 ∨ 0x1813008 ≤ x) : ¬ Owned img x := by
  refine not_owned_iff.mpr ⟨by omega, hcpu, hptr, fun hx => ?_, Or.inr hlo⟩
  have himg := img.hostBytes_linked x hx
  omega

end HyperC
