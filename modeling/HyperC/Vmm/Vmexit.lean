import HyperC.Vmm.DataLayout
import HyperC.Vmm.MsrBitmaps
import HyperC.Machine.Vmx

/-!
# `vmexit.c` and `vmexit_handler`: what the host does at an exit

The handlers edit the saved image of the guest's registers, at the start of `guest_cpu_state_t`.

* `haltHandler` .. `vmcallHandler`, `vmexitHandler`   the functions;
* `advanceRip`, `hookRegs`, `protect`   the three edits of memory they make;
* `handled`         the memory after an exit, or `none` if the host panics;
* `vmexitHandler_ret`, `vmexitHandler_halt`   the whole handler is `handled`, plus log lines.
-/

namespace HyperC
open Code Msr

/-- `handler_status_t` -/
inductive HandlerStatus where
  | handlerSuccess | handlerFailure
deriving DecidableEq

/-- `PROTECET_SYSCALL` of `vmcall_types_t` -/
def protecetSyscall : BitVec 64 := 0#64

/-- the place of a register among the members of `registers_t` -/
def Reg.position : Reg → ℕ
  | .rax => 0
  | .rbx => 1
  | .rcx => 2
  | .rdx => 3
  | .rsi => 4
  | .rdi => 5
  | .rbp => 6
  | .r8 => 7
  | .r9 => 8
  | .r10 => 9
  | .r11 => 10
  | .r12 => 11
  | .r13 => 12
  | .r14 => 13
  | .r15 => 14
  | .rsp => 15
  | .rip => 16

def regSlot (gs : ℕ) (r : Reg) : ℕ := GuestState.register gs r.position

theorem regSlot_eq (gs : ℕ) (r : Reg) : regSlot gs r = gs + 8 * r.position := by
  cases r <;> rfl

theorem Reg.position_lt (r : Reg) : r.position < 17 := by
  cases r <;> decide

theorem Reg.position_inj {r r' : Reg} (h : r.position = r'.position) : r = r' := by
  cases r <;> cases r' <;> first | rfl | cases h

/-! ## the functions -/

/-- `guest_state->registers.rip += vmread(VMCS_VM_EXIT_INSTRUCTION_LEN)` -/
def skipInstruction (gs : ℕ) : Host Unit := do
  let len ← vmread vmcsVmExitInstructionLen
  let rip ← loadQword (regSlot gs .rip)
  storeQword (regSlot gs .rip) (rip + len)

def haltHandler (gs : ℕ) : Host HandlerStatus := do
  logDebug "handling halt" []
  skipInstruction gs
  return .handlerSuccess

def rdmsrHandler (gs : ℕ) : Host HandlerStatus := do
  skipInstruction gs
  let rcx ← loadQword (regSlot gs .rcx)
  logDebug "handling rdmsr from msr: %u" [.int rcx]
  return .handlerSuccess

def wrmsrHandler (gs : ℕ) : Host HandlerStatus := do
  skipInstruction gs
  let rcx ← loadQword (regSlot gs .rcx)
  logDebug "handling wrmsr from msr: %u" [.int rcx]
  return .handlerSuccess

def eptViolationHandler (gs : ℕ) : Host HandlerStatus := do
  skipInstruction gs
  let physicalAddress ← vmread vmcsGuestPhysicalAddress
  logDebug "tried to update guest physical address %u" [.int physicalAddress]
  return .handlerSuccess

def alignDown (address : BitVec 64) : BitVec 64 := (address >>> 12) <<< 12

/-- the test of `ept_misconfig_handler`: the address lies in the page of the syscall table -/
def InSsdt (gs : ℕ) (physicalAddress : BitVec 64) : Prop :=
  BitVec.ofNat 64 (GuestState.ssdt gs) ≤ physicalAddress ∧
    physicalAddress < BitVec.ofNat 64 (GuestState.ssdt gs) + 0x1000#64

instance (gs : ℕ) (a : BitVec 64) : Decidable (InSsdt gs a) := inferInstanceAs (Decidable (_ ∧ _))

def eptMisconfigHandler (img : Image) (gs : ℕ) : Host HandlerStatus := do
  skipInstruction gs
  let physicalAddress ← vmread vmcsGuestPhysicalAddress
  if InSsdt gs physicalAddress then
    storeQword (regSlot gs .rdi) ((physicalAddress - alignDown physicalAddress) / 8#64)
    let handler ← loadQword physicalAddress.toNat
    storeQword (regSlot gs .rsi) handler
    storeQword (regSlot gs .rax) (BitVec.ofNat 64 img.ssdtHook)
  else
    logDebug "guest tried to access physical address at %u" [.int physicalAddress]
  return .handlerSuccess

def vmcallHandler (gs : ℕ) : Host HandlerStatus := do
  skipInstruction gs
  let rdi ← loadQword (regSlot gs .rdi)
  if rdi = protecetSyscall then
    logDebug "protecting IA32_SYSENTER_EIP and IA32_LSTAR msrs from writes" []
    let cpuData ← loadQword (GuestState.cpuData gs)
    monitorWrmsr (CpuData.msrBitmaps cpuData.toNat) msrIa32SysenterEip
    let cpuData ← loadQword (GuestState.cpuData gs)
    monitorWrmsr (CpuData.msrBitmaps cpuData.toNat) msrIa32Lstar
    return .handlerSuccess
  else
    logError "unsupported vmcall" []
    return .handlerFailure

def dispatchExit (img : Image) (reason gs : ℕ) : Host HandlerStatus :=
  if reason = exitReasonHlt then haltHandler gs
  else if reason = exitReasonMsrRead then rdmsrHandler gs
  else if reason = exitReasonMsrWrite then wrmsrHandler gs
  else if reason = exitReasonEptViolation then eptViolationHandler gs
  else if reason = exitReasonEptMisconfig then eptMisconfigHandler img gs
  else if reason = exitReasonVmcall then vmcallHandler gs
  else panic "unsupported exit reason" []

def vmexitHandler (img : Image) : Host Unit := do
  let guestState ← vmread vmcsHostFsBase
  let exitReason ← vmread vmcsVmExitReason
  logInfo "VM-exit reason: %s" [.str (exitReasonString (basicExitReason exitReason))]
  let status ← dispatchExit img (basicExitReason exitReason) guestState.toNat
  if status = .handlerFailure then panic "Faild to handle VM-exit" [] else pure ()

/-! ## what the handlers do -/

def advanceRip (gs : ℕ) (len : BitVec 64) (m : Mem) : Mem :=
  m.update64 (regSlot gs .rip) fun rip => rip + len

def hookRegs (img : Image) (gs : ℕ) (gpa : BitVec 64) (m : Mem) : Mem :=
  let m := m.store64 (regSlot gs .rdi) ((gpa - alignDown gpa) / 8#64)
  let m := m.store64 (regSlot gs .rsi) (m.load64 gpa.toNat)
  m.store64 (regSlot gs .rax) (BitVec.ofNat 64 img.ssdtHook)

/-- a write of `msr` is monitored in the bitmaps that `guest_state->cpu_data` points to -/
def monitorThrough (gs : ℕ) (msr : BitVec 32) (m : Mem) : Mem :=
  Bitmap.insert (CpuData.msrBitmaps (m.load64 (GuestState.cpuData gs)).toNat) (bitIndex .write msr) m

def protect (gs : ℕ) (m : Mem) : Mem :=
  monitorThrough gs msrIa32Lstar (monitorThrough gs msrIa32SysenterEip m)

/-- the memory after an exit that the host handles -/
def handled (img : Image) (gs : ℕ) (e : ExitInfo) (m : Mem) : Option Mem :=
  let m := advanceRip gs e.len m
  if e.reason = exitReasonHlt ∨ e.reason = exitReasonMsrRead ∨ e.reason = exitReasonMsrWrite ∨
      e.reason = exitReasonEptViolation then some m
  else if e.reason = exitReasonEptMisconfig then
    some (if InSsdt gs e.gpa then hookRegs img gs e.gpa m else m)
  else if e.reason = exitReasonVmcall ∧ m.load64 (regSlot gs .rdi) = protecetSyscall then
    some (protect gs m)
  else none

/-- `x` returns `status`, having changed memory to `m` and the log -/
def Serves (x : Host HandlerStatus) (s : Machine) (status : HandlerStatus) (m : Mem) : Prop :=
  ∃ log, x.run s = .ret status { s with mem := m, log := log }

section
variable (img : Image) (gs : ℕ) (s : Machine)

theorem serves_halt :
    Serves (haltHandler gs) s .handlerSuccess (advanceRip gs (exitInfo s.vmcs).len s.mem) := ⟨_, rfl⟩

theorem serves_rdmsr :
    Serves (rdmsrHandler gs) s .handlerSuccess (advanceRip gs (exitInfo s.vmcs).len s.mem) := ⟨_, rfl⟩

theorem serves_wrmsr :
    Serves (wrmsrHandler gs) s .handlerSuccess (advanceRip gs (exitInfo s.vmcs).len s.mem) := ⟨_, rfl⟩

theorem serves_eptViolation :
    Serves (eptViolationHandler gs) s .handlerSuccess (advanceRip gs (exitInfo s.vmcs).len s.mem) :=
  ⟨_, rfl⟩

theorem run_skipInstruction : (skipInstruction gs).run s
    = .ret () { s with mem := advanceRip gs (exitInfo s.vmcs).len s.mem } := rfl

theorem serves_eptMisconfig : Serves (eptMisconfigHandler img gs) s .handlerSuccess
    (if InSsdt gs (exitInfo s.vmcs).gpa then hookRegs img gs (exitInfo s.vmcs).gpa
      (advanceRip gs (exitInfo s.vmcs).len s.mem) else advanceRip gs (exitInfo s.vmcs).len s.mem) := by
  unfold Serves eptMisconfigHandler
  rw [bind_of_ret (run_skipInstruction gs s), bind_of_ret (run_vmread _ _)]
  by_cases h : InSsdt gs (exitInfo s.vmcs).gpa
  · have h' : InSsdt gs (s.vmcs vmcsGuestPhysicalAddress) := h
    rw [if_pos h, if_pos h']
    simp only [run_bind, run_storeQword, run_loadQword, run_pure]
    exact ⟨_, rfl⟩
  · have h' : ¬ InSsdt gs (s.vmcs vmcsGuestPhysicalAddress) := h
    rw [if_neg h, if_neg h', bind_of_ret (run_logDebug _ _ _)]
    exact ⟨_, rfl⟩

theorem run_monitorThrough (msr : BitVec 32) (hc : Covered msr) (t : Machine) :
    (monitorWrmsr (CpuData.msrBitmaps (t.mem.load64 (GuestState.cpuData gs)).toNat) msr).run t
      = .ret () { t with mem := monitorThrough gs msr t.mem } :=
  monitorWrmsr_eq _ hc t

theorem serves_vmcall (h : (advanceRip gs (exitInfo s.vmcs).len s.mem).load64 (regSlot gs .rdi)
      = protecetSyscall) :
    Serves (vmcallHandler gs) s .handlerSuccess
      (protect gs (advanceRip gs (exitInfo s.vmcs).len s.mem)) := by
  unfold Serves vmcallHandler
  rw [bind_of_ret (run_skipInstruction gs s), bind_of_ret (run_loadQword _ _)]
  simp only [h, if_true]
  rw [bind_of_ret (run_logDebug _ _ _), bind_of_ret (run_loadQword _ _),
    bind_of_ret (run_monitorThrough gs msrIa32SysenterEip (by decide) _),
    bind_of_ret (run_loadQword _ _),
    bind_of_ret (run_monitorThrough gs msrIa32Lstar (by decide) _)]
  exact ⟨_, rfl⟩

theorem serves_vmcall_other (h : (advanceRip gs (exitInfo s.vmcs).len s.mem).load64 (regSlot gs .rdi)
      ≠ protecetSyscall) :
    Serves (vmcallHandler gs) s .handlerFailure (advanceRip gs (exitInfo s.vmcs).len s.mem) := by
  unfold Serves vmcallHandler
  rw [bind_of_ret (run_skipInstruction gs s), bind_of_ret (run_loadQword _ _)]
  simp only [h, if_false]
  exact ⟨_, rfl⟩

theorem serves_dispatch {m : Mem} (h : handled img gs (exitInfo s.vmcs) s.mem = some m) :
    Serves (dispatchExit img (exitInfo s.vmcs).reason gs) s .handlerSuccess m := by
  simp only [handled] at h
  unfold dispatchExit
  split at h
  · obtain rfl := Option.some.inj h
    rename_i hr
    rcases hr with hr | hr | hr | hr
    · rw [if_pos hr]
      exact serves_halt gs s
    · rw [hr, if_neg (by decide), if_pos rfl]
      exact serves_rdmsr gs s
    · rw [hr, if_neg (by decide), if_neg (by decide), if_pos rfl]
      exact serves_wrmsr gs s
    · rw [hr, if_neg (by decide), if_neg (by decide), if_neg (by decide), if_pos rfl]
      exact serves_eptViolation gs s
  split at h
  · obtain rfl := Option.some.inj h
    rename_i hr
    rw [hr, if_neg (by decide), if_neg (by decide), if_neg (by decide), if_neg (by decide), if_pos rfl]
    exact serves_eptMisconfig img gs s
  split at h
  · obtain rfl := Option.some.inj h
    rename_i hr
    rw [hr.1, if_neg (by decide), if_neg (by decide), if_neg (by decide), if_neg (by decide),
      if_neg (by decide), if_pos rfl]
    exact serves_vmcall gs s hr.2
  · cases h

theorem dispatch_not_handled (h : handled img gs (exitInfo s.vmcs) s.mem = none) :
    (∃ t, (dispatchExit img (exitInfo s.vmcs).reason gs).run s = .halt t) ∨
      ∃ m, Serves (dispatchExit img (exitInfo s.vmcs).reason gs) s .handlerFailure m := by
  simp only [handled] at h
  split at h
  · cases h
  split at h
  · cases h
  split at h
  · cases h
  rename_i h1 h2 h3
  simp only [not_or] at h1
  obtain ⟨hhlt, hrd, hwr, hept⟩ := h1
  unfold dispatchExit
  rw [if_neg hhlt, if_neg hrd, if_neg hwr, if_neg hept, if_neg h2]
  by_cases hr : (exitInfo s.vmcs).reason = exitReasonVmcall
  · rw [if_pos hr]
    exact Or.inr ⟨_, serves_vmcall_other gs s fun hrdi => h3 ⟨hr, hrdi⟩⟩
  · rw [if_neg hr]
    exact Or.inl ⟨_, rfl⟩

end

section
variable (img : Image) {s : Machine}

/-- **an exit that is handled changes memory as `handled` says, and the log** -/
theorem vmexitHandler_ret {m : Mem}
    (h : handled img (s.vmcs vmcsHostFsBase).toNat (exitInfo s.vmcs) s.mem = some m) :
    ∃ log, (vmexitHandler img).run s = .ret () { s with mem := m, log := log } := by
  unfold vmexitHandler
  rw [bind_of_ret (run_vmread _ _), bind_of_ret (run_vmread _ _), bind_of_ret (run_logInfo _ _ _)]
  obtain ⟨log, hd⟩ := serves_dispatch img (s.vmcs vmcsHostFsBase).toNat
    { s with log := logged s .info "VM-exit reason: %s" [.str (exitReasonString (exitInfo s.vmcs).reason)] } h
  exact ⟨log, bind_of_ret hd _⟩

/-- **every other exit stops the host** -/
theorem vmexitHandler_halt
    (h : handled img (s.vmcs vmcsHostFsBase).toNat (exitInfo s.vmcs) s.mem = none) :
    ∃ t, (vmexitHandler img).run s = .halt t := by
  unfold vmexitHandler
  rw [bind_of_ret (run_vmread _ _), bind_of_ret (run_vmread _ _), bind_of_ret (run_logInfo _ _ _)]
  rcases dispatch_not_handled img (s.vmcs vmcsHostFsBase).toNat
    { s with log := logged s .info "VM-exit reason: %s" [.str (exitReasonString (exitInfo s.vmcs).reason)] } h
    with ⟨t, ht⟩ | ⟨m, log, hd⟩
  · exact ⟨t, bind_of_halt ht _⟩
  · exact ⟨_, bind_of_ret hd _⟩

end

end HyperC
