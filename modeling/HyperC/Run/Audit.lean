import HyperC.Lib.Records
import HyperC.Run.VmRuns

/-!
# The log of a run

Every exit is logged: `vmexit_handler` logs its reason, and most handlers a line of their own.

* `Event`, `Event.lines`   what a guest does that leaves it, and the lines of the log about it;
* `exitEvent`, `vmexitHandler_log`   an exit is logged as its event;
* `Event.guess`, `events_guess`   lines give the event away;
* `Vm.event`, `exec_log`   the events of the virtual machine are those that the machine logs;
* `log_records_run`   so the log of a run can be read back, as the events of the virtual machine.
-/

namespace HyperC
open Code Msr Ept Simulation

/-! ## events -/

/-- what leaves the guest; an unknown exit is known by the name of its reason -/
inductive Event where
  | halt
  | readMsr (rcx : BitVec 64)
  | writeMsr (rcx : BitVec 64)
  | violation (gpa : BitVec 64)
  | table
  | misconfig (gpa : BitVec 64)
  | protect
  | unsupported
  | unknown (reason : Option String)
deriving DecidableEq

namespace Event

/-- the first line of every exit -/
def reasonLine (reason : Option String) : LogLine := ⟨.info, "VM-exit reason: %s", [.str reason]⟩

def lines : Event → List LogLine
  | halt => [reasonLine (exitReasonString exitReasonHlt), ⟨.debug, "handling halt", []⟩]
  | readMsr rcx => [reasonLine (exitReasonString exitReasonMsrRead),
      ⟨.debug, "handling rdmsr from msr: %u", [.int rcx]⟩]
  | writeMsr rcx => [reasonLine (exitReasonString exitReasonMsrWrite),
      ⟨.debug, "handling wrmsr from msr: %u", [.int rcx]⟩]
  | violation gpa => [reasonLine (exitReasonString exitReasonEptViolation),
      ⟨.debug, "tried to update guest physical address %u", [.int gpa]⟩]
  | table => [reasonLine (exitReasonString exitReasonEptMisconfig)]
  | misconfig gpa => [reasonLine (exitReasonString exitReasonEptMisconfig),
      ⟨.debug, "guest tried to access physical address at %u", [.int gpa]⟩]
  | protect => [reasonLine (exitReasonString exitReasonVmcall),
      ⟨.debug, "protecting IA32_SYSENTER_EIP and IA32_LSTAR msrs from writes", []⟩]
  | unsupported => [reasonLine (exitReasonString exitReasonVmcall),
      ⟨.error, "unsupported vmcall", []⟩, ⟨.fatal, "Faild to handle VM-exit", []⟩]
  | unknown reason => [reasonLine reason, ⟨.fatal, "unsupported exit reason", []⟩]

/-- the event by the line behind the first one; an access to the syscall table has none -/
def ofLine (reason : List LogArg) (l : LogLine) : Option Event :=
  if l.fmt = "handling halt" then some halt
  else if l.fmt = "handling rdmsr from msr: %u" then
    match l.args with
    | [.int rcx] => some (readMsr rcx)
    | _ => none
  else if l.fmt = "handling wrmsr from msr: %u" then
    match l.args with
    | [.int rcx] => some (writeMsr rcx)
    | _ => none
  else if l.fmt = "tried to update guest physical address %u" then
    match l.args with
    | [.int gpa] => some (violation gpa)
    | _ => none
  else if l.fmt = "guest tried to access physical address at %u" then
    match l.args with
    | [.int gpa] => some (misconfig gpa)
    | _ => none
  else if l.fmt = "protecting IA32_SYSENTER_EIP and IA32_LSTAR msrs from writes" then some protect
  else if l.fmt = "unsupported vmcall" then some unsupported
  else if l.fmt = "unsupported exit reason" then
    match reason with
    | [.str name] => some (unknown name)
    | _ => none
  else some table

def guess : List LogLine → Option Event
  | [] => none
  | [_] => some table
  | r :: l :: _ => ofLine r.args l

/-- the line behind an access to the syscall table is the first one of another exit -/
theorem lines_cons (e : Event) : ∃ reason ls, e.lines = reasonLine reason :: ls := by
  cases e <;> exact ⟨_, _, rfl⟩

end Event

/-- **a stream of lines gives its first event away** -/
theorem events_guess : Records.Guesses Event.lines Event.guess where
  ne_nil e := by
    obtain ⟨reason, ls, h⟩ := e.lines_cons
    rw [h]
    exact List.cons_ne_nil _ _
  front e es := by
    cases e with
    | table =>
      cases es with
      | nil => rfl
      | cons e' es' =>
        obtain ⟨reason, ls, h⟩ := e'.lines_cons
        have hsplit : Records.stream Event.lines (e' :: es')
            = Event.reasonLine reason :: (ls ++ Records.stream Event.lines es') := by
          show e'.lines ++ _ = _
          rw [h]
          rfl
        rw [hsplit]
        show Event.ofLine [.str (exitReasonString exitReasonEptMisconfig)] (Event.reasonLine reason) = _
        simp [Event.ofLine, Event.reasonLine]
    | _ => simp [Event.lines, Event.guess, Event.ofLine, Event.reasonLine]

/-! ## one exit -/

/-- the event of an exit of a guest with these registers -/
def exitEvent (gs : ℕ) (e : ExitInfo) (regs : Regs) : Event :=
  if e.reason = exitReasonHlt then .halt
  else if e.reason = exitReasonMsrRead then .readMsr (regs .rcx)
  else if e.reason = exitReasonMsrWrite then .writeMsr (regs .rcx)
  else if e.reason = exitReasonEptViolation then .violation e.gpa
  else if e.reason = exitReasonEptMisconfig then
    if InSsdt gs e.gpa then .table else .misconfig e.gpa
  else if e.reason = exitReasonVmcall then
    if regs .rdi = protecetSyscall then .protect else .unsupported
  else .unknown (exitReasonString e.reason)

section
variable (img : Image) (gs : ℕ) {s : Machine} {α β : Type}

theorem logged_debug (h : s.minLevel = .debug) (level : LogLevel) (fmt : String) (args : List LogArg) :
    logged s level fmt args = s.log ++ [⟨level, fmt, args⟩] := by
  rw [logged, h, if_neg (by cases level <;> decide)]

/-- the code adds the lines to the log, however it ends -/
def Says (x : Host α) (s : Machine) (ls : List LogLine) : Prop := (x.run s).state.log = s.log ++ ls

/-- the code returns, having added the lines -/
def Answers (x : Host α) (s : Machine) (a : α) (ls : List LogLine) : Prop :=
  ∃ s', x.run s = .ret a s' ∧ s'.minLevel = s.minLevel ∧ s'.log = s.log ++ ls

theorem Answers.bind {x : Host α} {g : α → Host β} {a : α} {ls ls' : List LogLine}
    (h : Answers x s a ls) (hg : ∀ s', s'.minLevel = s.minLevel → Says (g a) s' ls') :
    Says (x >>= g) s (ls ++ ls') := by
  obtain ⟨s', hrun, hmin, hlog⟩ := h
  have hsays : ((g a).run s').state.log = s'.log ++ ls' := hg s' hmin
  rw [Says, bind_of_ret hrun, hsays, hlog, List.append_assoc]

theorem answers_halt (h : s.minLevel = .debug) :
    Answers (haltHandler gs) s .handlerSuccess [⟨.debug, "handling halt", []⟩] :=
  ⟨_, rfl, rfl, logged_debug h _ _ _⟩

theorem answers_violation (h : s.minLevel = .debug) :
    Answers (eptViolationHandler gs) s .handlerSuccess
      [⟨.debug, "tried to update guest physical address %u", [.int (exitInfo s.vmcs).gpa]⟩] :=
  ⟨_, rfl, rfl, logged_debug h _ _ _⟩

/-- the registers in the saved image -/
def imageRegs (gs : ℕ) (m : Mem) : Regs := fun r => m.load64 (regSlot gs r)

theorem answers_rdmsr (h : s.minLevel = .debug) :
    Answers (rdmsrHandler gs) s .handlerSuccess
      [⟨.debug, "handling rdmsr from msr: %u", [.int (imageRegs gs s.mem .rcx)]⟩] := by
  have hrcx : (advanceRip gs (exitInfo s.vmcs).len s.mem).load64 (regSlot gs .rcx)
      = imageRegs gs s.mem .rcx := by
    rw [load_advanceRip, if_neg (by decide)]
    rfl
  rw [← hrcx]
  exact ⟨_, rfl, rfl, logged_debug h _ _ _⟩

theorem answers_wrmsr (h : s.minLevel = .debug) :
    Answers (wrmsrHandler gs) s .handlerSuccess
      [⟨.debug, "handling wrmsr from msr: %u", [.int (imageRegs gs s.mem .rcx)]⟩] := by
  have hrcx : (advanceRip gs (exitInfo s.vmcs).len s.mem).load64 (regSlot gs .rcx)
      = imageRegs gs s.mem .rcx := by
    rw [load_advanceRip, if_neg (by decide)]
    rfl
  rw [← hrcx]
  exact ⟨_, rfl, rfl, logged_debug h _ _ _⟩

theorem answers_misconfig (h : s.minLevel = .debug) :
    Answers (eptMisconfigHandler img gs) s .handlerSuccess (if InSsdt gs (exitInfo s.vmcs).gpa then []
      else [⟨.debug, "guest tried to access physical address at %u", [.int (exitInfo s.vmcs).gpa]⟩]) := by
  unfold Answers eptMisconfigHandler
  rw [bind_of_ret (run_skipInstruction gs s), bind_of_ret (run_vmread _ _)]
  by_cases hin : InSsdt gs (exitInfo s.vmcs).gpa
  · have hin' : InSsdt gs (s.vmcs vmcsGuestPhysicalAddress) := hin
    rw [if_pos hin, if_pos hin', List.append_nil]
    exact ⟨_, rfl, rfl, rfl⟩
  · have hin' : ¬ InSsdt gs (s.vmcs vmcsGuestPhysicalAddress) := hin
    rw [if_neg hin, if_neg hin']
    exact ⟨_, rfl, rfl, logged_debug h _ _ _⟩

theorem answers_vmcall (h : s.minLevel = .debug) :
    Answers (vmcallHandler gs) s
      (if imageRegs gs s.mem .rdi = protecetSyscall then .handlerSuccess else .handlerFailure)
      [if imageRegs gs s.mem .rdi = protecetSyscall then
        ⟨.debug, "protecting IA32_SYSENTER_EIP and IA32_LSTAR msrs from writes", []⟩
        else ⟨.error, "unsupported vmcall", []⟩] := by
  have hrdi : (advanceRip gs (exitInfo s.vmcs).len s.mem).load64 (regSlot gs .rdi)
      = imageRegs gs s.mem .rdi := by
    rw [load_advanceRip, if_neg (by decide)]
    rfl
  unfold Answers vmcallHandler
  rw [bind_of_ret (run_skipInstruction gs s), bind_of_ret (run_loadQword _ _)]
  simp only [hrdi]
  by_cases hcall : imageRegs gs s.mem .rdi = protecetSyscall
  · rw [if_pos hcall, if_pos hcall, if_pos hcall, bind_of_ret (run_logDebug _ _ _),
      bind_of_ret (run_loadQword _ _), bind_of_ret (run_monitorThrough gs msrIa32SysenterEip (by decide) _),
      bind_of_ret (run_loadQword _ _), bind_of_ret (run_monitorThrough gs msrIa32Lstar (by decide) _)]
    exact ⟨_, rfl, rfl, logged_debug h _ _ _⟩
  · rw [if_neg hcall, if_neg hcall, if_neg hcall]
    exact ⟨_, rfl, rfl, logged_debug h _ _ _⟩

/-- what `vmexit_handler` makes of the status -/
theorem says_status {x : Host HandlerStatus} {status : HandlerStatus} {ls : List LogLine}
    (h : s.minLevel = .debug) (hx : Answers x s status ls) :
    Says (do
      let status ← x
      if status = .handlerFailure then panic "Faild to handle VM-exit" [] else pure ()) s
      (ls ++ if status = .handlerFailure then [⟨.fatal, "Faild to handle VM-exit", []⟩] else []) := by
  refine hx.bind fun s' hmin => ?_
  cases status with
  | handlerFailure => exact logged_debug (hmin.trans h) _ _ _
  | handlerSuccess => exact (List.append_nil _).symm

/-- **the lines of an exit behind the first one** -/
theorem says_dispatch (h : s.minLevel = .debug) :
    Says (do
      let status ← dispatchExit img (exitInfo s.vmcs).reason gs
      if status = .handlerFailure then panic "Faild to handle VM-exit" [] else pure ()) s
      (exitEvent gs (exitInfo s.vmcs) (imageRegs gs s.mem)).lines.tail := by
  unfold dispatchExit exitEvent
  by_cases hhlt : (exitInfo s.vmcs).reason = exitReasonHlt
  · rw [if_pos hhlt, if_pos hhlt]
    exact says_status h (answers_halt gs h)
  by_cases hread : (exitInfo s.vmcs).reason = exitReasonMsrRead
  · rw [if_neg hhlt, if_neg hhlt, if_pos hread, if_pos hread]
    exact says_status h (answers_rdmsr gs h)
  by_cases hwrite : (exitInfo s.vmcs).reason = exitReasonMsrWrite
  · rw [if_neg hhlt, if_neg hhlt, if_neg hread, if_neg hread, if_pos hwrite, if_pos hwrite]
    exact says_status h (answers_wrmsr gs h)
  by_cases hept : (exitInfo s.vmcs).reason = exitReasonEptViolation
  · rw [if_neg hhlt, if_neg hhlt, if_neg hread, if_neg hread, if_neg hwrite, if_neg hwrite, if_pos hept,
      if_pos hept]
    exact says_status h (answers_violation gs h)
  rw [if_neg hhlt, if_neg hhlt, if_neg hread, if_neg hread, if_neg hwrite, if_neg hwrite, if_neg hept,
    if_neg hept]
  by_cases hmis : (exitInfo s.vmcs).reason = exitReasonEptMisconfig
  · rw [if_pos hmis, if_pos hmis]
    have hsays := says_status h (answers_misconfig img gs h)
    by_cases hin : InSsdt gs (exitInfo s.vmcs).gpa
    · simp only [if_pos hin] at hsays ⊢
      exact hsays
    · simp only [if_neg hin] at hsays ⊢
      exact hsays
  by_cases hcall : (exitInfo s.vmcs).reason = exitReasonVmcall
  · rw [if_neg hmis, if_neg hmis, if_pos hcall, if_pos hcall]
    have hsays := says_status h (answers_vmcall gs h)
    by_cases hrdi : imageRegs gs s.mem .rdi = protecetSyscall
    · simp only [if_pos hrdi] at hsays ⊢
      exact hsays
    · simp only [if_neg hrdi] at hsays ⊢
      exact hsays
  · rw [if_neg hmis, if_neg hmis, if_neg hcall, if_neg hcall]
    exact logged_debug h _ _ _

end

/-- **an exit is logged as its event**, whatever it is -/
theorem vmexitHandler_log (img : Image) {s : Machine} (h : s.minLevel = .debug) :
    Says (vmexitHandler img) s (exitEvent (s.vmcs vmcsHostFsBase).toNat (exitInfo s.vmcs)
      (imageRegs (s.vmcs vmcsHostFsBase).toNat s.mem)).lines := by
  have hfirst : (exitEvent (s.vmcs vmcsHostFsBase).toNat (exitInfo s.vmcs)
      (imageRegs (s.vmcs vmcsHostFsBase).toNat s.mem)).lines
      = [Event.reasonLine (exitReasonString (exitInfo s.vmcs).reason)] ++
        (exitEvent (s.vmcs vmcsHostFsBase).toNat (exitInfo s.vmcs)
          (imageRegs (s.vmcs vmcsHostFsBase).toNat s.mem)).lines.tail := by
    unfold exitEvent
    split_ifs with h1 h2 h3 h4 h5 h6 h7 h8
    all_goals simp only [*, Event.lines, List.tail_cons, List.singleton_append]
  unfold vmexitHandler
  rw [Says, bind_of_ret (run_vmread _ _), bind_of_ret (run_vmread _ _), bind_of_ret (run_logInfo _ _ _),
    hfirst, ← List.append_assoc]
  have hrest := says_dispatch img (s.vmcs vmcsHostFsBase).toNat (s := { s with
    log := logged s .info "VM-exit reason: %s" [.str (exitReasonString (exitInfo s.vmcs).reason)] }) h
  exact hrest.trans (congrArg (· ++ _) (logged_debug h _ _ _))

theorem wrapper_log (img : Image) (c : Compiled) {p : ℕ} {s : Machine} (hp : CpuDataAt p)
    (hfs : s.cpu.fsBase = BitVec.ofNat 64 (CpuData.guestCpuState p))
    (hbase : s.vmcs vmcsHostFsBase = BitVec.ofNat 64 (CpuData.guestCpuState p))
    (h : s.minLevel = .debug) : Says (vmexitWrapper img c) s
      (exitEvent (CpuData.guestCpuState p) (exitInfo s.vmcs) (guestRegs s)).lines := by
  have hlt := hp.lt
  have hgs := CpuData.guestCpuState_eq p
  have himage : imageRegs (CpuData.guestCpuState p) (savedMem (CpuData.guestCpuState p) s) = guestRegs s :=
    funext fun r => load_savedMem _ _ r
  obtain ⟨regs, hsave⟩ := run_save img c hfs (by omega)
  have hlog := vmexitHandler_log img
    (s := { withRegs s regs with mem := savedMem (CpuData.guestCpuState p) s }) h
  rw [Says] at hlog ⊢
  simp only [withRegs] at hlog
  rw [hostFsBase_toNat hp hbase, himage] at hlog
  rw [vmexitWrapper, wrapperCode_eq, each_append, bind_of_ret hsave, each_cons]
  cases hm : handled img (CpuData.guestCpuState p) (exitInfo s.vmcs)
      (savedMem (CpuData.guestCpuState p) s) with
  | some m =>
    rw [← hostFsBase_toNat hp hbase] at hm
    obtain ⟨log, hret⟩ := vmexitHandler_ret img
      (s := { withRegs s regs with mem := savedMem (CpuData.guestCpuState p) s })
      (by rw [← hostFsBase_toNat hp hbase]; exact hm)
    obtain ⟨regs', hrest⟩ := run_restore img c
      (s := c.after { withRegs s regs with mem := savedMem (CpuData.guestCpuState p) s }
        { withRegs s regs with mem := m, log := log }) hfs (by omega)
    rw [bind_of_ret (run_call img c hret), hrest]
    simp only [withRegs] at hret
    rw [hret] at hlog
    exact hlog
  | none =>
    rw [← hostFsBase_toNat hp hbase] at hm
    obtain ⟨t, ht⟩ := vmexitHandler_halt img
      (s := { withRegs s regs with mem := savedMem (CpuData.guestCpuState p) s })
      (by rw [← hostFsBase_toNat hp hbase]; exact hm)
    rw [bind_of_halt (run_call_halt img c ht)]
    simp only [withRegs] at ht
    rw [ht] at hlog
    exact hlog

theorem resumed_state {σ α : Type} (o : Outcome σ α) : o.resumed.state = o.state := by
  cases o <;> rfl

/-- **an exit of a guest is logged as its event** -/
theorem serveExit_log (env : GuestEnv) (e : ExitInfo) {s : Machine} (hfs : HostFs cpuDataAddress s)
    (h : s.minLevel = .debug) :
    Says (serveExit env e) s (exitEvent guestState e s.cpu.regs).lines := by
  have hlog := wrapper_log env.img env.compiled cpuDataAt_fixed (vmExit_fs (e := e) hfs)
    (vmExit_fsBase hfs) h
  rw [exitInfo_vmExit, guestRegs_vmExit] at hlog
  show ((vmexitWrapper env.img env.compiled).run (vmExit e s)).resumed.state.log = _
  rw [resumed_state]
  exact hlog

/-! ## the level of the log -/

section
variable (u : VmxUnit) (img : Image) (env : GuestEnv) (gs : ℕ)

theorem keepsLevel_monitor (a : ℕ) (msr : BitVec 32) : Keeps Machine.minLevel (monitorWrmsr a msr) := by
  unfold monitorWrmsr monitor
  exact Keeps.ite (fun _ => rfl) fun _ => rfl

theorem keepsLevel_vmcall : Keeps Machine.minLevel (vmcallHandler gs) := by
  unfold vmcallHandler
  refine Keeps.bind (fun _ => rfl) fun _ => Keeps.bind (fun _ => rfl) fun _ => Keeps.ite ?_ fun _ => rfl
  refine Keeps.bind (fun _ => rfl) fun _ => Keeps.bind (fun _ => rfl) fun _ => ?_
  refine (keepsLevel_monitor _ _).bind fun _ => Keeps.bind (fun _ => rfl) fun _ => ?_
  exact (keepsLevel_monitor _ _).bind fun _ => fun _ => rfl

theorem keepsLevel_vmexitHandler : Keeps Machine.minLevel (vmexitHandler img) := by
  unfold vmexitHandler dispatchExit
  refine Keeps.bind (fun _ => rfl) fun _ => Keeps.bind (fun _ => rfl) fun _ =>
    Keeps.bind (fun _ => rfl) fun _ => Keeps.bind ?_ fun _ => Keeps.ite (fun _ => rfl) fun _ => rfl
  refine Keeps.ite (fun _ => rfl) (Keeps.ite (fun _ => rfl) (Keeps.ite (fun _ => rfl)
    (Keeps.ite (fun _ => rfl) (Keeps.ite ?_ (Keeps.ite (keepsLevel_vmcall _) fun _ => rfl)))))
  unfold eptMisconfigHandler
  refine Keeps.bind (fun _ => rfl) fun _ => Keeps.bind (fun _ => rfl) fun _ => ?_
  refine Keeps.ite ?_ (Keeps.bind (fun _ => rfl) fun _ => fun _ => rfl)
  refine Keeps.bind (fun _ => rfl) fun _ => Keeps.bind (fun _ => rfl) fun _ => ?_
  exact Keeps.bind (fun _ => rfl) fun _ => Keeps.bind (fun _ => rfl) fun _ => fun _ => rfl

theorem keepsLevel_wrapper (c : Compiled) : Keeps Machine.minLevel (vmexitWrapper img c) := by
  unfold vmexitWrapper
  refine Keeps.each fun i _ => ?_
  cases i with
  | call => exact Keeps.bind (fun _ => rfl) fun _ =>
      (keepsLevel_vmexitHandler _).bind fun _ => fun _ => rfl
  | _ => exact fun _ => rfl

theorem keepsLevel_serveExit (e : ExitInfo) : Keeps Machine.minLevel (serveExit env e) := by
  intro s
  show ((vmexitWrapper env.img env.compiled).run (vmExit e s)).resumed.state.minLevel = s.minLevel
  rw [resumed_state]
  exact keepsLevel_wrapper env.img env.compiled (vmExit e s)

/-- **no instruction of the guest changes the level** -/
theorem keepsLevel_exec (i : GuestInstr) : Keeps Machine.minLevel (i.exec env) := by
  cases i with
  | compute f => exact fun _ => rfl
  | load a =>
    refine Keeps.bind (Keeps.bind (fun _ => rfl) fun s => ?_) fun _ => fun _ => rfl
    cases eptAccess env.caps Attrs.read s a with
    | host b => exact fun _ => rfl
    | fault reason => exact (keepsLevel_serveExit env _).bind fun _ => fun _ => rfl
  | store a x =>
    refine Keeps.bind (Keeps.bind (fun _ => rfl) fun s => ?_) fun _ => fun _ => rfl
    cases eptAccess env.caps Attrs.write s a with
    | host b => exact fun _ => rfl
    | fault reason => exact (keepsLevel_serveExit env _).bind fun _ => fun _ => rfl
  | vmcall => exact Keeps.bind (fun _ => rfl) fun _ => keepsLevel_serveExit env _
  | hlt => exact Keeps.bind (fun _ => rfl) fun _ => Keeps.ite (keepsLevel_serveExit env _) fun _ => rfl
  | _ =>
    refine Keeps.bind (fun _ => rfl) fun _ => Keeps.ite (keepsLevel_serveExit env _) (Keeps.ite ?_ ?_)
    · exact fun _ => rfl
    · exact Keeps.bind (fun _ => rfl) fun _ => keepsLevel_serveExit env _

/-- what `enter_vmx_root` has no part in -/
def codeView (s : Machine) : LogLevel × BitVec 16 := (s.minLevel, s.cpu.cs)

theorem keepsView_assertNot (test : Prop) [Decidable test] (text : String) :
    Keeps codeView (assertNot test text) := by
  unfold assertNot
  exact Keeps.ite (fun _ => rfl) fun _ => rfl

theorem keepsView_vmxInstr (op : VmxOp) (region : ℕ) : Keeps codeView (vmxInstr u op region) := by
  intro s
  rw [run_vmxInstr]
  split
  all_goals rfl

theorem keepsView_enterVmxRoot (p : ℕ) : Keeps codeView (enterVmxRoot u p) := by
  unfold enterVmxRoot
  refine Keeps.bind (fun _ => rfl) fun _ => Keeps.bind (fun _ => rfl) fun _ => ?_
  refine Keeps.bind (fun _ => rfl) fun _ => Keeps.bind (fun _ => rfl) fun _ => ?_
  refine Keeps.bind (fun _ => rfl) fun _ => Keeps.bind (fun _ => rfl) fun _ => ?_
  refine Keeps.bind (fun _ => rfl) fun _ => Keeps.bind (fun _ => rfl) fun _ => Keeps.bind ?_ fun _ => ?_
  · unfold enableVmxon
    refine Keeps.bind (fun _ => rfl) fun _ => Keeps.ite (Keeps.ite (fun _ => rfl) ?_) fun _ => rfl
    exact Keeps.ite (fun _ => rfl) fun _ => rfl
  refine Keeps.bind (fun _ => rfl) fun _ => Keeps.bind (fun _ => rfl) fun _ => ?_
  refine Keeps.bind (fun _ => rfl) fun _ => Keeps.bind (fun _ => rfl) fun _ => ?_
  unfold startVmx
  refine Keeps.bind (fun _ => rfl) fun _ => Keeps.bind (fun _ => rfl) fun _ => ?_
  refine Keeps.bind (fun _ => rfl) fun _ => Keeps.bind (fun _ => rfl) fun _ => ?_
  refine (keepsView_vmxInstr u _ _).bind fun _ => (keepsView_assertNot _ _).bind fun _ => ?_
  refine (keepsView_vmxInstr u _ _).bind fun _ => (keepsView_assertNot _ _).bind fun _ => ?_
  exact (keepsView_vmxInstr u _ _).bind fun _ => (keepsView_assertNot _ _).bind fun _ => fun _ => rfl

/-- **the guest is launched with everything logged**, in the code segment that the host was entered in -/
theorem boots_view {s s₀ : Machine} (h : Boots u img s s₀) : codeView s₀ = (.debug, s.cpu.cs) := by
  obtain ⟨s₁, hsetup, hlaunch⟩ := h
  obtain ⟨log, rfl⟩ := launchVm_inv hlaunch
  obtain ⟨log', h₁⟩ := announce_run cpuDataAddress s
  unfold hostSetup vmSetup at hsetup
  rw [bind_of_ret h₁] at hsetup
  obtain ⟨⟨⟩, s₂, h₂, hsetup⟩ := bind_eq_ret.mp hsetup
  obtain ⟨⟨⟩, s₃, h₃, hsetup⟩ := bind_eq_ret.mp hsetup
  obtain ⟨⟨⟩, s₄, h₄, h₅⟩ := bind_eq_ret.mp hsetup
  obtain ⟨log'', hconfigured⟩ := configureVmcs_run img cpuDataAddress s₂
  have hs₃ := Outcome.ret_state (hconfigured.symm.trans h₃)
  have hs₄ := Outcome.ret_state ((initializeSsdt_run _ s₃).symm.trans h₄)
  have hs₁ := Outcome.ret_state ((initializeReadHook_run s₄).symm.trans h₅)
  have hentered : codeView s₂ = (.debug, s.cpu.cs) := (keepsView_enterVmxRoot u _).of_ret h₂
  rw [← hs₁, ← hs₄, ← hs₃]
  exact hentered

theorem boots_level {s s₀ : Machine} (h : Boots u img s s₀) : s₀.minLevel = .debug :=
  congrArg Prod.fst (boots_view u img h)

end

/-! ## the events of the virtual machine -/

/-- the event of a fault -/
def Event.tripleFault : Event := .unknown (exitReasonString exitReasonTripleFault)

/-- what an instruction does that leaves the guest -/
def Vm.event (env : GuestEnv) (v : Vm) : GuestInstr → List Event
  | .compute _ => []
  | .load a | .store a _ => if a / 4096 = ssdtPage then [.table] else []
  | .rdmsr =>
    if v.swallows .read then [.readMsr (v.regs .rcx)]
    else if env.readable v.ecx then [] else [.tripleFault]
  | .wrmsr =>
    if v.swallows .write then [.writeMsr (v.regs .rcx)]
    else if env.writable v.ecx (wrmsrValue v.regs) then [] else [.tripleFault]
  | .hlt => [.halt]
  | .vmcall => if v.regs .rdi = protecetSyscall then [.protect] else [.unsupported]

section
variable {env : GuestEnv} {s : Machine} {v : Vm} {a : ℕ} {ls : List LogLine}

theorem says_nothing {x : Host Unit} {s' : Machine} (hrun : x.run s = .ret () s') (hlog : s'.log = s.log) :
    Says x s [] := by
  rw [Says, hrun, List.append_nil]
  exact hlog

theorem says_one (e : Event) : Records.stream Event.lines [e] = e.lines := List.append_nil _

theorem exitEvent_table (env : GuestEnv) (regs : Regs) (hp : a / 4096 = ssdtPage) :
    exitEvent guestState (faultExit env exitReasonEptMisconfig a) regs = .table := by
  have hreason := faultExit_reason env (a := a)
  have hin := ((ssdtAccess_iff cpuDataAt_fixed).mpr (ssdtAccess_faultExit env hp)).2
  rw [exitEvent, hreason, if_neg (by decide), if_neg (by decide), if_neg (by decide), if_neg (by decide),
    if_pos rfl]
  exact if_pos hin

theorem exitEvent_vmcall (regs : Regs) (len : BitVec 64) :
    exitEvent guestState (instrExit exitReasonVmcall len s) regs
      = if regs .rdi = protecetSyscall then .protect else .unsupported := by
  rw [exitEvent, instrExit_reason (by decide), if_neg (by decide), if_neg (by decide),
    if_neg (by decide), if_neg (by decide), if_neg (by decide), if_pos rfl]

/-- **an access of the guest is logged as its event**, whether it loads or stores -/
theorem access_log (h : Hosts env s v) (hmin : s.minLevel = .debug) {i : GuestInstr}
    (right : Attrs → Bool) (hright : right identityAttrs = true) (hlt : a < 2 ^ 32)
    (hhost : eptAccess env.caps right s a = .host a → Says (i.exec env) s [])
    (hfault : ∀ reason, eptAccess env.caps right s a = .fault reason →
      ((i.exec env).run s).state = ((serveExit env (faultExit env reason a)).run s).state) :
    Says (i.exec env) s (Records.stream Event.lines (v.event env (.load a))) := by
  have hq := eptAccess_eq (hookedMap_of_tables h.tables) hright (hlt.trans (by norm_num))
  have hserved : ∀ reason, eptAccess env.caps right s a = .fault reason →
      Says (i.exec env) s (exitEvent guestState (faultExit env reason a) s.cpu.regs).lines := by
    intro reason hr
    rw [Says, hfault reason hr]
    exact serveExit_log env (faultExit env reason a) h.view.fsBase hmin
  unfold Vm.event
  by_cases hp : a / 4096 = ssdtPage
  · rw [if_pos hp] at hq
    simp only [if_pos hp]
    rw [says_one, ← exitEvent_table env s.cpu.regs hp]
    exact hserved _ hq
  · rw [if_neg hp, if_pos hlt] at hq
    simp only [if_neg hp]
    exact hhost hq

theorem load_log (h : Hosts env s v) (hmin : s.minLevel = .debug) (hf : (GuestInstr.load a).Fair env.img) :
    Says ((GuestInstr.load a).exec env) s (Records.stream Event.lines (v.event env (.load a))) := by
  refine access_log h hmin Attrs.read rfl hf.2.1
    (fun hq => says_nothing (guestLoad_host env hq) rfl) fun reason hr => ?_
  unfold GuestInstr.exec guestLoad
  simp only [run_bind, run_gets, id, hr]
  cases (serveExit env (faultExit env reason a)).run s
  all_goals rfl

theorem store_log (h : Hosts env s v) (hmin : s.minLevel = .debug) {x : BitVec 64}
    (hf : (GuestInstr.store a x).Fair env.img) :
    Says ((GuestInstr.store a x).exec env) s (Records.stream Event.lines (v.event env (.store a x))) := by
  refine access_log h hmin Attrs.write rfl hf.2.1
    (fun hq => says_nothing (guestStore_host env hq) rfl) fun reason hr => ?_
  unfold GuestInstr.exec guestStore
  simp only [run_bind, run_gets, id, hr]
  cases (serveExit env (faultExit env reason a)).run s
  all_goals rfl

theorem instr_log (h : Hosts env s v) (hmin : s.minLevel = .debug) (reason : ℕ) (len : BitVec 64) :
    Says (serveExit env (instrExit reason len s)) s
      (exitEvent guestState (instrExit reason len s) v.regs).lines := by
  rw [← h.regs]
  exact serveExit_log env _ h.view.fsBase hmin

/-- **a fault is logged as an exit for a triple fault** -/
theorem tripleFault_log (h : Hosts env s v) (hmin : s.minLevel = .debug) :
    Says (tripleFault env) s (Records.stream Event.lines [.tripleFault]) := by
  have hevent : exitEvent guestState (instrExit exitReasonTripleFault 0#64 s) v.regs = .tripleFault := by
    rw [exitEvent, instrExit_reason (by decide), if_neg (by decide), if_neg (by decide),
      if_neg (by decide), if_neg (by decide), if_neg (by decide), if_neg (by decide)]
    rfl
  unfold tripleFault
  rw [Says, run_id, says_one, ← hevent]
  exact instr_log h hmin exitReasonTripleFault 0#64

theorem rdmsr_log (h : Hosts env s v) (hmin : s.minLevel = .debug) :
    Says (GuestInstr.rdmsr.exec env) s (Records.stream Event.lines (v.event env .rdmsr)) := by
  have hiff := msrExits_iff h .read
  have hecx : ecx s = v.ecx := by rw [ecx, h.regs, Vm.ecx]
  unfold GuestInstr.exec Vm.event
  rw [Says, run_id, hecx]
  by_cases he : MsrExits .read s
  · have hevent : exitEvent guestState (instrExit exitReasonMsrRead 2#64 s) v.regs
        = .readMsr (v.regs .rcx) := by
      rw [exitEvent, instrExit_reason (by decide), if_neg (by decide), if_pos rfl]
    rw [if_pos he]
    simp only [hiff.mp he, if_true]
    rw [says_one, ← hevent]
    exact instr_log h hmin exitReasonMsrRead 2#64
  rw [if_neg he]
  simp only [hiff.not.mp he]
  cases env.readable v.ecx with
  | true => exact (List.append_nil _).symm
  | false => exact tripleFault_log h hmin

theorem wrmsr_log (h : Hosts env s v) (hmin : s.minLevel = .debug) :
    Says (GuestInstr.wrmsr.exec env) s (Records.stream Event.lines (v.event env .wrmsr)) := by
  have hiff := msrExits_iff h .write
  have hecx : ecx s = v.ecx := by rw [ecx, h.regs, Vm.ecx]
  unfold GuestInstr.exec Vm.event
  rw [Says, run_id, hecx, h.regs]
  by_cases he : MsrExits .write s
  · have hevent : exitEvent guestState (instrExit exitReasonMsrWrite 2#64 s) v.regs
        = .writeMsr (v.regs .rcx) := by
      rw [exitEvent, instrExit_reason (by decide), if_neg (by decide), if_neg (by decide), if_pos rfl]
    rw [if_pos he]
    simp only [hiff.mp he, if_true]
    rw [says_one, ← hevent]
    exact instr_log h hmin exitReasonMsrWrite 2#64
  rw [if_neg he]
  simp only [hiff.not.mp he]
  cases env.writable v.ecx (wrmsrValue v.regs) with
  | true => exact (List.append_nil _).symm
  | false => exact tripleFault_log h hmin

theorem hlt_log (h : Hosts env s v) (hmin : s.minLevel = .debug) :
    Says (GuestInstr.hlt.exec env) s (Records.stream Event.lines (v.event env .hlt)) := by
  have hevent : exitEvent guestState (instrExit exitReasonHlt 1#64 s) v.regs = .halt := by
    rw [exitEvent, instrExit_reason (by decide), if_pos rfl]
  unfold GuestInstr.exec Vm.event
  rw [Says, run_id, if_pos h.hlt, says_one, ← hevent]
  exact instr_log h hmin exitReasonHlt 1#64

theorem vmcall_log (h : Hosts env s v) (hmin : s.minLevel = .debug) :
    Says (GuestInstr.vmcall.exec env) s (Records.stream Event.lines (v.event env .vmcall)) := by
  have hevent : v.event env .vmcall
      = [exitEvent guestState (instrExit exitReasonVmcall 3#64 s) v.regs] := by
    rw [exitEvent_vmcall, Vm.event]
    split <;> rfl
  rw [hevent, says_one]
  unfold GuestInstr.exec
  rw [Says, run_id]
  exact instr_log h hmin exitReasonVmcall 3#64

/-- **the machine logs the events of the virtual machine** -/
theorem exec_log (h : Hosts env s v) (hmin : s.minLevel = .debug) {i : GuestInstr}
    (hi : i.Fair env.img) :
    Says (i.exec env) s (Records.stream Event.lines (v.event env i)) := by
  cases i with
  | compute f => exact says_nothing rfl rfl
  | load a => exact load_log h hmin hi
  | store a x => exact store_log h hmin hi
  | rdmsr => exact rdmsr_log h hmin
  | wrmsr => exact wrmsr_log h hmin
  | hlt => exact hlt_log h hmin
  | vmcall => exact vmcall_log h hmin

end

/-! ## runs -/

theorem stream_outputs (env : GuestEnv) (v : Vm) (is : List GuestInstr) :
    outputs (Vm.step env) (fun v i => Records.stream Event.lines (v.event env i)) v is
      = Records.stream Event.lines (outputs (Vm.step env) (Vm.event env) v is) := by
  induction is generalizing v with
  | nil => rfl
  | cons i is ih =>
    unfold outputs Records.stream
    rw [List.flatMap_append]
    refine congrArg _ ?_
    cases Vm.step env v i with
    | none => rfl
    | some v' => exact ih v'

/-- the log grows by the lines of the events of the virtual machine -/
theorem log_run {u : VmxUnit} {env : GuestEnv} {s s₀ : Machine}
    (hz : s.mem.ZeroOn (CpuData.epts cpuDataAddress) extendedPagingTablesT.size)
    (hboot : Boots u env.img s s₀) {is : List GuestInstr} (hfair : ∀ i ∈ is, i.Fair env.img) :
    ((guestRuns env is).run s₀).state.log
      = s₀.log ++ Records.stream Event.lines (outputs (Vm.step env) (Vm.event env) (vmOf s₀) is) := by
  have hlog : ((guestRuns env is).run s₀).state.log = s₀.log ++
      outputs (Vm.step env) (fun v i => Records.stream Event.lines (v.event env i)) (vmOf s₀) is :=
    (vm_simulates env).writes_run (P := fun s => s.minLevel = .debug)
      (fun h hmin hi => exec_log h hmin hi)
      (fun hmin hrun => ((keepsLevel_exec env _).of_ret hrun).trans hmin) (hosts_boots env hz hboot)
      (boots_level u env.img hboot) hfair
  rw [stream_outputs] at hlog
  exact hlog

/-- **the log of a run can be read back**: it grows by lines that are those of the events of the virtual
machine, and of no other events -/
theorem log_records_run (u : VmxUnit) (env : GuestEnv) (s s₀ : Machine)
    (hz : s.mem.ZeroOn (CpuData.epts cpuDataAddress) extendedPagingTablesT.size)
    (hboot : Boots u env.img s s₀) (is : List GuestInstr) (hfair : ∀ i ∈ is, i.Fair env.img) :
    ∃ ls, ((guestRuns env is).run s₀).state.log = s₀.log ++ ls ∧
      ∀ es, Records.readAll Event.lines Event.guess ls = some es ↔
        es = outputs (Vm.step env) (Vm.event env) (vmOf s₀) is := by
  refine ⟨_, log_run hz hboot hfair, fun es => ?_⟩
  rw [Records.readAll_iff events_guess]
  constructor
  · exact fun h => (Records.stream_inj events_guess h).symm
  · rintro rfl
    rfl

theorem log_records_run_sample : ∃ s₀ ls, Boots plainUnit sampleImage (bootMachine fun _ => 0#8) s₀ ∧
    ((guestRuns plainEnv sampleGuest).run s₀).state.log = s₀.log ++ ls ∧
      ∀ es, Records.readAll Event.lines Event.guess ls = some es ↔
        es = outputs (Vm.step plainEnv) (Vm.event plainEnv) (vmOf s₀) sampleGuest := by
  obtain ⟨s₀, hboot⟩ := boots_boot fun _ => 0#8
  obtain ⟨ls, hlog, hread⟩ := log_records_run plainUnit plainEnv (bootMachine fun _ => 0#8) s₀
    (fun _ _ _ => rfl) hboot sampleGuest sampleGuest_fair
  exact ⟨s₀, ls, hboot, hlog, hread⟩

end HyperC
